import SgxActivation.Machine
import SgxActivation.Table

/-!
# Scripted processors

A processor that answers from a table of registers, and from a second table
after a set number of queries. Its state is the number of queries so far.
-/

namespace SgxActivation.Scripted

/-- Registers by leaf and sub-leaf. -/
abbrev RegisterTable := Table (UInt32 × UInt32) Registers

/-- The answers of a scripted processor. -/
structure ProcessorScript where
  /-- Answers to the first queries, or to all. -/
  before : RegisterTable := {}
  /-- Answers to the queries after the switch. -/
  after : RegisterTable := {}
  /-- How many queries come before the switch, if there is one. -/
  switchAfter : Option Nat := none
  /-- The answer where the table in force has none. -/
  otherwise : Registers := {}

namespace ProcessorScript

/-- The table in force after `count` queries. -/
def tableAt (script : ProcessorScript) (count : Nat) : RegisterTable :=
  match script.switchAfter with
  | some limit => if count < limit then script.before else script.after
  | none => script.before

/-- The processor that follows a script. -/
def processor (script : ProcessorScript) : Processor Nat where
  query leaf subleaf count :=
    (((script.tableAt count).get? (leaf, subleaf)).getD script.otherwise, count + 1)

end ProcessorScript

end SgxActivation.Scripted
