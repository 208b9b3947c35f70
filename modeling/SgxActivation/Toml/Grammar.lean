import SgxActivation.Toml.Document
import SgxActivation.Toml.Moment
import SgxActivation.Toml.Number
import SgxActivation.Toml.Quoted

/-!
# The grammar of TOML

From characters to values and statements. Arrays and tables between braces may
stand in one another less than `nestingLimit` deep, and a dotted name has fewer
parts than that. Between brackets a line may end anywhere; between braces only
within a value. A comma after the last item is allowed between brackets alone.

`parse` reads a whole document: a byte order mark in front is skipped, then one
statement stands on each line.
-/

namespace SgxActivation.Toml

/-- The depth of nesting, and the number of parts of a name, that is too much. -/
def nestingLimit : Nat := 80

/-! ## Names -/

/-- One part of a name. -/
def namePart : Reader String := fun cs =>
  match lineText cs with
  | some read => some read
  | none =>
    match cs.takeWhile isBareChar with
    | [] => none
    | bare => some (String.ofList bare, cs.dropWhile isBareChar)

/-- The parts of a dotted name, with blanks around each. -/
def nameParts : (limit : Nat) → Reader (List String)
  | 0, _ => none
  | limit + 1, cs => do
    let (part, rest) ← namePart (skipBlanks cs)
    match skipBlanks rest with
    | '.' :: rest =>
      let (others, rest) ← nameParts limit rest
      return (part :: others, rest)
    | rest => return ([part], rest)

/-- A dotted name. -/
def name : Reader (List String) := nameParts (nestingLimit - 1)

/-! ## Values -/

/-- A dotted name and its value, read by `value`, with blanks around each. -/
def assignment (value : Reader Value) : Reader (List String × Value) := fun cs => do
  let (path, rest) ← name cs
  match rest with
  | '=' :: rest =>
    let (value, rest) ← value (skipBlanks rest)
    return ((path, value), rest)
  | _ => none

/-- The items of an array after its bracket; `read` holds those read, last
first. -/
def arrayFrom (item : Reader Value) :
    (fuel : Nat) → (read : List Value) → Reader Value
  | 0, _, _ => none
  | fuel + 1, read, cs =>
    match skipTrivia cs with
    | ']' :: rest => some (.array read.reverse, rest)
    | cs => do
      let (value, rest) ← item cs
      match skipTrivia rest with
      | ',' :: rest => arrayFrom item fuel (value :: read) rest
      | ']' :: rest => return (.array (value :: read).reverse, rest)
      | _ => none

/-- The assignments after a brace, the first of which is there; `read` holds
those read, last first. -/
def bracedFrom (value : Reader Value) :
    (fuel : Nat) → (read : List (List String × Value)) → Reader Value
  | 0, _, _ => none
  | fuel + 1, read, cs => do
    let (pair, rest) ← assignment value cs
    match skipBlanks rest with
    | ',' :: rest => bracedFrom value fuel (pair :: read) rest
    | '\x7d' :: rest => return (.table (← inlineTable (pair :: read).reverse), rest)
    | _ => none

/-- A table between braces, the first of which is behind us. -/
def braced (value : Reader Value) : Reader Value := fun cs =>
  match skipBlanks cs with
  | '\x7d' :: rest => some (.table [], rest)
  | cs => bracedFrom value (cs.length + 1) [] cs

/-- A number or a moment. -/
def numeric : Reader Value := fun cs =>
  match moment? cs with
  | some (moment, rest) => some (.moment moment, rest)
  | none => number? cs

/-- A value with at most `depth` arrays and braces in one another. -/
def valueWithin : (depth : Nat) → Reader Value
  | depth, cs =>
    match cs with
    | '[' :: rest =>
      match depth with
      | 0 => none
      | depth + 1 => arrayFrom (valueWithin depth) (rest.length + 1) [] rest
    | '\x7b' :: rest =>
      match depth with
      | 0 => none
      | depth + 1 => braced (valueWithin depth) rest
    | '"' :: _ | '\'' :: _ => do
      let (text, rest) ← quotedText cs
      return (.text text, rest)
    | 't' :: 'r' :: 'u' :: 'e' :: rest => some (.boolean true, rest)
    | 'f' :: 'a' :: 'l' :: 's' :: 'e' :: rest => some (.boolean false, rest)
    | _ => numeric cs

/-- A value. -/
def value : Reader Value := valueWithin (nestingLimit - 1)

/-! ## Statements -/

/-- A header, the bracket of which is behind us. -/
def header : Reader Statement
  | '[' :: rest => do
    let (path, rest) ← name rest
    match rest with
    | ']' :: ']' :: rest => return (.arrayHeader path, rest)
    | _ => none
  | cs => do
    let (path, rest) ← name cs
    match rest with
    | ']' :: rest => return (.header path, rest)
    | _ => none

/-- A header or an assignment. -/
def statement : Reader Statement
  | '[' :: rest => header rest
  | cs => do
    let ((path, value), rest) ← assignment value cs
    return (.assign path value, rest)

/-- The statements of a text; `read` holds those read, last first. -/
def statementsFrom :
    (fuel : Nat) → (read : List Statement) → Rest → Option (List Statement)
  | 0, _, _ => none
  | fuel + 1, read, cs =>
    match skipTrivia cs with
    | [] => some read.reverse
    | cs => do
      let (first, rest) ← statement cs
      let rest ← statementEnd? rest
      statementsFrom fuel (first :: read) rest

/-- The statements of a text. -/
def statements (cs : Rest) : Option (List Statement) :=
  statementsFrom (cs.length + 1) [] cs

/-- The table that a document denotes, if it is well formed. -/
def parse (document : String) : Option Entries := do
  let cs := match document.toList with
    | '\uFEFF' :: rest => rest
    | cs => cs
  build (← statements cs)

end SgxActivation.Toml
