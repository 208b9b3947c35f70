/-!
# TOML values

What a TOML document denotes. Tables keep their entries in the order of first
mention, each name once. How a table was written, under a header, by dotted
names or between braces, leaves no mark on the value.
-/

namespace SgxActivation.Toml

/-- A day of the calendar. -/
structure Date where
  year : Nat
  month : Nat
  day : Nat
  deriving DecidableEq, Repr

/-- A time of day; `fraction` holds the written digits of the second's fraction. -/
structure Time where
  hour : Nat
  minute : Nat
  second : Nat
  fraction : List Nat
  deriving DecidableEq, Repr

/-- A day, a time of day, or both, the latter with or without a distance from
universal time in minutes. -/
inductive Moment where
  | date (date : Date)
  | time (time : Time)
  | local (date : Date) (time : Time)
  | offset (date : Date) (time : Time) (minutes : Int)
  deriving DecidableEq, Repr

/-- A floating-point literal; a finite one is `significand * 10 ^ exponent`. -/
inductive Float where
  | finite (negative : Bool) (significand : Nat) (exponent : Int)
  | infinity (negative : Bool)
  | notANumber (negative : Bool)
  deriving DecidableEq, Repr

/-- A TOML value. -/
inductive Value where
  | text (value : String)
  | integer (value : Int)
  | float (value : Float)
  | boolean (value : Bool)
  | moment (value : Moment)
  | array (items : List Value)
  | table (entries : List (String × Value))

/-- The entries of a table. -/
abbrev Entries := List (String × Value)

/-- The value under a name. -/
def Entries.get? (entries : Entries) (name : String) : Option Value :=
  match entries with
  | [] => none
  | (other, value) :: rest => if other = name then some value else Entries.get? rest name

end SgxActivation.Toml
