import SgxActivation.Toml.Lexical
import SgxActivation.Toml.Value

/-!
# Dates and times in TOML

A day is written `year-month-day` and must exist in the calendar; a time of day
is `hour:minute:second`, perhaps with a fraction of the second, where a minute
may have a leap second. Both together are joined by a letter T or one blank,
and may be followed by the distance from universal time.
-/

namespace SgxActivation.Toml

/-- Whether a year has a leap day. -/
def isLeapYear (year : Nat) : Bool := year % 4 = 0 && (year % 100 ≠ 0 || year % 400 = 0)

/-- How many days a month has. -/
def daysIn (year month : Nat) : Nat :=
  if month = 2 then (if isLeapYear year then 29 else 28)
  else if month = 4 || month = 6 || month = 9 || month = 11 then 30
  else 31

/-- A number of exactly `count` digits between two bounds. -/
def field? (count low high : Nat) : Reader Nat := fun cs => do
  let (digits, rest) ← digits? 10 count cs
  let n := ofDigits 10 digits
  if low ≤ n && n ≤ high then return (n, rest) else none

/-- A given character. -/
def mark? (c : Char) : Rest → Option Rest
  | first :: rest => if first = c then some rest else none
  | [] => none

/-- A day. -/
def date? : Reader Date := fun cs => do
  let (year, cs) ← field? 4 0 9999 cs
  let cs ← mark? '-' cs
  let (month, cs) ← field? 2 1 12 cs
  let cs ← mark? '-' cs
  let (day, cs) ← field? 2 1 (daysIn year month) cs
  return (⟨year, month, day⟩, cs)

/-- The digits of a fraction, if there is one. -/
def fraction : Rest → List Nat × Rest
  | '.' :: c :: rest =>
    if c.isDigit then
      (((c :: rest).takeWhile Char.isDigit).filterMap (digit? 10),
        (c :: rest).dropWhile Char.isDigit)
    else ([], '.' :: c :: rest)
  | cs => ([], cs)

/-- A time of day. -/
def time? : Reader Time := fun cs => do
  let (hour, cs) ← field? 2 0 23 cs
  let cs ← mark? ':' cs
  let (minute, cs) ← field? 2 0 59 cs
  let cs ← mark? ':' cs
  let (second, cs) ← field? 2 0 60 cs
  let (digits, cs) := fraction cs
  return (⟨hour, minute, second, digits⟩, cs)

/-- The distance from universal time, which is there when the text goes on with
a Z or a sign. -/
def distance? : Reader (Option Int)
  | 'Z' :: rest | 'z' :: rest => some (some 0, rest)
  | '+' :: rest => do
    let (minutes, rest) ← minutes? rest
    return (some minutes, rest)
  | '-' :: rest => do
    let (minutes, rest) ← minutes? rest
    return (some (-minutes), rest)
  | rest => some (none, rest)
where
  /-- Hours and minutes, as minutes. -/
  minutes? (cs : Rest) : Option (Int × Rest) := do
    let (hours, cs) ← field? 2 0 23 cs
    let cs ← mark? ':' cs
    let (minutes, cs) ← field? 2 0 59 cs
    return ((60 * hours + minutes : Nat), cs)

/-- The time that goes with a day, if the text goes on with one. -/
def timeOfDate? (date : Date) : Reader Moment := fun cs => do
  let joined := match cs with
    | 'T' :: rest | 't' :: rest | ' ' :: rest => time? rest
    | _ => none
  match joined with
  | none => return (.date date, cs)
  | some (time, rest) =>
    match ← distance? rest with
    | (some minutes, rest) => return (.offset date time minutes, rest)
    | (none, rest) => return (.local date time, rest)

/-- A moment: a day with or without a time, or a time. -/
def moment? : Reader Moment := fun cs =>
  match date? cs with
  | some (date, rest) => timeOfDate? date rest
  | none => do
    let (time, rest) ← time? cs
    return (.time time, rest)

end SgxActivation.Toml
