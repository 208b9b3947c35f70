import SgxActivation.Toml.Lexical
import SgxActivation.Toml.Value

/-!
# Numbers in TOML

Integers have 64 bits and are written in base ten with an optional sign and no
superfluous zero, or in base sixteen, eight or two without a sign. A fraction
or an exponent makes a float. Single underscores may stand between digits.

A float is read exactly, as a significand and a power of ten. The nearest
double of a positive one must be finite, so a literal from halfway past the
greatest double on is refused.
-/

namespace SgxActivation.Toml

/-- Digits with single underscores between them. The first digit is read
already; `read` holds the digits read, last first. -/
def moreDigits? (base : Nat) : (read : List Nat) → Reader (List Nat)
  | read, [] => some (read.reverse, [])
  | read, [c] =>
    match digit? base c with
    | some d => some ((d :: read).reverse, [])
    | none => if c = '_' then none else some (read.reverse, [c])
  | read, c :: next :: rest =>
    match digit? base c with
    | some d => moreDigits? base (d :: read) (next :: rest)
    | none =>
      if c = '_' then
        match digit? base next with
        | some d => moreDigits? base (d :: read) rest
        | none => none
      else some (read.reverse, c :: next :: rest)

/-- At least one digit, with single underscores between digits. -/
def digitRun? (base : Nat) : Reader (List Nat)
  | [] => none
  | c :: rest => do
    let first ← digit? base c
    moreDigits? base [first] rest

/-- The digits of a whole number in base ten: a zero stands alone. -/
def wholeDigits? : Reader (List Nat)
  | '0' :: rest => some ([0], rest)
  | cs => digitRun? 10 cs

/-- A sign, if there is one; whether it is a minus. -/
def sign : Rest → Bool × Rest
  | '-' :: rest => (true, rest)
  | '+' :: rest => (false, rest)
  | cs => (false, cs)

/-- A number under a sign. -/
def signed (negative : Bool) (n : Nat) : Int := if negative then -(n : Int) else n

/-- An integer of 64 bits. -/
def integer? (n : Int) : Option Value :=
  if -0x8000000000000000 ≤ n && n ≤ 0x7fffffffffffffff then some (.integer n) else none

/-- Half a step past the greatest finite double, from where on the nearest double
is infinite. -/
def overflowBound : Nat := Nat.pow 2 1024 - Nat.pow 2 970

/-- Whether the nearest double of `significand * 10 ^ exponent` is infinite.
Numbers of at most 300 and of more than 310 places before the point need no
closer look. -/
def roundsToInfinity (significand : Nat) (exponent : Int) : Bool :=
  let places : Int := (Nat.toDigits 10 significand).length + exponent
  if significand = 0 || places ≤ 300 then false
  else if 310 < places then true
  else if 0 ≤ exponent then overflowBound ≤ significand * Nat.pow 10 exponent.toNat
  else overflowBound * Nat.pow 10 (-exponent).toNat ≤ significand

/-- A float, unless it is positive and too great. -/
def float? (negative : Bool) (significand : Nat) (exponent : Int) : Option Value :=
  if !negative && roundsToInfinity significand exponent then none
  else some (.float (.finite negative significand exponent))

/-- An exponent, the letter of which is behind us. -/
def exponent? : Reader Int := fun cs => do
  let (negative, cs) := sign cs
  let (digits, rest) ← digitRun? 10 cs
  return (signed negative (ofDigits 10 digits), rest)

/-- What may follow the whole digits of a number: a fraction, an exponent, both
in this order, or neither, which leaves an integer. -/
def decimal? (negative : Bool) (whole : List Nat) : Reader Value
  | '.' :: rest => do
    let (fraction, rest) ← digitRun? 10 rest
    let (exponent, rest) ← match rest with
      | 'e' :: rest | 'E' :: rest => exponent? rest
      | rest => some (0, rest)
    let value ← float? negative (ofDigits 10 (whole ++ fraction)) (exponent - fraction.length)
    return (value, rest)
  | 'e' :: rest | 'E' :: rest => do
    let (exponent, rest) ← exponent? rest
    let value ← float? negative (ofDigits 10 whole) exponent
    return (value, rest)
  | rest => do
    let value ← integer? (signed negative (ofDigits 10 whole))
    return (value, rest)

/-- An integer in a base other than ten, the mark of which is behind us. -/
def inBase? (base : Nat) : Reader Value := fun cs => do
  let (digits, rest) ← digitRun? base cs
  let value ← integer? (ofDigits base digits)
  return (value, rest)

/-- A number behind its sign. -/
def unsigned? (negative : Bool) : Reader Value
  | 'i' :: 'n' :: 'f' :: rest => some (.float (.infinity negative), rest)
  | 'n' :: 'a' :: 'n' :: rest => some (.float (.notANumber negative), rest)
  | cs => do
    let (whole, rest) ← wholeDigits? cs
    decimal? negative whole rest

/-- A number. -/
def number? : Reader Value
  | '0' :: 'x' :: rest => inBase? 16 rest
  | '0' :: 'o' :: rest => inBase? 8 rest
  | '0' :: 'b' :: rest => inBase? 2 rest
  | cs =>
    let (negative, rest) := sign cs
    unsigned? negative rest

end SgxActivation.Toml
