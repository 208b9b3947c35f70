import SgxActivation.Json

/-!
# Printing JSON

Two forms are written: **`quoted`**, a single text between quotes, and
**`pretty`**, a whole value with every item and member on a line of its own,
two more blanks of margin per level, and `": "` between a name and its value.
An array or object without content is written in two characters.

Inside quotes the quote and the backslash are escaped, the five control
characters with a letter of their own take it, every other character below the
blank is `\u00` and two lower-case digits, and all else stands as it is.
-/

namespace SgxActivation.Json

/-- The digit of a number below sixteen. -/
def hexDigit (n : Nat) : Char :=
  if n < 10 then Char.ofNat (48 + n) else Char.ofNat (87 + n)

/-- One character, as it stands between quotes. -/
def escape (c : Char) : List Char :=
  if c = '"' then ['\\', '"']
  else if c = '\\' then ['\\', '\\']
  else if c = '\x08' then ['\\', 'b']
  else if c = '\x0c' then ['\\', 'f']
  else if c = '\n' then ['\\', 'n']
  else if c = '\r' then ['\\', 'r']
  else if c = '\t' then ['\\', 't']
  else if c.toNat < 0x20 then
    ['\\', 'u', '0', '0', hexDigit (c.toNat / 16), hexDigit (c.toNat % 16)]
  else [c]

/-- A text between quotes. -/
def quoted (text : String) : List Char :=
  '"' :: (text.toList.flatMap escape ++ ['"'])

/-- A new line and the margin of a nesting level. -/
def newLine (level : Nat) : List Char := '\n' :: List.replicate (2 * level) ' '

mutual

/-- A value whose first line has already been brought to its place at `level`. -/
def pretty (level : Nat) : Json → List Char
  | .null => "null".toList
  | .bool value => if value then "true".toList else "false".toList
  | .number value => (toString value).toList
  | .text value => quoted value
  | .array [] => ['[', ']']
  | .array (item :: rest) =>
    '[' :: (newLine (level + 1) ++ pretty (level + 1) item ++
      prettyItems (level + 1) rest ++ newLine level ++ [']'])
  | .object [] => ['\x7b', '\x7d']
  | .object ((name, value) :: rest) =>
    '\x7b' :: (newLine (level + 1) ++ quoted name ++ [':', ' '] ++ pretty (level + 1) value ++
      prettyMembers (level + 1) rest ++ newLine level ++ ['\x7d'])

/-- The items after the first, each behind a comma. -/
def prettyItems (level : Nat) : List Json → List Char
  | [] => []
  | item :: rest => ',' :: (newLine level ++ pretty level item ++ prettyItems level rest)

/-- The members after the first, each behind a comma. -/
def prettyMembers (level : Nat) : List (String × Json) → List Char
  | [] => []
  | (name, value) :: rest =>
    ',' :: (newLine level ++ quoted name ++ [':', ' '] ++ pretty level value ++
      prettyMembers level rest)

end

/-- A whole value in pretty form. -/
def toPretty (value : Json) : String := String.ofList (value.pretty 0)

end SgxActivation.Json
