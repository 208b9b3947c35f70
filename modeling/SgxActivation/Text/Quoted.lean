import SgxActivation.Text.Extending
import SgxActivation.Text.Hexadecimal
import SgxActivation.Text.Unprintable

/-!
# Quoted texts

A text between quotes in a form that shows every character. The quote and the
backslash take a backslash, four control characters have a letter of their own,
and a character that extends the one before it or does not print is written by
its code point. All else stands as it is.
-/

namespace SgxActivation.Text

/-- A character by its code point. -/
def codePoint (c : Char) : List Char :=
  ['\\', 'u', '\x7b'] ++ (hexadecimal c.toNat).toList ++ ['\x7d']

/-- One character of a quoted text. -/
def showChar (c : Char) : List Char :=
  if c = '\x00' then ['\\', '0']
  else if c = '\t' then ['\\', 't']
  else if c = '\r' then ['\\', 'r']
  else if c = '\n' then ['\\', 'n']
  else if c = '"' || c = '\\' then ['\\', c]
  else if isExtending c || isUnprintable c then codePoint c
  else [c]

/-- A text between quotes. -/
def quoted (text : String) : String :=
  String.ofList ('"' :: (text.toList.flatMap showChar ++ ['"']))

end SgxActivation.Text
