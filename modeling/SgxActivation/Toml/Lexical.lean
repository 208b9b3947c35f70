/-!
# Lexical ground of TOML

Character classes, blanks, line ends and comments. A line ends at a line feed,
with or without a carriage return before it; a carriage return alone ends
nothing. All functions work on the characters that are left and return what
remains.
-/

namespace SgxActivation.Toml

/-- What is left of the text. -/
abbrev Rest := List Char

/-- A reader of the front of a text: what was read, and the rest. -/
abbrev Reader (α : Type) := Rest → Option (α × Rest)

/-- Blanks within a line. -/
def isBlank (c : Char) : Bool := c = ' ' || c = '\t'

/-- Characters beyond ASCII. -/
def isBeyondAscii (c : Char) : Bool := 0x80 ≤ c.toNat

/-- Characters that may stand in a comment: all but the control characters,
of which the tab is allowed. -/
def isCommentChar (c : Char) : Bool :=
  c = '\t' || (0x20 ≤ c.toNat && c.toNat ≤ 0x7e) || isBeyondAscii c

/-- Characters of a name without quotes. -/
def isBareChar (c : Char) : Bool := c.isAlphanum || c = '_' || c = '-'

/-- Without the blanks in front. -/
def skipBlanks (cs : Rest) : Rest := cs.dropWhile isBlank

/-- Without the line end in front, which has to be there. -/
def lineEnd? : Rest → Option Rest
  | '\n' :: rest => some rest
  | '\r' :: '\n' :: rest => some rest
  | _ => none

/-- Without the comment in front, if there is one. -/
def skipComment : Rest → Rest
  | '#' :: rest => rest.dropWhile isCommentChar
  | cs => cs

/-- Ends a statement: blanks, perhaps a comment, then a line end or the end of
the text. -/
def statementEnd? (cs : Rest) : Option Rest :=
  match skipComment (skipBlanks cs) with
  | [] => some []
  | rest => lineEnd? rest

/-- Without the blanks, line ends and comments in front. `inComment` tells
whether the first character belongs to a comment. -/
def skipTriviaFrom : (inComment : Bool) → Rest → Rest
  | _, [] => []
  | _, '\n' :: rest => skipTriviaFrom false rest
  | _, '\r' :: '\n' :: rest => skipTriviaFrom false rest
  | true, c :: rest => if isCommentChar c then skipTriviaFrom true rest else c :: rest
  | false, c :: rest =>
    if c = '#' then skipTriviaFrom true rest
    else if isBlank c then skipTriviaFrom false rest
    else c :: rest

/-- Without the blanks, line ends and comments in front. -/
def skipTrivia (cs : Rest) : Rest := skipTriviaFrom false cs

/-- The value of a digit in a base of at most sixteen. -/
def digit? (base : Nat) (c : Char) : Option Nat :=
  let value :=
    if '0' ≤ c && c ≤ '9' then c.toNat - 48
    else if 'a' ≤ c && c ≤ 'f' then c.toNat - 87
    else if 'A' ≤ c && c ≤ 'F' then c.toNat - 55
    else base
  if value < base then some value else none

/-- The number that digits in a base denote. -/
def ofDigits (base : Nat) (digits : List Nat) : Nat :=
  digits.foldl (fun n digit => base * n + digit) 0

/-- Exactly `count` digits. -/
def digits? (base : Nat) : (count : Nat) → Reader (List Nat)
  | 0, cs => some ([], cs)
  | _ + 1, [] => none
  | count + 1, c :: rest => do
    let first ← digit? base c
    let (others, rest) ← digits? base count rest
    return (first :: others, rest)

end SgxActivation.Toml
