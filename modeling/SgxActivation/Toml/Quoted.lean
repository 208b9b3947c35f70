import SgxActivation.Toml.Lexical

/-!
# Quoted texts in TOML

Four kinds. Between double quotes the backslash escapes; between single quotes
it is a character like any other. Three quotes of either sort open a text of
several lines: a line end right after them is dropped, every other line end
counts as a line feed, and up to two quotes may stand directly before the
closing three. A backslash at the end of a line of the escaping sort drops all
blanks and line ends up to the next character.
-/

namespace SgxActivation.Toml

/-- Characters that stand for themselves between double quotes. -/
def isBasicChar (c : Char) : Bool := isCommentChar c && c != '"' && c != '\\'

/-- Characters that stand for themselves between single quotes. -/
def isLiteralChar (c : Char) : Bool := isCommentChar c && c != '\''

/-- The character with a code point of `count` hexadecimal digits. Surrogates
and numbers past the last character denote none. -/
def codePoint? (count : Nat) : Reader Char := fun cs => do
  let (digits, rest) ← digits? 16 count cs
  let code := ofDigits 16 digits
  if code.isValidChar then return (Char.ofNat code, rest) else none

/-- What follows a backslash. -/
def escape? : Reader Char
  | 'b' :: rest => some ('\x08', rest)
  | 't' :: rest => some ('\t', rest)
  | 'n' :: rest => some ('\n', rest)
  | 'f' :: rest => some ('\x0c', rest)
  | 'r' :: rest => some ('\r', rest)
  | '"' :: rest => some ('"', rest)
  | '\\' :: rest => some ('\\', rest)
  | 'u' :: rest => codePoint? 4 rest
  | 'U' :: rest => codePoint? 8 rest
  | _ => none

/-- Without the blanks and line ends in front. -/
def skipBlankLines : Rest → Rest
  | '\n' :: rest => skipBlankLines rest
  | '\r' :: '\n' :: rest => skipBlankLines rest
  | c :: rest => if isBlank c then skipBlankLines rest else c :: rest
  | [] => []

/-- Where a backslash ends its line, the rest behind the gap. -/
def continuedLine? (cs : Rest) : Option Rest :=
  (lineEnd? (skipBlanks cs)).map skipBlankLines

/-- Without a line end in front, if there is one. -/
def dropLineEnd (cs : Rest) : Rest := (lineEnd? cs).getD cs

/-- How many of `quote` stand in front. -/
def quoteRun (quote : Char) (cs : Rest) : Nat := (cs.takeWhile (· == quote)).length

/-- The text between double quotes, the first of which is behind us; `read`
holds what has been read, last character first. -/
def basicFrom : (fuel : Nat) → (read : List Char) → Reader String
  | 0, _, _ => none
  | fuel + 1, read, cs =>
    match cs with
    | '"' :: rest => some (String.ofList read.reverse, rest)
    | '\\' :: rest => do
      let (c, rest) ← escape? rest
      basicFrom fuel (c :: read) rest
    | c :: rest => if isBasicChar c then basicFrom fuel (c :: read) rest else none
    | [] => none

/-- The text between single quotes, the first of which is behind us. -/
def literalText (cs : Rest) : Option (String × Rest) :=
  match cs.dropWhile isLiteralChar with
  | '\'' :: rest => some (String.ofList (cs.takeWhile isLiteralChar), rest)
  | _ => none

/-- The text between three double quotes, the first three of which are behind
us. -/
def longBasicFrom : (fuel : Nat) → (read : List Char) → Reader String
  | 0, _, _ => none
  | fuel + 1, read, cs =>
    match cs with
    | '"' :: rest =>
      let run := quoteRun '"' cs
      if run < 3 then longBasicFrom fuel ('"' :: read) rest
      else if run ≤ 5 then
        some (String.ofList (List.replicate (run - 3) '"' ++ read).reverse, cs.drop run)
      else none
    | '\\' :: rest =>
      match continuedLine? rest with
      | some rest => longBasicFrom fuel read rest
      | none => do
        let (c, rest) ← escape? rest
        longBasicFrom fuel (c :: read) rest
    | c :: rest =>
      match lineEnd? cs with
      | some rest => longBasicFrom fuel ('\n' :: read) rest
      | none => if isBasicChar c then longBasicFrom fuel (c :: read) rest else none
    | [] => none

/-- The text between three single quotes, the first three of which are behind
us. -/
def longLiteralFrom : (fuel : Nat) → (read : List Char) → Reader String
  | 0, _, _ => none
  | fuel + 1, read, cs =>
    match cs with
    | '\'' :: rest =>
      let run := quoteRun '\'' cs
      if run < 3 then longLiteralFrom fuel ('\'' :: read) rest
      else if run ≤ 5 then
        some (String.ofList (List.replicate (run - 3) '\'' ++ read).reverse, cs.drop run)
      else none
    | c :: rest =>
      match lineEnd? cs with
      | some rest => longLiteralFrom fuel ('\n' :: read) rest
      | none => if isLiteralChar c then longLiteralFrom fuel (c :: read) rest else none
    | [] => none

/-- A quoted text on one line. -/
def lineText : Reader String
  | '"' :: rest => basicFrom (rest.length + 1) [] rest
  | '\'' :: rest => literalText rest
  | _ => none

/-- A quoted text of any kind. -/
def quotedText : Reader String
  | '"' :: '"' :: '"' :: rest => longBasicFrom (rest.length + 1) [] (dropLineEnd rest)
  | '\'' :: '\'' :: '\'' :: rest => longLiteralFrom (rest.length + 1) [] (dropLineEnd rest)
  | cs => lineText cs

end SgxActivation.Toml
