/-!
# Plain text

Text as it is shown where no terminal interprets it: control sequences are left
out, and so are control characters other than **blanks**.

* A sequence begins with the escape character. A short one ends with a letter or
  another character from `0` or `@` to `~`.
* Some of the short ones open a string. A bell ends a string of one kind, and the
  other kinds end with the string terminator, which counts wherever its byte
  stands, also inside the encoding of another character.
* A blank inside a short sequence **suspends** it: the blank is shown and so is
  what follows, up to the next character that is never shown. There the sequence
  goes on where it stood, unless a character beyond ASCII was shown meanwhile.
-/

namespace SgxActivation.Text

/-- Where in a control sequence a text stands. -/
inductive Sequence where
  | outside
  /-- Directly behind the escape character. -/
  | escape
  /-- Behind the intermediate characters of a short sequence. -/
  | intermediate
  /-- Among the parameters of a control sequence proper. -/
  | control
  /-- In a string that a bell ends. -/
  | command
  /-- At the head of a string for the device. -/
  | deviceHead
  /-- Among the parameters in that head. -/
  | deviceParameters
  /-- Behind the intermediate characters in that head. -/
  | deviceIntermediate
  /-- In a string that the string terminator ends. -/
  | string
  deriving DecidableEq, Repr

/-- Control characters that count as blanks. -/
def isBlankControl (c : Char) : Bool := c = '\t' || c = '\n' || c = '\x0c' || c = '\r'

/-- Whether a character is one of ASCII. -/
def isAscii (c : Char) : Bool := c.toNat < 0x80

/-- Whether a character is shown outside of sequences. -/
def isShown (c : Char) : Bool := (0x20 ≤ c.toNat && c.toNat ≠ 0x7f) || isBlankControl c

/-- Whether the byte of the string terminator is part of a character's encoding. -/
def holdsTerminator (c : Char) : Bool := (String.utf8EncodeChar c).contains 0x9c

namespace Sequence

/-- Where the text stands after a character that stands directly behind the
escape character. -/
def afterEscape (c : Char) : Sequence :=
  if c = '[' then .control
  else if c = ']' then .command
  else if c = 'P' then .deviceHead
  else if c = 'X' || c = '^' || c = '_' then .string
  else if '0' ≤ c && c ≤ '~' then .outside
  else if ' ' ≤ c && c ≤ '/' then .intermediate
  else .escape

/-- Where the text stands after a character in the head of a device string,
which ends with a letter or at the first character out of order. -/
def afterHead (head : Sequence) (c : Char) : Sequence :=
  if '@' ≤ c && c ≤ '~' then .string
  else if ' ' ≤ c && c ≤ '/' then .deviceIntermediate
  else if '0' ≤ c && c ≤ '?' then
    if head = .deviceIntermediate || (head = .deviceParameters && '<' ≤ c) then .string
    else .deviceParameters
  else head

/-- Where the text stands after a character that is not shown. -/
def after (sequence : Sequence) (c : Char) : Sequence :=
  if c = '\x1b' then .escape
  else if c = '\x18' || c = '\x1a' then .outside
  else
    match sequence with
    | .outside => .outside
    | .escape => afterEscape c
    | .intermediate => if '0' ≤ c && c ≤ '~' then .outside else .intermediate
    | .control => if '@' ≤ c && c ≤ '~' then .outside else .control
    | .command => if c = '\x07' then .outside else .command
    | .deviceHead | .deviceParameters | .deviceIntermediate => sequence.afterHead c
    | .string => if holdsTerminator c then .outside else .string

/-- Whether a character is shown at this place. A suspended sequence shows what
is shown outside. -/
def shows (sequence : Sequence) (suspended : Bool) (c : Char) : Bool :=
  if suspended then isShown c
  else
    match sequence with
    | .outside => isShown c
    | .escape | .intermediate | .control => isBlankControl c
    | _ => false

/-- Where the text stands after a character that is shown. -/
def afterShown (sequence : Sequence) (c : Char) : Sequence :=
  if isAscii c then sequence else .outside

end Sequence

/-- The characters that are shown, where `suspended` says whether the sequence
is. -/
def shown (suspended : Bool) (sequence : Sequence) : List Char → List Char
  | [] => []
  | c :: rest =>
    if sequence.shows suspended c then
      c :: shown true (sequence.afterShown c) rest
    else shown false (sequence.after c) rest

/-- A text without control sequences. -/
def plain (text : String) : String := String.ofList (shown false .outside text.toList)

end SgxActivation.Text
