import Mathlib.Tactic.SplitIfs
import SgxActivation.Json.Printer
import SgxActivation.Toml.Number

/-!
# Reading JSON

A reader of the whole of JSON, and that it takes back what is printed.

* `text?` — a text between quotes, all escapes resolved, pairs of surrogates included;
* `number?` — a number with sign, fraction and exponent, read exactly. It has to come to a whole
  number, for others are no values here;
* **`value?`** — a value, with blanks in front of every token, and **`decode`** — a value that is
  the whole text;
* **`decode_toPretty`** — every value is read back from its pretty form.
-/

namespace SgxActivation.Json

open Toml (Reader digits? ofDigits sign signed)

/-! ## The reader -/

/-- Without the blanks and line ends in front. -/
def skip (cs : List Char) : List Char :=
  cs.dropWhile fun c => c = ' ' || c = '\n' || c = '\r' || c = '\t'

/-- A number of sixteen bits, in four hexadecimal digits. -/
def unit? : Reader Nat := fun cs => do
  let (digits, rest) ← digits? 16 4 cs
  return (ofDigits 16 digits, rest)

/-- The character of an escape by number. A character that does not fit into sixteen bits is a
pair of such escapes, of a high and a low surrogate, and these denote nothing on their own. -/
def numbered? : Reader Char := fun cs => do
  let (unit, rest) ← unit? cs
  if unit < 0xd800 ∨ 0xdfff < unit then return (Char.ofNat unit, rest)
  else if 0xdbff < unit then none
  else
    match rest with
    | '\\' :: 'u' :: rest => do
      let (low, rest) ← unit? rest
      if 0xdc00 ≤ low ∧ low ≤ 0xdfff then
        return (Char.ofNat (0x10000 + 0x400 * (unit - 0xd800) + (low - 0xdc00)), rest)
      else none
    | _ => none

/-- What follows a backslash. -/
def escaped? : Reader Char
  | '"' :: rest => some ('"', rest)
  | '\\' :: rest => some ('\\', rest)
  | '/' :: rest => some ('/', rest)
  | 'b' :: rest => some ('\x08', rest)
  | 'f' :: rest => some ('\x0c', rest)
  | 'n' :: rest => some ('\n', rest)
  | 'r' :: rest => some ('\r', rest)
  | 't' :: rest => some ('\t', rest)
  | 'u' :: rest => numbered? rest
  | _ => none

/-- One character between quotes. -/
def character? : Reader Char
  | [] => none
  | c :: rest =>
    if c = '\\' then escaped? rest
    else if c = '"' ∨ c.toNat < 0x20 then none
    else some (c, rest)

/-- The characters up to the closing quote. -/
def text? : (limit : Nat) → Reader (List Char)
  | 0, _ => none
  | limit + 1, cs =>
    if cs.head? = some '"' then some ([], cs.tail)
    else do
      let (c, rest) ← character? cs
      let (others, rest) ← text? limit rest
      return (c :: others, rest)

/-- A text, the opening quote of which is behind us. -/
def string? : Reader String := fun cs => do
  let (characters, rest) ← text? (cs.length + 1) cs
  return (String.ofList characters, rest)

/-- Decimal digits, at least one. -/
def decimals? : Reader (List Char) := fun cs =>
  match cs.takeWhile Char.isDigit with
  | [] => none
  | digits => some (digits, cs.dropWhile Char.isDigit)

/-- The digits of a whole number, where a zero in front stands alone. -/
def whole? : Reader (List Char) := fun cs => do
  let (digits, rest) ← decimals? cs
  if digits.head? = some '0' ∧ digits.length ≠ 1 then none else return (digits, rest)

/-- The digits of a fraction, if there is one. -/
def fraction? : Reader (List Char)
  | '.' :: rest => decimals? rest
  | cs => some ([], cs)

/-- An exponent; zero where there is none. -/
def exponent? : Reader Int
  | 'e' :: cs | 'E' :: cs => do
    let (negative, cs) := sign cs
    let (digits, rest) ← decimals? cs
    return (signed negative (Nat.ofDigitChars 10 digits 0), rest)
  | cs => some (0, cs)

/-- The number `significand * 10 ^ exponent`, if it is whole. -/
def scaled? (significand : Nat) (exponent : Int) : Option Nat :=
  if 0 ≤ exponent then some (significand * Nat.pow 10 exponent.toNat)
  else if significand % Nat.pow 10 (-exponent).toNat = 0 then
    some (significand / Nat.pow 10 (-exponent).toNat)
  else none

/-- A number without its sign. -/
def unsigned? : Reader Nat := fun cs => do
  let (whole, rest) ← whole? cs
  let (fraction, rest) ← fraction? rest
  let (exponent, rest) ← exponent? rest
  let n ← scaled? (Nat.ofDigitChars 10 (whole ++ fraction) 0) (exponent - fraction.length)
  return (n, rest)

/-- A number. -/
def number? : Reader Int := fun cs => do
  let negative := decide (cs.head? = some '-')
  let (n, rest) ← unsigned? (if negative then cs.tail else cs)
  return (signed negative n, rest)

/-- Items with commas between them, up to the closing character. -/
def series? {α : Type} (item : Reader α) (close : Char) : (limit : Nat) → Reader (List α)
  | 0, _ => none
  | limit + 1, cs => do
    let (first, rest) ← item cs
    match skip rest with
    | [] => none
    | c :: rest =>
      if c = close then return ([first], rest)
      else if c = ',' then do
        let (others, rest) ← series? item close limit rest
        return (first :: others, rest)
      else none

/-- Items up to the closing character, if there are any. -/
def enclosed? {α : Type} (item : Reader α) (close : Char) : Reader (List α) := fun cs =>
  if (skip cs).head? = some close then some ([], (skip cs).tail)
  else series? item close cs.length cs

/-- A member of an object: its name, a colon and its value. -/
def member? (value : Reader Json) : Reader (String × Json) := fun cs =>
  match skip cs with
  | '"' :: rest => do
    let (name, rest) ← string? rest
    match skip rest with
    | ':' :: rest => do
      let (json, rest) ← value rest
      return ((name, json), rest)
    | _ => none
  | _ => none

/-- The values that are words. -/
def keywords : List (List Char × Json) :=
  [("null".toList, .null), ("true".toList, .bool true), ("false".toList, .bool false)]

/-- A value that is a word. -/
def keyword? : Reader Json := fun cs =>
  keywords.findSome? fun (word, json) =>
    if word.isPrefixOf cs then some (json, cs.drop word.length) else none

/-- A value in which objects and arrays are nested at most `depth` deep. -/
def value? : (depth : Nat) → Reader Json
  | 0, _ => none
  | depth + 1, cs =>
    match skip cs with
    | '"' :: rest => (string? rest).map fun (string, rest) => (.text string, rest)
    | '[' :: rest =>
      (enclosed? (value? depth) ']' rest).map fun (items, rest) => (.array items, rest)
    | '\x7b' :: rest =>
      (enclosed? (member? (value? depth)) '\x7d' rest).map fun (members, rest) =>
        (.object members, rest)
    | cs => keyword? cs <|> (number? cs).map fun (n, rest) => (.number n, rest)

/-- The value that a whole text is. No text is nested deeper than it is long. -/
def decode (text : String) : Option Json :=
  match value? (text.length + 1) text.toList with
  | some (json, rest) => if skip rest = [] then some json else none
  | none => none

-- Forms that are never printed are read as well.
example : decode "[-1.5e1 ,\"\\u00e9\\ud83d\\ude00\"]" =
    some (.array [.number (-15), .text "é😀"]) := rfl

/-! ## Texts -/

variable {rest : List Char}

theorem digit?_hexDigit : ∀ n < 16, Toml.digit? 16 (hexDigit n) = some n := by decide

theorem unit?_hexDigits {n : Nat} (small : n < 0x20) :
    unit? ('0' :: '0' :: hexDigit (n / 16) :: hexDigit (n % 16) :: rest) = some (n, rest) := by
  have hzero : Toml.digit? 16 '0' = some 0 := rfl
  have hhigh := digit?_hexDigit (n / 16) (by omega)
  have hlow := digit?_hexDigit (n % 16) (by omega)
  have hvalue : ofDigits 16 [0, 0, n / 16, n % 16] = n := by
    simp only [ofDigits, List.foldl_cons, List.foldl_nil]
    omega
  simp [unit?, digits?, hzero, hhigh, hlow, hvalue]

/-- Each character is taken back from its escaped form. -/
theorem character?_escape (c : Char) : character? (escape c ++ rest) = some (c, rest) := by
  unfold escape
  split_ifs with hquote hbackslash hbackspace hfeed hnewline hreturn htab hcontrol
  · subst hquote; rfl
  · subst hbackslash; rfl
  · subst hbackspace; rfl
  · subst hfeed; rfl
  · subst hnewline; rfl
  · subst hreturn; rfl
  · subst htab; rfl
  · have hunit : unit? _ = some (c.toNat, rest) := unit?_hexDigits hcontrol
    have hbelow : c.toNat < 0xd800 := by omega
    simp [character?, escaped?, numbered?, hunit, hbelow, Char.ofNat_toNat]
  · simp only [List.singleton_append, character?, if_neg hbackslash,
      if_neg (not_or.2 ⟨hquote, hcontrol⟩)]

theorem head?_escape (c : Char) : (escape c ++ rest).head? ≠ some '"' := by
  unfold escape
  split_ifs with hquote <;> simp_all

theorem text?_escaped (characters : List Char) {limit : Nat} (enough : characters.length < limit) :
    text? limit (characters.flatMap escape ++ '"' :: rest) = some (characters, rest) := by
  induction limit generalizing characters with
  | zero => exact absurd enough (Nat.not_lt_zero _)
  | succ limit ih =>
    cases characters with
    | nil => simp [text?]
    | cons c others =>
      have hothers := ih others (Nat.lt_of_succ_lt_succ enough)
      rw [List.flatMap_cons, List.append_assoc, text?, if_neg (head?_escape c), character?_escape]
      simp [hothers]

/-- Where each item leaves something, there is no more of them than of what they leave. -/
theorem length_le_flatMap {α : Type} {f : α → List Char} (nonempty : ∀ a, f a ≠ [])
    (items : List α) : items.length ≤ (items.flatMap f).length := by
  induction items with
  | nil => exact Nat.le_refl 0
  | cons a later ih =>
    have ha := List.length_pos_iff.2 (nonempty a)
    rw [List.flatMap_cons, List.length_append, List.length_cons]
    omega

theorem escape_ne_nil (c : Char) : escape c ≠ [] := by
  unfold escape
  split_ifs <;> exact List.cons_ne_nil _ _

/-- A text is taken back from its quoted form, the opening quote aside. -/
theorem string?_escaped (text : String) :
    string? (text.toList.flatMap escape ++ '"' :: rest) = some (text, rest) := by
  have hlength := length_le_flatMap escape_ne_nil text.toList
  have htext : text? ((text.toList.flatMap escape ++ '"' :: rest).length + 1)
      (text.toList.flatMap escape ++ '"' :: rest) = some (text.toList, rest) :=
    text?_escaped text.toList (by rw [List.length_append]; omega)
  unfold string?
  rw [htext]
  exact congrArg (fun text => some (text, rest)) String.ofList_toList

/-! ## Numbers -/

/-- What may stand behind a value in print: nothing, a comma or a new line. None of these goes on
with a number. -/
def Ends (rest : List Char) : Prop := ∀ c ∈ rest.head?, c = ',' ∨ c = '\n'

theorem Ends.not_digit (ends : Ends rest) : rest.takeWhile Char.isDigit = [] ∧
    rest.dropWhile Char.isDigit = rest := by
  cases rest with
  | nil => exact ⟨rfl, rfl⟩
  | cons c rest =>
    rcases ends c rfl with rfl | rfl
    · exact ⟨rfl, rfl⟩
    · exact ⟨rfl, rfl⟩

theorem Ends.fraction? (ends : Ends rest) : fraction? rest = some ([], rest) := by
  cases rest with
  | nil => rfl
  | cons c rest => rcases ends c rfl with rfl | rfl <;> rfl

theorem Ends.exponent? (ends : Ends rest) : exponent? rest = some (0, rest) := by
  cases rest with
  | nil => rfl
  | cons c rest => rcases ends c rfl with rfl | rfl <;> rfl

theorem isDigit_toDigits (n : Nat) : ∀ c ∈ Nat.toDigits 10 n, c.isDigit = true :=
  fun _ => Nat.isDigit_of_mem_toDigits (by decide) (by decide)

theorem decimals?_toDigits (n : Nat) (ends : Ends rest) :
    decimals? (Nat.toDigits 10 n ++ rest) = some (Nat.toDigits 10 n, rest) := by
  unfold decimals?
  rw [List.takeWhile_append_of_pos (isDigit_toDigits n),
    List.dropWhile_append_of_pos (isDigit_toDigits n), ends.not_digit.1, ends.not_digit.2,
    List.append_nil]
  cases hdigits : Nat.toDigits 10 n with
  | nil => exact absurd hdigits Nat.toDigits_ne_nil
  | cons first others => rfl

/-- A numeral of several digits does not begin with a zero. -/
theorem head?_toDigits {n : Nat} (h : (Nat.toDigits 10 n).head? = some '0') : n = 0 := by
  induction n using Nat.strongRecOn with
  | ind n ih =>
    rw [Nat.toDigits_eq_if (by decide)] at h
    by_cases hsmall : n < 10
    · have hdigit : ∀ d < 10, d.digitChar = '0' → d = 0 := by decide
      rw [if_pos hsmall] at h
      exact hdigit n hsmall (Option.some.inj h)
    · have hfront : (Nat.toDigits 10 (n / 10)).head? = some '0' := by
        rw [if_neg hsmall] at h
        cases hdigits : Nat.toDigits 10 (n / 10) with
        | nil => exact absurd hdigits Nat.toDigits_ne_nil
        | cons first others =>
          rw [hdigits] at h
          exact h
      have hnone := ih (n / 10) (by omega) hfront
      omega

theorem whole?_toDigits (n : Nat) (ends : Ends rest) :
    whole? (Nat.toDigits 10 n ++ rest) = some (Nat.toDigits 10 n, rest) := by
  have halone : ¬ ((Nat.toDigits 10 n).head? = some '0' ∧ (Nat.toDigits 10 n).length ≠ 1) := by
    rintro ⟨hzero, hmore⟩
    obtain rfl := head?_toDigits hzero
    exact hmore rfl
  simp [whole?, decimals?_toDigits n ends, halone]

theorem unsigned?_toDigits (n : Nat) (ends : Ends rest) :
    unsigned? (Nat.toDigits 10 n ++ rest) = some (n, rest) := by
  have hvalue : Nat.ofDigitChars 10 (Nat.toDigits 10 n) 0 = n :=
    Nat.ofDigitChars_toDigits (by decide) (by decide)
  simp [unsigned?, whole?_toDigits n ends, ends.fraction?, ends.exponent?, scaled?, hvalue]

theorem not_minus_toDigits (n : Nat) : (Nat.toDigits 10 n ++ rest).head? ≠ some '-' := by
  cases hdigits : Nat.toDigits 10 n with
  | nil => exact absurd hdigits Nat.toDigits_ne_nil
  | cons first others =>
    rintro ⟨⟩
    have hminus := isDigit_toDigits n '-' (by rw [hdigits]; exact List.mem_cons_self)
    exact absurd hminus (by decide)

theorem toList_toString_ofNat (n : Nat) :
    (toString (Int.ofNat n)).toList = Nat.toDigits 10 n := by
  show n.repr.toList = _
  rw [Nat.repr_eq_ofList_toDigits, String.toList_ofList]

theorem toList_toString_negSucc (n : Nat) :
    (toString (Int.negSucc n)).toList = '-' :: Nat.toDigits 10 (n + 1) := by
  show ("-" ++ (n + 1).repr).toList = _
  rw [Nat.repr_eq_ofList_toDigits, String.toList_append]
  exact congrArg (List.cons '-') String.toList_ofList

/-- A number is taken back from its numeral. -/
theorem number?_toString (n : Int) (ends : Ends rest) :
    number? ((toString n).toList ++ rest) = some (n, rest) := by
  cases n with
  | ofNat n =>
    rw [toList_toString_ofNat, number?, decide_eq_false (not_minus_toDigits n)]
    simp [unsigned?_toDigits n ends, signed]
  | negSucc n =>
    rw [toList_toString_negSucc]
    simp [number?, unsigned?_toDigits (n + 1) ends, signed, Int.negSucc_eq]

/-! ## Series -/

/-- The margin in front of a token is skipped. -/
theorem skip_newLine (level : Nat) : skip (newLine level ++ rest) = skip rest := by
  have hmargin : ∀ c ∈ newLine level,
      (c = ' ' || c = '\n' || c = '\r' || c = '\t') = true := by
    intro c member
    rcases List.mem_cons.1 member with rfl | hblank
    · rfl
    · rw [List.eq_of_mem_replicate hblank]
      rfl
  exact List.dropWhile_append_of_pos hmargin

theorem ends_newLine (level : Nat) (rest : List Char) : Ends (newLine level ++ rest) := by
  rintro _ ⟨⟩
  exact .inr rfl

theorem ends_comma (rest : List Char) : Ends (',' :: rest) := by
  rintro _ ⟨⟩
  exact .inl rfl

variable {α : Type} (spell : α → List Char) (level : Nat)

/-- Items as they stand between brackets: each on a line of its own, behind a comma but for the
first, and a last line that only has the margin of the closing bracket. -/
def block (outer : Nat) (first : α) (others : List α) : List Char :=
  newLine level ++ spell first ++ (others.flatMap fun a => ',' :: (newLine level ++ spell a)) ++
    newLine outer

variable {spell level} {item : Reader α} {close : Char} {first : α} {others : List α}
  {outer limit : Nat}

/-- Items are taken back from their lines if each alone is. -/
theorem series?_block (closing : close ≠ ',' ∧ skip (close :: rest) = close :: rest)
    (reads : ∀ a ∈ first :: others, ∀ rest, Ends rest →
      item (newLine level ++ spell a ++ rest) = some (a, rest))
    (enough : others.length < limit) :
    series? item close limit (block spell level outer first others ++ close :: rest) =
      some (first :: others, rest) := by
  induction limit generalizing first others with
  | zero => exact absurd enough (Nat.not_lt_zero _)
  | succ limit ih =>
    cases others with
    | nil =>
      have hfirst := reads first List.mem_cons_self _ (ends_newLine outer (close :: rest))
      have htext : block spell level outer first [] ++ close :: rest =
          newLine level ++ spell first ++ (newLine outer ++ close :: rest) := by simp [block]
      rw [htext, series?, hfirst]
      simp [skip_newLine, closing.2]
    | cons second others =>
      have hfirst := reads first List.mem_cons_self _
        (ends_comma (block spell level outer second others ++ close :: rest))
      have hothers := ih (fun a member => reads a (List.mem_cons_of_mem first member))
        (Nat.lt_of_succ_lt_succ enough)
      have htext : block spell level outer first (second :: others) ++ close :: rest =
          newLine level ++ spell first ++
            ',' :: (block spell level outer second others ++ close :: rest) := by simp [block]
      have hcomma (behind : List Char) : skip (',' :: behind) = ',' :: behind := rfl
      rw [htext, series?, hfirst]
      simp [hcomma, closing.1.symm, hothers]

/-- A block is longer than each of its items. -/
theorem length_lt_block {a : α} (member : a ∈ first :: others) :
    (spell a).length < (block spell level outer first others).length := by
  simp only [block, List.length_append, newLine, List.length_cons]
  rcases List.mem_cons.1 member with rfl | hlater
  · omega
  · have hsublist := List.sublist_flatten_of_mem
      (List.mem_map_of_mem (f := fun a => ',' :: (newLine level ++ spell a)) hlater)
    have hlength := hsublist.length_le
    rw [← List.flatMap_def, List.length_cons, List.length_append] at hlength
    simp only [newLine] at hlength
    omega

/-- A block is longer than the number of its items. -/
theorem length_others_lt_block :
    others.length < (block spell level outer first others).length := by
  have hothers := length_le_flatMap (f := fun a => ',' :: (newLine level ++ spell a))
    (fun a => List.cons_ne_nil _ _) others
  simp only [block, List.length_append, newLine, List.length_cons] at hothers ⊢
  omega

/-- What is between brackets is taken back if each item alone is. Items have to be read only if
they are shorter than the whole, which is what an induction on the length can provide. -/
theorem enclosed?_block (closing : close ≠ ',' ∧ skip (close :: rest) = close :: rest)
    (opening : ∀ rest, (skip (spell first ++ rest)).head? ≠ some close)
    (fits : (block spell level outer first others).length ≤ limit)
    (reads : ∀ a rest, (spell a).length < limit → Ends rest →
      item (newLine level ++ spell a ++ rest) = some (a, rest)) :
    enclosed? item close (block spell level outer first others ++ close :: rest) =
      some (first :: others, rest) := by
  have hbegin : (skip (block spell level outer first others ++ close :: rest)).head? ≠
      some close := by
    simp only [block, List.append_assoc, skip_newLine]
    exact opening _
  rw [enclosed?, if_neg hbegin]
  refine series?_block closing (fun a member rest => reads a rest ?_) ?_
  · exact Nat.lt_of_lt_of_le (length_lt_block member) fits
  · rw [List.length_append]
    exact Nat.lt_add_right _ length_others_lt_block

/-! ## Values -/

theorem prettyItems_eq (level : Nat) (items : List Json) :
    prettyItems level items =
      items.flatMap fun item => ',' :: (newLine level ++ pretty level item) := by
  induction items with
  | nil => rfl
  | cons item rest ih => rw [prettyItems, ih, List.flatMap_cons, List.cons_append]

/-- A member as it is printed. -/
def prettyMember (level : Nat) (member : String × Json) : List Char :=
  quoted member.1 ++ [':', ' '] ++ pretty level member.2

theorem prettyMembers_eq (level : Nat) (members : List (String × Json)) :
    prettyMembers level members =
      members.flatMap fun member => ',' :: (newLine level ++ prettyMember level member) := by
  induction members with
  | nil => rfl
  | cons member rest ih =>
    rw [prettyMembers, ih, List.flatMap_cons, List.cons_append]
    simp [prettyMember]

/-- A numeral begins with a digit or a minus. -/
theorem exists_numeral (n : Int) : ∃ c tail, (toString n).toList = c :: tail ∧
    (c = '-' ∨ c.isDigit = true) := by
  cases n with
  | ofNat n =>
    rw [toList_toString_ofNat]
    cases hdigits : Nat.toDigits 10 n with
    | nil => exact absurd hdigits Nat.toDigits_ne_nil
    | cons c tail =>
      exact ⟨c, tail, rfl, .inr (isDigit_toDigits n c (by rw [hdigits]; exact List.mem_cons_self))⟩
  | negSucc n => exact ⟨'-', _, toList_toString_negSucc n, .inl rfl⟩

/-- No value begins in print with a blank, a bracket that closes or a comma. -/
theorem exists_pretty (level : Nat) (json : Json) : ∃ c tail, pretty level json = c :: tail ∧
    c ∉ [' ', '\n', '\r', '\t', ']', '\x7d', ','] := by
  cases json with
  | null => exact ⟨_, _, rfl, by decide⟩
  | bool value => cases value <;> exact ⟨_, _, rfl, by decide⟩
  | number n =>
    obtain ⟨c, tail, htext, hc⟩ := exists_numeral n
    refine ⟨c, tail, by rw [pretty, htext], ?_⟩
    rcases hc with rfl | hdigit
    · decide
    · intro member
      simp only [List.mem_cons, List.not_mem_nil, or_false] at member
      rcases member with rfl | rfl | rfl | rfl | rfl | rfl | rfl <;> exact absurd hdigit (by decide)
  | text string => exact ⟨_, _, rfl, by decide⟩
  | array items => cases items <;> exact ⟨_, _, rfl, by decide⟩
  | object members => cases members <;> exact ⟨_, _, rfl, by decide⟩

theorem skip_pretty (level : Nat) (json : Json) :
    skip (pretty level json ++ rest) = pretty level json ++ rest := by
  obtain ⟨c, tail, htext, hc⟩ := exists_pretty level json
  rw [htext, List.cons_append, skip, List.dropWhile_cons_of_neg]
  simp only [List.mem_cons, not_or] at hc
  simp [hc]

theorem skip_margin (level : Nat) (json : Json) :
    skip (newLine level ++ pretty level json ++ rest) = pretty level json ++ rest := by
  rw [List.append_assoc, skip_newLine, skip_pretty]

/-- A reader takes back every value that is no longer than a limit in print, whatever is behind. -/
def Reads (value : Reader Json) (limit : Nat) : Prop :=
  ∀ {json : Json} {level : Nat} {cs rest : List Char}, (pretty level json).length ≤ limit →
    Ends rest → skip cs = pretty level json ++ rest → value cs = some (json, rest)

section

variable {string : String} {n : Int} {depth : Nat} {cs : List Char} {value : Reader Json}

theorem value?_keyword {word : List Char} {json : Json} (member : (word, json) ∈ keywords)
    (h : skip cs = word ++ rest) : value? (depth + 1) cs = some (json, rest) := by
  simp only [keywords, List.mem_cons, List.not_mem_nil, or_false, Prod.mk.injEq] at member
  rcases member with ⟨rfl, rfl⟩ | ⟨rfl, rfl⟩ | ⟨rfl, rfl⟩ <;> rw [value?, h] <;> rfl

theorem value?_number (ends : Ends rest) (h : skip cs = (toString n).toList ++ rest) :
    value? (depth + 1) cs = some (.number n, rest) := by
  have hnumber := number?_toString n ends
  obtain ⟨c, tail, htext, hc⟩ := exists_numeral n
  rw [htext, List.cons_append] at h hnumber
  have hother : c ∉ ['"', '[', '\x7b', 'n', 't', 'f'] := by
    intro member
    simp only [List.mem_cons, List.not_mem_nil, or_false] at member
    rcases member with rfl | rfl | rfl | rfl | rfl | rfl <;> revert hc <;> decide
  simp only [List.mem_cons, List.not_mem_nil, or_false, not_or] at hother
  have hkeyword : keyword? (c :: (tail ++ rest)) = none := by
    simp [keyword?, keywords, hother, Ne.symm]
  rw [value?, h]
  simp [hkeyword, hnumber, hother]

theorem value?_text (h : skip cs = quoted string ++ rest) :
    value? (depth + 1) cs = some (.text string, rest) := by
  rw [quoted, List.cons_append, List.append_assoc, List.singleton_append] at h
  rw [value?, h]
  simp [string?_escaped]

theorem value?_array {items : List Json} (reads : Reads (value? depth) depth)
    (fits : (pretty level (array items)).length ≤ depth + 1)
    (h : skip cs = pretty level (array items) ++ rest) :
    value? (depth + 1) cs = some (.array items, rest) := by
  cases items with
  | nil =>
    rw [value?, h]
    rfl
  | cons first others =>
    have htext : pretty level (array (first :: others)) =
        '[' :: (block (pretty (level + 1)) (level + 1) level first others ++ [']']) := by
      simp [pretty, prettyItems_eq, block]
    rw [htext, List.length_cons, List.length_append, List.length_singleton] at fits
    rw [htext, List.cons_append, List.append_assoc, List.singleton_append] at h
    have hopening (rest : List Char) :
        (skip (pretty (level + 1) first ++ rest)).head? ≠ some ']' := by
      obtain ⟨c, tail, hfirst, hc⟩ := exists_pretty (level + 1) first
      rw [skip_pretty, hfirst]
      rintro ⟨⟩
      exact absurd hc (by decide)
    have hitems : enclosed? (value? depth) ']'
        (block (pretty (level + 1)) (level + 1) level first others ++ ']' :: rest) =
        some (first :: others, rest) :=
      enclosed?_block ⟨by decide, rfl⟩ hopening (Nat.le_refl _)
        fun item rest shorter ends => reads (by omega) ends (skip_margin (level + 1) item)
    rw [value?, h]
    simp [hitems]

/-- A member is taken back if its value is. -/
theorem member?_pretty {member : String × Json} (reads : Reads value depth)
    (fits : (prettyMember level member).length < depth) (ends : Ends rest) :
    member? value (newLine level ++ prettyMember level member ++ rest) = some (member, rest) := by
  obtain ⟨name, json⟩ := member
  have htext : skip (newLine level ++ prettyMember level (name, json) ++ rest) =
      '"' :: (name.toList.flatMap escape ++ '"' :: ':' :: ' ' :: (pretty level json ++ rest)) := by
    rw [List.append_assoc, skip_newLine]
    simp [prettyMember, quoted, skip]
  have hcolon : skip (':' :: ' ' :: (pretty level json ++ rest)) =
      ':' :: ' ' :: (pretty level json ++ rest) := rfl
  simp only [prettyMember, List.length_append] at fits
  have hvalue : value (' ' :: (pretty level json ++ rest)) = some (json, rest) :=
    reads (by omega) ends (skip_pretty level json)
  rw [member?, htext]
  simp [string?_escaped, hcolon, hvalue]

theorem value?_object {members : List (String × Json)} (reads : Reads (value? depth) depth)
    (fits : (pretty level (object members)).length ≤ depth + 1)
    (h : skip cs = pretty level (object members) ++ rest) :
    value? (depth + 1) cs = some (.object members, rest) := by
  cases members with
  | nil =>
    rw [value?, h]
    rfl
  | cons first others =>
    have htext : pretty level (object (first :: others)) = '\x7b' ::
        (block (prettyMember (level + 1)) (level + 1) level first others ++ ['\x7d']) := by
      simp [pretty, prettyMembers_eq, prettyMember, block]
    rw [htext, List.length_cons, List.length_append, List.length_singleton] at fits
    rw [htext, List.cons_append, List.append_assoc, List.singleton_append] at h
    have hopening (rest : List Char) :
        (skip (prettyMember (level + 1) first ++ rest)).head? ≠ some '\x7d' := by
      rintro ⟨⟩
    have hmembers : enclosed? (member? (value? depth)) '\x7d'
        (block (prettyMember (level + 1)) (level + 1) level first others ++ '\x7d' :: rest) =
        some (first :: others, rest) :=
      enclosed?_block ⟨by decide, rfl⟩ hopening (Nat.le_refl _)
        fun member rest shorter ends => member?_pretty reads (by omega) ends
    rw [value?, h]
    simp [hmembers]

end

/-- The induction is on the depth that is left, which an array or an object spends on its opening
bracket. -/
theorem reads_value? (depth : Nat) : Reads (value? depth) depth := by
  induction depth with
  | zero =>
    intro json level cs rest fits ends h
    obtain ⟨c, tail, htext, -⟩ := exists_pretty level json
    simp [htext] at fits
  | succ depth ih =>
    intro json level cs rest fits ends h
    cases json with
    | null =>
      have hword : ("null".toList, null) ∈ keywords := by simp [keywords]
      exact value?_keyword hword h
    | bool value =>
      have hword : ((if value then "true".toList else "false".toList), bool value) ∈ keywords := by
        cases value <;> simp [keywords]
      exact value?_keyword hword h
    | number n => exact value?_number ends h
    | text string => exact value?_text h
    | array items => exact value?_array ih fits h
    | object members => exact value?_object ih fits h

/-- Every value is read back from its pretty form. -/
theorem decode_toPretty (json : Json) : decode json.toPretty = some json := by
  have hvalue : value? ((pretty 0 json).length + 1) (pretty 0 json ++ []) = some (json, []) :=
    reads_value? _ (Nat.le_succ _) nofun (skip_pretty 0 json)
  rw [List.append_nil] at hvalue
  simp [decode, toPretty, hvalue, skip]

end SgxActivation.Json
