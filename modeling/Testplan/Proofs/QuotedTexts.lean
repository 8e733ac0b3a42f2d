import Mathlib.Tactic.SplitIfs
import Testplan.Proofs.IdentifierText
import Testplan.Rendering
/-!
# Quoted texts read back

A text gets between double quotes in two ways.  In selectors of style sheets and in Gherkin
steps a backslash is put before every quote and every backslash; in generated code the text is a
JSON literal, where controls are written in other characters as well.

A quoted text is read from its opening quote to the first quote that is not escaped, and what
follows is left over.  Both ways of writing are undone by it, whatever the text holds and whatever
follows (`Text.escapedAt?_quote`, `Text.literalAt?_jsonLiteral`).
-/
namespace Testplan.Text

/-! ## Backslashes -/

/-- A backslash before every quote and every backslash. -/
def escape (cs : List Char) : List Char :=
  cs.flatMap fun c => if c = '\\' ∨ c = '"' then ['\\', c] else [c]

/-- A text up to the first quote without a backslash before it, and what follows the quote; a
backslash goes and leaves the character behind it. -/
def unescape? : List Char → Option (List Char × List Char)
  | [] => none
  | '"' :: rest => some ([], rest)
  | '\\' :: c :: rest => (unescape? rest).map fun (t, after) => (c :: t, after)
  | c :: rest => (unescape? rest).map fun (t, after) => (c :: t, after)

/-- **A text that was escaped and put between quotes**, from the opening quote on. -/
def escapedAt? : List Char → Option (List Char × List Char)
  | '"' :: rest => unescape? rest
  | _ => none

theorem unescape?_escape (cs rest : List Char) :
    unescape? (escape cs ++ '"' :: rest) = some (cs, rest) := by
  induction cs with
  | nil => rfl
  | cons c cs ih =>
    have hcons : escape (c :: cs) = (if c = '\\' ∨ c = '"' then ['\\', c] else [c]) ++ escape cs :=
      List.flatMap_cons
    rw [hcons, List.append_assoc]
    by_cases hc : c = '\\' ∨ c = '"'
    · rw [if_pos hc]
      simp [unescape?, ih]
    · obtain ⟨hslash, hquote⟩ := not_or.mp hc
      rw [if_neg hc]
      simp [unescape?, hslash, ih]

/-- A text between quotes, with backslashes. -/
def quote (s : String) : String := "\"" ++ String.ofList (escape s.toList) ++ "\""

/-- **A text between quotes is read as it is written**, whatever follows it. -/
theorem escapedAt?_quote (s : String) (rest : List Char) :
    escapedAt? ((quote s).toList ++ rest) = some (s.toList, rest) := by
  simpa [quote, escapedAt?] using unescape?_escape s.toList rest

/-! ## JSON literals -/

/-- The character that a backslash and a letter stand for. -/
def shortForm? : Char → Option Char
  | '"' => some '"'
  | '\\' => some '\\'
  | '/' => some '/'
  | 'b' => some '\x08'
  | 'f' => some '\x0c'
  | 'n' => some '\n'
  | 'r' => some '\r'
  | 't' => some '\t'
  | _ => none

/-- The character with a code point that is written in hexadecimal digits. -/
def codePoint? (digits : List Char) : Option Char :=
  (Uuid.ofDigits? digits).bind fun n => if n.isValidChar then some (Char.ofNat n) else none

/-- The text of a literal up to its closing quote, and what follows the quote.  No control stands
in a literal as it is, and pairs of surrogates are not read. -/
def unliteral? : List Char → Option (List Char × List Char)
  | [] => none
  | '"' :: rest => some ([], rest)
  | '\\' :: 'u' :: a :: b :: c :: d :: rest =>
    (codePoint? [a, b, c, d]).bind fun char =>
      (unliteral? rest).map fun (t, after) => (char :: t, after)
  | '\\' :: letter :: rest =>
    (shortForm? letter).bind fun char =>
      (unliteral? rest).map fun (t, after) => (char :: t, after)
  | c :: rest =>
    if c.toNat < 0x20 then none else (unliteral? rest).map fun (t, after) => (c :: t, after)

/-- **A JSON literal**, from the opening quote on. -/
def literalAt? : List Char → Option (List Char × List Char)
  | '"' :: rest => unliteral? rest
  | _ => none

theorem hexFour_eq_digits : ∀ n < 0x20, hexFour n = Uuid.digits 4 n := by decide

theorem unliteral?_codePoint {c : Char} (hc : c.toNat < 0x20) (rest : List Char) :
    unliteral? ('\\' :: 'u' :: (hexFour c.toNat ++ rest)) =
      (unliteral? rest).map fun (t, after) => (c :: t, after) := by
  obtain ⟨a, b, d, e, hdigits⟩ : ∃ a b d e, Uuid.digits 4 c.toNat = [a, b, d, e] :=
    ⟨_, _, _, _, rfl⟩
  have hcode : codePoint? [a, b, d, e] = some c := by
    have hvalid : c.toNat.isValidChar := c.valid
    rw [codePoint?, ← hdigits, Uuid.ofDigits?_digits (by omega), Option.bind_some,
      if_pos hvalid, Char.ofNat_toNat]
  rw [hexFour_eq_digits _ hc, hdigits]
  simp [unliteral?, hcode]

theorem unliteral?_shortForm {letter c : Char} (h : shortForm? letter = some c)
    (rest : List Char) : unliteral? ('\\' :: letter :: rest) =
      (unliteral? rest).map fun (t, after) => (c :: t, after) := by
  have hu : letter ≠ 'u' := by
    rintro rfl
    cases h
  simp [unliteral?, hu, h]

/-- **The three sorts of characters in a literal**: those with a short form, other controls, and
those that stand as they are. -/
theorem jsonChar_cases (c : Char) :
    (∃ letter, jsonChar c = ['\\', letter] ∧ shortForm? letter = some c) ∨
    (c.toNat < 0x20 ∧ jsonChar c = '\\' :: 'u' :: hexFour c.toNat) ∨
    (c ≠ '"' ∧ c ≠ '\\' ∧ ¬ c.toNat < 0x20 ∧ jsonChar c = [c]) := by
  unfold jsonChar
  split_ifs with h h h h h h h hlow
  iterate 7 exact .inl ⟨_, rfl, by subst h; rfl⟩
  · exact .inr (.inl ⟨hlow, rfl⟩)
  · exact .inr (.inr ⟨‹_›, ‹_›, hlow, rfl⟩)

theorem unliteral?_jsonChar (c : Char) (rest : List Char) :
    unliteral? (jsonChar c ++ rest) =
      (unliteral? rest).map fun (t, after) => (c :: t, after) := by
  obtain ⟨letter, hchar, hshort⟩ | ⟨hlow, hchar⟩ | ⟨hquote, hslash, hhigh, hchar⟩ :=
    jsonChar_cases c
  · rw [hchar]
    exact unliteral?_shortForm hshort rest
  · rw [hchar]
    exact unliteral?_codePoint hlow rest
  · rw [hchar]
    simp [unliteral?, hslash, hhigh]

theorem unliteral?_jsonChars (cs rest : List Char) :
    unliteral? (cs.flatMap jsonChar ++ '"' :: rest) = some (cs, rest) := by
  induction cs with
  | nil => rfl
  | cons c cs ih => rw [List.flatMap_cons, List.append_assoc, unliteral?_jsonChar, ih]; rfl

/-- **A literal is read as it is written**, whatever follows it. -/
theorem literalAt?_jsonLiteral (s : String) (rest : List Char) :
    literalAt? ((jsonLiteral s).toList ++ rest) = some (s.toList, rest) := by
  rw [jsonLiteral, String.toList_ofList, List.append_assoc]
  exact unliteral?_jsonChars s.toList rest

end Testplan.Text
