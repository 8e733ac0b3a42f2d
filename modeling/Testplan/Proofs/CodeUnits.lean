import Testplan.Proofs.QuotedTexts
/-!
# Texts of code units

The language of the generated projects holds a text as a list of code units of 16 bits.  A
character below 2¹⁶ is one unit, any other a pair of surrogates.  Positions in a text and the
parts that are cut out of it are counted in units, while a text that is put between quotes is
read character by character again.

Nothing is lost by that: the code points of the units of a text are its characters
(`CodeUnits.codePoints_ofText`), so texts with the same units are the same.  A cut at a
character finds the parts before and behind it (`CodeUnits.indexOf_cut`,
`CodeUnits.slice_before`, `CodeUnits.slice_behind`), and a text between quotes is written as
the literal that a plan's text becomes in generated code (`CodeUnits.stringify_ofText`).
-/
namespace Testplan

/-- A text as the language of the generated projects holds it. -/
abbrev CodeUnits := List UInt16

namespace CodeUnits

/-! ## Units and code points -/

/-- The units of a code point. -/
def ofCodePoint (p : Nat) : CodeUnits :=
  if p < 0x10000 then [UInt16.ofNat p]
  else
    [UInt16.ofNat (0xD800 + (p - 0x10000) / 0x400), UInt16.ofNat (0xDC00 + (p - 0x10000) % 0x400)]

def ofChars (cs : List Char) : CodeUnits := cs.flatMap fun c => ofCodePoint c.toNat

/-- The units of a text. -/
def ofText (s : String) : CodeUnits := ofChars s.toList

/-- The unit begins a pair. -/
def IsLeading (u : UInt16) : Prop := 0xD800 ≤ u.toNat ∧ u.toNat < 0xDC00

instance (u : UInt16) : Decidable (IsLeading u) := inferInstanceAs (Decidable (_ ∧ _))

/-- The unit ends a pair. -/
def IsTrailing (u : UInt16) : Prop := 0xDC00 ≤ u.toNat ∧ u.toNat < 0xE000

instance (u : UInt16) : Decidable (IsTrailing u) := inferInstanceAs (Decidable (_ ∧ _))

/-- **The code points of units.**  A unit that is not part of a pair stands for itself. -/
def codePoints : CodeUnits → List Nat
  | [] => []
  | [u] => [u.toNat]
  | u :: v :: rest =>
    if IsLeading u ∧ IsTrailing v then
      (0x10000 + (u.toNat - 0xD800) * 0x400 + (v.toNat - 0xDC00)) :: codePoints rest
    else u.toNat :: codePoints (v :: rest)

theorem ofText_append (s t : String) : ofText (s ++ t) = ofText s ++ ofText t := by
  rw [ofText, String.toList_append, ofChars, List.flatMap_append]
  rfl

theorem ofChars_cons (c : Char) (cs : List Char) :
    ofChars (c :: cs) = ofCodePoint c.toNat ++ ofChars cs := rfl

theorem ofChars_append (cs ds : List Char) : ofChars (cs ++ ds) = ofChars cs ++ ofChars ds :=
  List.flatMap_append

/-- Surrogates are no characters. -/
theorem char_cases (c : Char) :
    c.toNat < 0xD800 ∨ 0xE000 ≤ c.toNat ∧ c.toNat < 0x110000 := by
  have h : c.toNat.isValidChar := c.valid
  unfold Nat.isValidChar at h
  omega

theorem codePoints_single {u : UInt16} (h : ¬ IsLeading u) (rest : CodeUnits) :
    codePoints (u :: rest) = u.toNat :: codePoints rest := by
  cases rest with
  | nil => rfl
  | cons v rest => rw [codePoints, if_neg fun hpair => h hpair.1]

/-- A character is read back from its units, whatever follows them. -/
theorem codePoints_char (c : Char) (rest : CodeUnits) :
    codePoints (ofCodePoint c.toNat ++ rest) = c.toNat :: codePoints rest := by
  have hc := char_cases c
  unfold ofCodePoint
  split
  · next hsmall =>
    have hunit : (UInt16.ofNat c.toNat).toNat = c.toNat := UInt16.toNat_ofNat_of_lt hsmall
    have hsingle : ¬ IsLeading (UInt16.ofNat c.toNat) := by
      rw [IsLeading, hunit]
      omega
    rw [List.singleton_append, codePoints_single hsingle, hunit]
  · next hlarge =>
    have hhigh : (UInt16.ofNat (0xD800 + (c.toNat - 0x10000) / 0x400)).toNat =
        0xD800 + (c.toNat - 0x10000) / 0x400 :=
      UInt16.toNat_ofNat_of_lt (by rw [UInt16.size]; omega)
    have hlow : (UInt16.ofNat (0xDC00 + (c.toNat - 0x10000) % 0x400)).toNat =
        0xDC00 + (c.toNat - 0x10000) % 0x400 :=
      UInt16.toNat_ofNat_of_lt (by rw [UInt16.size]; omega)
    have hpair : IsLeading (UInt16.ofNat (0xD800 + (c.toNat - 0x10000) / 0x400)) ∧
        IsTrailing (UInt16.ofNat (0xDC00 + (c.toNat - 0x10000) % 0x400)) := by
      unfold IsLeading IsTrailing
      omega
    have hvalue : 0x10000 + (0xD800 + (c.toNat - 0x10000) / 0x400 - 0xD800) * 0x400 +
        (0xDC00 + (c.toNat - 0x10000) % 0x400 - 0xDC00) = c.toNat := by omega
    rw [List.cons_append, List.singleton_append, codePoints, if_pos hpair, hhigh, hlow, hvalue]

theorem codePoints_ofChars (cs : List Char) : codePoints (ofChars cs) = cs.map Char.toNat := by
  induction cs with
  | nil => rfl
  | cons c cs ih => rw [ofChars_cons, codePoints_char, ih, List.map_cons]

/-- **The code points of a text are its characters.** -/
theorem codePoints_ofText (s : String) : codePoints (ofText s) = s.toList.map Char.toNat :=
  codePoints_ofChars s.toList

theorem ofText_inj {s t : String} : ofText s = ofText t ↔ s = t := by
  constructor
  · intro h
    have hpoints := congrArg codePoints h
    rw [codePoints_ofText, codePoints_ofText] at hpoints
    exact String.toList_inj.mp
      (List.map_inj_right (fun _ _ => Char.toNat_inj.mp) |>.mp hpoints)
  · exact congrArg ofText

/-! ## Cutting -/

/-- Where a piece first stands in a text, or -1. -/
def indexOf (piece : CodeUnits) : CodeUnits → Int
  | [] => if piece = [] then 0 else -1
  | u :: rest =>
    if piece.isPrefixOf (u :: rest) then 0
    else if indexOf piece rest < 0 then -1 else indexOf piece rest + 1

/-- A position in a text of `length` units: those below zero count from the end. -/
def position (length : Nat) (i : Int) : Nat :=
  if i < 0 then (length + i).toNat else min i.toNat length

/-- The units from one position to another, or to the end. -/
def slice (s : CodeUnits) (start : Int) (stop : Option Int) : CodeUnits :=
  (s.take (position s.length (stop.getD s.length))).drop (position s.length start)

theorem indexOf_cut {u : UInt16} {before after : CodeUnits} (h : u ∉ before) :
    indexOf [u] (before ++ u :: after) = before.length := by
  induction before with
  | nil => simp [indexOf]
  | cons v before ih =>
    obtain ⟨hhead, hrest⟩ := not_or.mp (mt List.mem_cons.mpr h)
    have hstart : [u].isPrefixOf (v :: (before ++ u :: after)) = false := by
      simp [List.isPrefixOf, hhead]
    rw [List.cons_append, indexOf, hstart, if_neg Bool.false_ne_true, ih hrest,
      if_neg (by omega), List.length_cons, Int.natCast_add, Int.natCast_one]

theorem slice_before (before after : CodeUnits) :
    slice (before ++ after) 0 (some before.length) = before := by
  have hstop : position (before ++ after).length before.length = before.length := by
    rw [position, if_neg (by omega), List.length_append]
    omega
  rw [slice, Option.getD_some, hstop, List.take_left, position, if_neg (by omega)]
  rfl

theorem slice_behind (before after : CodeUnits) (u : UInt16) :
    slice (before ++ u :: after) (before.length + 1) none = after := by
  have hstart : position (before ++ u :: after).length (before.length + 1) =
      before.length + 1 := by
    rw [position, if_neg (by omega), List.length_append, List.length_cons]
    omega
  rw [slice, hstart, Option.getD_none, position, if_neg (by omega), Int.toNat_natCast,
    Nat.min_self, List.take_length, ← List.drop_drop, List.drop_left]
  rfl

/-! ## Quoting -/

/-- The characters with a short form between quotes, and the letters of the short forms. -/
def shortForms : List (Char × Char) :=
  [('"', '"'), ('\\', '\\'), ('\x08', 'b'), ('\t', 't'), ('\n', 'n'), ('\x0c', 'f'), ('\r', 'r')]

/-- A code point between quotes.  Controls without a short form and surrogates without their
other half are written as numbers. -/
def quoteCodePoint (p : Nat) : CodeUnits :=
  match shortForms.find? fun form => form.1.toNat = p with
  | some form => ofChars ['\\', form.2]
  | none =>
    if p < 0x20 ∨ 0xD800 ≤ p ∧ p < 0xE000 then ofChars (['\\', 'u'] ++ Text.hexFour p)
    else ofCodePoint p

/-- **A text between quotes**, as the language of the generated projects writes it. -/
def stringify (s : CodeUnits) : CodeUnits :=
  ofChars ['"'] ++ (codePoints s).flatMap quoteCodePoint ++ ofChars ['"']

/-- A character stands between quotes as it does in a literal. -/
theorem quoteCodePoint_char (c : Char) : quoteCodePoint c.toNat = ofChars (Text.jsonChar c) := by
  cases hform : shortForms.find? fun form => form.1.toNat = c.toNat with
  | some form =>
    have hc : form.1 = c := Char.toNat_inj.mp (by simpa using List.find?_some hform)
    have hshort : ∀ form ∈ shortForms, Text.jsonChar form.1 = ['\\', form.2] := by decide
    rw [quoteCodePoint, hform, ← hc, hshort form (List.mem_of_find?_eq_some hform)]
  | none =>
    have hne : ∀ form ∈ shortForms, c ≠ form.1 := by
      rintro form hmem rfl
      simpa using List.find?_eq_none.mp hform form hmem
    simp only [shortForms, List.forall_mem_cons] at hne
    obtain ⟨hquote, hslash, hb, ht, hn, hf, hr, -⟩ := hne
    have hsurrogate : ¬ (0xD800 ≤ c.toNat ∧ c.toNat < 0xE000) := by
      have := char_cases c
      omega
    rw [quoteCodePoint, hform, Text.jsonChar, if_neg hquote, if_neg hslash, if_neg hb, if_neg ht,
      if_neg hn, if_neg hf, if_neg hr]
    by_cases hlow : c.toNat < 0x20
    · rw [if_pos hlow]
      exact if_pos (.inl hlow)
    · rw [if_neg hlow]
      exact (if_neg (not_or.mpr ⟨hlow, hsurrogate⟩)).trans (List.append_nil _).symm

/-- **A text between quotes is the literal of generated code.** -/
theorem stringify_ofText (s : String) : stringify (ofText s) = ofText (literal s) := by
  have hchars (cs : List Char) :
      (cs.map Char.toNat).flatMap quoteCodePoint = ofChars (cs.flatMap Text.jsonChar) := by
    rw [List.flatMap_map, ofChars, List.flatMap_assoc]
    exact congrArg cs.flatMap (funext quoteCodePoint_char)
  rw [stringify, codePoints_ofText, hchars, ← ofChars_append, ← ofChars_append, ofText, literal,
    Text.jsonLiteral, String.toList_ofList]
  rfl

end CodeUnits

end Testplan
