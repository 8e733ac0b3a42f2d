import Mathlib.Data.List.Infix
import Testplan.Placeholder
/-!
# Placeholders in texts

A text **mentions** a name if `${NAME}` stands somewhere in it.  Cutting a template into
pieces finds exactly the names that it mentions (`named_mem_pieces_iff`), although it goes from
left to right and never back: placeholders do not overlap, since each has one dollar sign, in
front, and one closing brace, at the end.

A template is replaced piece by piece.  So the result mentions a name in one of two ways: one
of the replaced texts does, or the placeholder is **composed** of texts that follow one
another (`mentions_flatten_iff`).
-/
namespace Testplan.Placeholder

/-! ## Names in placeholders -/

/-- The characters of a name, of which there is at least one. -/
structure IsName (name : List Char) : Prop where
  ne_nil : name ≠ []
  chars : ∀ c ∈ name, isNameChar c

/-- A name as a placeholder. -/
def written (name : List Char) : List Char := '$' :: '\x7b' :: (name ++ ['\x7d'])

/-- **A text mentions a name** if the placeholder of the name stands in it. -/
def Mentions (text : List Char) (name : List Char) : Prop :=
  IsName name ∧ written name <:+: text

/-- A text without placeholders. -/
def Free (text : List Char) : Prop := ∀ name, ¬ Mentions text name

theorem IsName.notMem {name : List Char} (h : IsName name) {c : Char}
    (hc : isNameChar c = false) : c ∉ name := by
  intro hmem
  rw [h.chars c hmem] at hc
  cases hc

theorem Mentions.length_lt {text name : List Char} (h : Mentions text name) : 3 < text.length := by
  have hlen := h.2.length_le
  have hname := List.length_pos_of_ne_nil h.1.ne_nil
  simp only [written, List.length_cons, List.length_append, List.length_nil] at hlen
  omega

theorem Mentions.dollar_mem {text name : List Char} (h : Mentions text name) : '$' ∈ text :=
  h.2.subset List.mem_cons_self

theorem free_of_notMem {text : List Char} (h : '$' ∉ text) : Free text :=
  fun _ hname => h hname.dollar_mem

/-- A name ends at the brace. -/
theorem closing?_eq_some_iff {cs rest : List Char} {name : String} :
    closing? cs = some (name, rest) ↔
      IsName name.toList ∧ cs = name.toList ++ '\x7d' :: rest := by
  unfold closing?
  constructor
  · intro h
    split at h
    · cases h
    · next hne =>
      split at h
      · next tail hdrop =>
        cases h
        rw [String.toList_ofList]
        refine ⟨⟨by simpa using hne, List.all_eq_true.mp List.all_takeWhile⟩, ?_⟩
        rw [← hdrop, List.takeWhile_append_dropWhile]
      · cases h
  · rintro ⟨hname, rfl⟩
    have hbrace : ¬ isNameChar '\x7d' = true := by decide
    have htake : (name.toList ++ '\x7d' :: rest).takeWhile isNameChar = name.toList := by
      rw [List.takeWhile_append_of_pos hname.chars, List.takeWhile_cons_of_neg hbrace,
        List.append_nil]
    have hdrop : (name.toList ++ '\x7d' :: rest).dropWhile isNameChar = '\x7d' :: rest := by
      rw [List.dropWhile_append_of_pos hname.chars, List.dropWhile_cons_of_neg hbrace]
    rw [htake, hdrop, if_neg (by simpa using hname.ne_nil)]
    simp

theorem written_prefix_iff {cs name : List Char} :
    written name <+: '$' :: '\x7b' :: cs ↔ ∃ rest, cs = name ++ '\x7d' :: rest := by
  rw [written, List.prefix_cons_inj, List.prefix_cons_inj]
  constructor
  · rintro ⟨rest, h⟩
    exact ⟨rest, by rw [← h]; simp⟩
  · rintro ⟨rest, rfl⟩
    exact ⟨rest, by simp⟩

/-- A placeholder does not start before the next dollar sign. -/
theorem written_infix_skip {name skip cs : List Char} (h : '$' ∉ skip) :
    written name <:+: skip ++ cs ↔ written name <:+: cs := by
  induction skip with
  | nil => rfl
  | cons c skip ih =>
    obtain ⟨hc, hskip⟩ : '$' ≠ c ∧ '$' ∉ skip := by simpa using h
    rw [List.cons_append, List.infix_cons_iff, ih hskip]
    refine or_iff_right fun hpre => ?_
    exact hc (List.cons_prefix_cons.mp hpre).1

theorem pieces_of_closing? {cs rest : List Char} {name : String}
    (h : closing? cs = some (name, rest)) :
    pieces ('$' :: '\x7b' :: cs) = .named name :: pieces rest := by
  rw [pieces]
  split
  · next heq =>
    rw [h] at heq
    cases heq
    rfl
  · next heq =>
    rw [h] at heq
    cases heq

theorem pieces_of_not_closing? {cs : List Char} (h : closing? cs = none) :
    pieces ('$' :: '\x7b' :: cs) = .char '$' :: pieces ('\x7b' :: cs) := by
  rw [pieces]
  split
  · next heq =>
    rw [h] at heq
    cases heq
  · rfl

/-- **The pieces of a template name what it mentions.** -/
theorem named_mem_pieces_iff {cs : List Char} {name : String} :
    .named name ∈ pieces cs ↔ Mentions cs name.toList := by
  have hnone (c : Char) : ¬ Piece.named name = .char c := fun h => by cases h
  induction cs using pieces.induct with
  | case1 => simp [pieces, Mentions, written]
  | case2 cs found rest h ih =>
    obtain ⟨hfound, rfl⟩ := closing?_eq_some_iff.mp h
    -- inside the placeholder that was found, no other one starts
    have hskip : '$' ∉ '\x7b' :: (found.toList ++ ['\x7d']) := by
      have hnot := hfound.notMem (c := '$') (by decide)
      simp [hnot]
    have hrest : '\x7b' :: (found.toList ++ '\x7d' :: rest) =
        '\x7b' :: (found.toList ++ ['\x7d']) ++ rest := by simp
    rw [pieces_of_closing? h, List.mem_cons, Piece.named.injEq, Mentions, List.infix_cons_iff,
      written_prefix_iff, hrest, written_infix_skip hskip]
    constructor
    · rintro (rfl | hmem)
      · exact ⟨hfound, .inl ⟨rest, rfl⟩⟩
      · obtain ⟨hname, hin⟩ := ih.mp hmem
        exact ⟨hname, .inr hin⟩
    · rintro ⟨hname, ⟨other, heq⟩ | hin⟩
      · have hsame := h.symm.trans (closing?_eq_some_iff.mpr ⟨hname, heq⟩)
        exact .inl (congrArg Prod.fst (Option.some.inj hsame)).symm
      · exact .inr (ih.mpr ⟨hname, hin⟩)
  | case3 cs h ih =>
    rw [pieces_of_not_closing? h, List.mem_cons, or_iff_right (hnone '$')]
    refine ih.trans (and_congr_right fun hname => ?_)
    have hhead : ¬ written name.toList <+: '$' :: '\x7b' :: cs := by
      rw [written_prefix_iff]
      rintro ⟨rest, rfl⟩
      rw [closing?_eq_some_iff.mpr ⟨hname, rfl⟩] at h
      cases h
    exact (or_iff_right hhead).symm.trans List.infix_cons_iff.symm
  | case4 c cs hnot ih =>
    have hpieces : pieces (c :: cs) = .char c :: pieces cs := by
      rw [pieces]
      exact hnot
    rw [hpieces, List.mem_cons, or_iff_right (hnone c)]
    refine ih.trans (and_congr_right fun hname => ?_)
    have hhead : ¬ written name.toList <+: c :: cs := by
      rintro ⟨rest, heq⟩
      obtain ⟨hc, hcs⟩ := List.cons_eq_cons.mp heq
      exact hnot _ hc.symm hcs.symm
    exact (or_iff_right hhead).symm.trans List.infix_cons_iff.symm

/-! ## What the pieces stand for -/

/-- The text that a piece was cut from. -/
def Piece.text : Piece → List Char
  | .char c => [c]
  | .named name => written name.toList

/-- Cutting a template loses nothing. -/
theorem flatMap_text_pieces (cs : List Char) : (pieces cs).flatMap Piece.text = cs := by
  induction cs using pieces.induct with
  | case1 => simp [pieces]
  | case2 cs found rest h ih =>
    obtain ⟨-, hcs⟩ := closing?_eq_some_iff.mp h
    rw [pieces_of_closing? h, List.flatMap_cons, ih, hcs]
    simp [Piece.text, written]
  | case3 cs h ih =>
    rw [pieces_of_not_closing? h, List.flatMap_cons, ih]
    rfl
  | case4 c cs hnot ih =>
    rw [pieces, List.flatMap_cons, ih]
    · rfl
    · exact hnot

/-- A text without placeholders is cut into its characters. -/
theorem Free.pieces_eq {cs : List Char} (h : Free cs) : pieces cs = cs.map .char := by
  have hchars : ∀ piece ∈ pieces cs, ∃ c, piece = .char c := by
    intro piece hmem
    cases piece with
    | char c => exact ⟨c, rfl⟩
    | named name => exact absurd (named_mem_pieces_iff.mp hmem) (h name.toList)
  have hmap (ps : List Piece) (hps : ∀ piece ∈ ps, ∃ c, piece = .char c) :
      (ps.flatMap Piece.text).map .char = ps := by
    induction ps with
    | nil => rfl
    | cons piece ps ih =>
      obtain ⟨⟨c, rfl⟩, hrest⟩ := List.forall_mem_cons.mp hps
      rw [List.flatMap_cons, List.map_append, ih hrest]
      rfl
  rw [← hmap (pieces cs) hchars, flatMap_text_pieces]

/-! ## Placeholders in texts that are put together -/

/-- **A placeholder that is composed**: it begins in one text and ends in a later one. -/
def Composed (parts : List (List Char)) (name : List Char) : Prop :=
  IsName name ∧ ∃ before after first second, parts = before ++ after ∧
    first ≠ [] ∧ second ≠ [] ∧ written name = first ++ second ∧
    first <:+ before.flatten ∧ second <+: after.flatten

theorem Composed.cons {parts : List (List Char)} {name : List Char} (h : Composed parts name)
    (part : List Char) : Composed (part :: parts) name := by
  obtain ⟨hname, before, after, first, second, rfl, hfirst, hsecond, hw, hbefore, hafter⟩ := h
  refine ⟨hname, part :: before, after, first, second, rfl, hfirst, hsecond, hw, ?_, hafter⟩
  exact hbefore.trans (List.suffix_append part before.flatten)

/-- **Where the placeholders of a composed text come from.** -/
theorem mentions_flatten_iff {parts : List (List Char)} {name : List Char} :
    Mentions parts.flatten name ↔
      (∃ part ∈ parts, Mentions part name) ∨ Composed parts name := by
  constructor
  · rintro ⟨hname, hin⟩
    induction parts with
    | nil =>
      have hnil : written name = [] := List.infix_nil.mp hin
      exact absurd hnil (by simp [written])
    | cons part parts ih =>
      rw [List.flatten_cons] at hin
      rcases List.infix_append_iff_ne_nil.mp hin with
        hin | hin | ⟨first, second, hfirst, hsecond, hw, hx, hy⟩
      · exact .inl ⟨part, List.mem_cons_self, hname, hin⟩
      · rcases ih hin with ⟨other, hother, hmentions⟩ | hcomposed
        · exact .inl ⟨other, List.mem_cons_of_mem _ hother, hmentions⟩
        · exact .inr (hcomposed.cons part)
      · refine .inr ⟨hname, [part], parts, first, second, rfl, hfirst, hsecond, hw, ?_, hy⟩
        simpa using hx
  · rintro (⟨part, hpart, hname, hin⟩ |
      ⟨hname, before, after, first, second, rfl, hfirst, hsecond, hw, hbefore, hafter⟩)
    · exact ⟨hname, hin.trans (List.infix_of_mem_flatten hpart)⟩
    · refine ⟨hname, ?_⟩
      rw [List.flatten_append]
      exact List.infix_append_iff_ne_nil.mpr
        (.inr (.inr ⟨first, second, hfirst, hsecond, hw, hbefore, hafter⟩))

end Testplan.Placeholder
