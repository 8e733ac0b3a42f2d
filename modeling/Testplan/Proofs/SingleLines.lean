import Testplan.Framework
import Testplan.Proofs.TextsAndLists
/-!
# Texts of one line

Free text enters generated code as a literal, as the argument of a Gherkin step or with its
blanks squeezed.  None of these holds a line break (`Text.unbroken_jsonLiteral`,
`Cucumber.unbroken_argument`, `Text.unbroken_oneLine`), so whatever a scenario says, an action
is written on a line of its own in every framework.

Lines without line breaks are cut out of the text that they make (`linesIn_ofLines`), and each
line break in them makes one more line (`length_linesIn_ofLines`).
-/
namespace Testplan

namespace Text

/-- A text without line breaks. -/
def Unbroken (s : String) : Prop := '\n' ∉ s.toList

instance (s : String) : Decidable (Unbroken s) :=
  inferInstanceAs (Decidable ('\n' ∉ s.toList))

theorem unbroken_append {s t : String} : Unbroken (s ++ t) ↔ Unbroken s ∧ Unbroken t := by
  simp [Unbroken]

theorem unbroken_intercalate {sep : String} {texts : List String} (hsep : Unbroken sep)
    (h : ∀ s ∈ texts, Unbroken s) : Unbroken (sep.intercalate texts) := by
  have hnil : Unbroken "" := by decide
  induction texts with
  | nil => simpa using hnil
  | cons s rest ih =>
    obtain ⟨hs, hrest⟩ := List.forall_mem_cons.mp h
    cases rest with
    | nil => simpa using hs
    | cons t rest =>
      rw [String.intercalate_cons_cons, unbroken_append, unbroken_append]
      exact ⟨⟨hs, hsep⟩, ih hrest⟩

theorem isBlank_newline : isBlank '\n' = true := by decide

theorem unbroken_oneLine (s : String) : Unbroken (oneLine s) := by
  refine unbroken_intercalate (by decide) fun w hw => ?_
  obtain ⟨cs, hcs, rfl⟩ := List.mem_map.mp hw
  rw [Unbroken, String.toList_ofList]
  intro hmem
  exact not_isBlank_of_mem_wordsFrom (by simp) cs hcs '\n' hmem isBlank_newline

theorem newline_notMem_jsonChar (c : Char) : '\n' ∉ jsonChar c := by
  by_cases hlow : c.toNat < 0x20
  · -- the controls are few
    have hall : ∀ n < 0x20, '\n' ∉ jsonChar (Char.ofNat n) := by decide
    simpa using hall c.toNat hlow
  · have hcontrol (d : Char) (hd : d.toNat < 0x20) : c ≠ d := fun h => hlow (h ▸ hd)
    rw [jsonChar, if_neg (hcontrol '\x08' (by decide)), if_neg (hcontrol '\t' (by decide)),
      if_neg (hcontrol '\n' (by decide)), if_neg (hcontrol '\x0c' (by decide)),
      if_neg (hcontrol '\r' (by decide)), if_neg hlow]
    split
    · decide
    · split
      · decide
      · simpa using (hcontrol '\n' (by decide)).symm

theorem unbroken_jsonLiteral (s : String) : Unbroken (jsonLiteral s) := by
  simp [Unbroken, jsonLiteral, newline_notMem_jsonChar]

end Text

/-! ## Lines of a text -/

/-- The lines of a text, cut at its line breaks. -/
def linesIn (s : String) : List String := (s.toList.splitOn '\n').map String.ofList

/-- The number of line breaks. -/
def breaks (s : String) : Nat := s.toList.count '\n'

theorem breaks_append (s t : String) : breaks (s ++ t) = breaks s + breaks t := by
  simp [breaks]

theorem breaks_eq_zero_iff {s : String} : breaks s = 0 ↔ Text.Unbroken s := List.count_eq_zero

theorem length_linesIn (s : String) : (linesIn s).length = breaks s + 1 := by
  rw [linesIn, List.length_map, length_splitOn, breaks]

theorem ofLines_cons_toList (line : String) (rest : List String) :
    (ofLines (line :: rest)).toList = line.toList ++ '\n' :: (ofLines rest).toList := by
  simp [ofLines]

/-- Each line break within lines makes one more line. -/
theorem length_linesIn_ofLines (lines : List String) :
    (linesIn (ofLines lines)).length = lines.length + breaks (String.join lines) + 1 := by
  induction lines with
  | nil => rfl
  | cons line rest ih =>
    rw [length_linesIn] at ih ⊢
    have hcons : breaks (ofLines (line :: rest)) = breaks line + (breaks (ofLines rest) + 1) := by
      simp [breaks, ofLines_cons_toList]
    rw [hcons, List.length_cons, String.join_cons, breaks_append]
    omega

/-- Lines without line breaks are cut out of the text that they make. -/
theorem linesIn_ofLines {lines : List String} (h : ∀ line ∈ lines, Text.Unbroken line) :
    linesIn (ofLines lines) = lines ++ [""] := by
  induction lines with
  | nil => rfl
  | cons line rest ih =>
    obtain ⟨hline, hrest⟩ := List.forall_mem_cons.mp h
    have hcut := ih hrest
    rw [linesIn] at hcut ⊢
    rw [ofLines_cons_toList, List.splitOn_append_cons_self_of_not_mem hline, List.map_cons, hcut,
      String.ofList_toList]
    rfl

theorem unbroken_join_iff {lines : List String} :
    Text.Unbroken (String.join lines) ↔ ∀ line ∈ lines, Text.Unbroken line := by
  induction lines with
  | nil => simp [Text.Unbroken]
  | cons line rest ih => rw [String.join_cons, Text.unbroken_append, ih, List.forall_mem_cons]

end Testplan
