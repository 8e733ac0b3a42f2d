import Testplan.Proofs.SingleLines
/-!
# Texts that differ whatever stands around them

Two texts **diverge** if they differ at a place that both of them have (`Text.Diverge`).  Then
they differ with anything behind them, and with the same text in front.

Text on one line keeps its words, so it keeps all characters that are no blanks
(`Text.squeezed_oneLine`), and what a text begins with if that is one word
(`Text.prefix_oneLine`).
-/
namespace Testplan

namespace Text

/-! ## Diverging texts -/

/-- The texts differ at a place that both have. -/
def diverge : List Char → List Char → Bool
  | c :: cs, d :: ds => c ≠ d || diverge cs ds
  | _, _ => false

/-- **The strings differ at a place that both have.** -/
def Diverge (a b : String) : Prop := diverge a.toList b.toList

theorem diverge_self (cs : List Char) : diverge cs cs = false := by
  induction cs with
  | nil => rfl
  | cons c cs ih => simp [diverge, ih]

theorem diverge_append_left (cs a b : List Char) : diverge (cs ++ a) (cs ++ b) = diverge a b := by
  induction cs with
  | nil => rfl
  | cons c cs ih => simp [diverge, ih]

theorem diverge_append_right {a b : List Char} (h : diverge a b) (u v : List Char) :
    diverge (a ++ u) (b ++ v) := by
  induction a generalizing b with
  | nil => cases h
  | cons c cs ih =>
    cases b with
    | nil => cases h
    | cons d ds =>
      simp only [diverge, Bool.or_eq_true] at h
      simp only [List.cons_append, diverge, Bool.or_eq_true]
      exact h.imp_right ih

theorem Diverge.ne {a b : String} (h : Diverge a b) : a ≠ b := by
  rintro rfl
  rw [Diverge, diverge_self] at h
  cases h

/-- What stands in front of both texts makes no difference. -/
theorem diverge_behind_iff {before a b : String} :
    Diverge (before ++ a) (before ++ b) ↔ Diverge a b := by
  simp only [Diverge, String.toList_append, diverge_append_left]

/-- What stands behind them does not undo the difference. -/
theorem Diverge.before {a b : String} (h : Diverge a b) (after other : String) :
    Diverge (a ++ after) (b ++ other) := by
  simp only [Diverge, String.toList_append]
  exact diverge_append_right h _ _

/-! ## Words -/

/-- The characters of a text that are not blank. -/
def squeezed (s : String) : List Char := s.toList.filter fun c => !isBlank c

theorem squeezed_append (s t : String) : squeezed (s ++ t) = squeezed s ++ squeezed t := by
  simp [squeezed]

theorem filter_not_blank {cs : List Char} (h : ∀ c ∈ cs, ¬ isBlank c) :
    cs.filter (fun c => !isBlank c) = cs := by
  simpa using h

theorem squeezed_dropWhile (cs : List Char) :
    (cs.dropWhile isBlank).filter (fun c => !isBlank c) = cs.filter fun c => !isBlank c := by
  induction cs with
  | nil => rfl
  | cons c cs ih => by_cases hc : isBlank c = true <;> simp [hc, ih]

theorem squeezed_dropEndWhile (cs : List Char) :
    (dropEndWhile isBlank cs).filter (fun c => !isBlank c) = cs.filter fun c => !isBlank c := by
  induction cs with
  | nil => rfl
  | cons c cs ih =>
    rw [dropEndWhile]
    cases hrest : dropEndWhile isBlank cs with
    | nil =>
      rw [hrest] at ih
      by_cases hc : isBlank c = true <;> simp [hc, ← ih]
    | cons d rest =>
      rw [hrest] at ih
      simp only [List.filter_cons (x := c), ih]

theorem squeezed_strip (s : String) : squeezed (strip s) = squeezed s := by
  rw [squeezed, strip, String.toList_ofList, trim, squeezed_dropEndWhile, squeezed_dropWhile,
    squeezed]

theorem flatten_wordsFrom (acc : List Char) (hacc : ∀ c ∈ acc, ¬ isBlank c) (cs : List Char) :
    (wordsFrom acc cs).flatten = acc.reverse ++ cs.filter fun c => !isBlank c := by
  induction cs generalizing acc with
  | nil => by_cases h : acc = [] <;> simp [wordsFrom, h]
  | cons c cs ih =>
    rw [wordsFrom]
    split
    · next hc =>
      have hrest := ih [] (by simp)
      split
      · next h => simp [hrest, hc, List.isEmpty_iff.mp h]
      · simp [hrest, hc]
    · next hc =>
      rw [ih _ (List.forall_mem_cons.mpr ⟨hc, hacc⟩)]
      simp [hc]

/-- Text on one line keeps its words, letter by letter. -/
theorem squeezed_oneLine (s : String) : squeezed (oneLine s) = squeezed s := by
  have hwords := flatten_wordsFrom [] (by simp) s.toList
  have hsep (ws : List String) :
      squeezed (" ".intercalate ws) = (ws.map squeezed).flatten := by
    induction ws with
    | nil => rfl
    | cons w ws ih =>
      cases ws with
      | nil => simp
      | cons v ws =>
        rw [String.intercalate_cons_cons, squeezed_append, squeezed_append, ih]
        simp [show squeezed " " = [] by decide]
  have hmap : (words s.toList).map (squeezed ∘ String.ofList) = words s.toList := by
    refine (List.map_congr_left fun w hw => ?_).trans (List.map_id _)
    simp only [Function.comp, squeezed, String.toList_ofList, id]
    exact filter_not_blank (not_isBlank_of_mem_wordsFrom (by simp) w hw)
  rw [oneLine, hsep, List.map_map, hmap, words, hwords]
  rfl

/-- A text that begins with a word begins with it on one line, too. -/
theorem prefix_oneLine {w : List Char} (hw : ∀ c ∈ w, ¬ isBlank c) (hne : w ≠ []) (cs : List Char) :
    w <+: (oneLine (String.ofList (w ++ cs))).toList := by
  have hread (acc : List Char) : wordsFrom acc (w ++ cs) = wordsFrom (w.reverse ++ acc) cs := by
    induction w generalizing acc with
    | nil => rfl
    | cons c w ih =>
      obtain ⟨hc, hw⟩ := List.forall_mem_cons.mp hw
      rw [List.cons_append, wordsFrom, if_neg hc]
      by_cases hnil : w = []
      · simp [hnil]
      · rw [ih hw hnil]
        simp
  have hfirst (acc cs : List Char) (h : acc ≠ []) :
      ∃ more rest, wordsFrom acc cs = (acc.reverse ++ more) :: rest := by
    induction cs generalizing acc with
    | nil => exact ⟨[], [], by simp [wordsFrom, h]⟩
    | cons c cs ih =>
      rw [wordsFrom]
      split
      · exact ⟨[], wordsFrom [] cs, by simp [h]⟩
      · obtain ⟨more, rest, he⟩ := ih (c :: acc) (by simp)
        exact ⟨c :: more, rest, by simp [he]⟩
  obtain ⟨more, rest, he⟩ := hfirst (w.reverse ++ []) cs (by simpa using hne)
  rw [oneLine, words, String.toList_ofList, hread, he]
  cases rest with
  | nil => simp
  | cons v rest =>
    rw [List.map_cons, List.map_cons, String.intercalate_cons_cons]
    simp

end Text

end Testplan
