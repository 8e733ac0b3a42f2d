import Testplan.Proofs.PageGroups
import Testplan.Proofs.TextsAndLists
/-!
# The names of page files

A stem is made of small letters, digits and hyphens (`slug_chars`, `freshStem_chars`), so it
never leads out of a directory.  The numbering finds a stem that is not taken, since among one more
candidates than there are stems some candidate is new (`freshStem_not_mem`); so no two pages
of a plan share a stem (`Plan.nodup_stems`).
-/
namespace Testplan

/-! ## Characters of stems -/

/-- A letter, a digit or a hyphen. -/
def isStemChar (c : Char) : Bool := c.isAlphanum || c = '-'

/-- A small letter, a digit or a hyphen. -/
def isSlugChar (c : Char) : Bool := c.isLower || c.isDigit || c = '-'

theorem isAlphanum_eq (c : Char) : c.isAlphanum = (c.isUpper || c.isLower || c.isDigit) := rfl

theorem isStemChar_of_isSlugChar {c : Char} (h : isSlugChar c) : isStemChar c := by
  simp only [isSlugChar, isStemChar, isAlphanum_eq, Bool.or_eq_true] at h ⊢
  rcases h with (h | h) | h <;> simp [h]

theorem isSlugChar_toLower {c : Char} (h : c.isAlphanum = true) : isSlugChar c.toLower := by
  unfold Char.toLower
  split
  · next hu =>
    have hlo : 65 ≤ c.val.toNat := hu.1
    have hhi : c.val.toNat ≤ 90 := hu.2
    have hval : (c.val + 32).toNat = c.val.toNat + 32 := by
      rw [UInt32.toNat_add]
      exact Nat.mod_eq_of_lt (by simp only [UInt32.reduceToNat]; omega)
    have hlower : 97 ≤ c.val + 32 ∧ c.val + 32 ≤ 122 := by
      simp only [UInt32.le_iff_toNat_le, hval, UInt32.reduceToNat]
      omega
    refine Bool.or_eq_true_iff.mpr (.inl (Bool.or_eq_true_iff.mpr (.inl ?_)))
    exact Bool.and_eq_true_iff.mpr ⟨decide_eq_true hlower.1, decide_eq_true hlower.2⟩
  · next hu =>
    -- what is not a capital letter is a small one or a digit
    have hupper : c.isUpper = false := decide_eq_false hu
    rw [isAlphanum_eq, hupper, Bool.false_or] at h
    rw [isSlugChar, h, Bool.true_or]

theorem hyphenate_chars (afterHyphen : Bool) (cs : List Char) :
    ∀ c ∈ hyphenate afterHyphen cs, isSlugChar c := by
  induction cs generalizing afterHyphen with
  | nil => simp [hyphenate]
  | cons d cs ih =>
    rw [hyphenate]
    split
    · next hd =>
      exact List.forall_mem_cons.mpr ⟨isSlugChar_toLower hd, ih false⟩
    · split
      · exact ih true
      · exact List.forall_mem_cons.mpr ⟨by decide, ih true⟩

theorem slug_chars (path : String) : ∀ c ∈ (slug path).toList, isSlugChar c := by
  intro c hc
  unfold slug at hc
  dsimp only at hc
  split at hc
  · exact List.all_eq_true.mp (by decide : "root".toList.all isSlugChar = true) c hc
  · rw [String.toList_ofList] at hc
    have hmem := (List.dropWhile_suffix _).subset (Text.mem_of_mem_dropEndWhile hc)
    exact hyphenate_chars false path.toList c hmem

theorem numberedStem_chars {base : String} (h : ∀ c ∈ base.toList, isSlugChar c) (n : Nat) :
    ∀ c ∈ (numberedStem base n).toList, isSlugChar c := by
  intro c hc
  simp only [numberedStem, String.toList_append, List.mem_append] at hc
  rcases hc with (hc | hc) | hc
  · exact h c hc
  · exact List.all_eq_true.mp (by decide : "-".toList.all isSlugChar = true) c hc
  · simp [isSlugChar, digits_toString hc]

theorem freshStem_chars {base : String} (h : ∀ c ∈ base.toList, isSlugChar c)
    (taken : List String) : ∀ c ∈ (freshStem base taken).toList, isSlugChar c := by
  unfold freshStem
  split
  · cases hf : (((List.range (taken.length + 1)).map fun n => numberedStem base (n + 2)).find?
        fun s => s ∉ taken) with
    | none => exact h
    | some stem =>
      obtain ⟨n, -, rfl⟩ := List.mem_map.mp (List.mem_of_find?_eq_some hf)
      exact numberedStem_chars h (n + 2)
  · exact h

theorem stemsFor_chars (taken keys : List String) :
    ∀ stem ∈ stemsFor taken keys, ∀ c ∈ stem.toList, isSlugChar c := by
  induction keys generalizing taken with
  | nil => simp [stemsFor]
  | cons key keys ih =>
    exact List.forall_mem_cons.mpr ⟨freshStem_chars (slug_chars key) taken, ih _⟩

/-! ## No stem is used twice -/

theorem numberedStem_injective (base : String) : Function.Injective (numberedStem base) := by
  intro m n h
  simp only [numberedStem, ← String.toList_inj, String.toList_append] at h
  have hdigits := List.append_cancel_left h
  rw [toList_toString, toList_toString] at hdigits
  have hread := congrArg (fun digits => Nat.ofDigitChars 10 digits 0) hdigits
  simpa [Nat.ofDigitChars_ten_toDigits] using hread

/-- A stem that is found is not taken. -/
theorem freshStem_not_mem (base : String) (taken : List String) :
    freshStem base taken ∉ taken := by
  unfold freshStem
  split
  · cases hf : (((List.range (taken.length + 1)).map fun n => numberedStem base (n + 2)).find?
        fun s => s ∉ taken) with
    | some stem => simpa using List.find?_some hf
    | none =>
      -- otherwise all candidates were taken, which are different and more than the taken stems
      have hsub : ((List.range (taken.length + 1)).map fun n => numberedStem base (n + 2)) ⊆
          taken := fun s hs => by simpa using List.find?_eq_none.mp hf s hs
      have hnodup : ((List.range (taken.length + 1)).map
          fun n => numberedStem base (n + 2)).Nodup := by
        refine List.Nodup.map (fun m n h => ?_) List.nodup_range
        exact Nat.add_right_cancel (numberedStem_injective base h)
      have hlen := hnodup.length_le_of_subset hsub
      rw [List.length_map, List.length_range] at hlen
      omega
  · next h => exact h

theorem stemsFor_fresh (taken keys : List String) :
    (stemsFor taken keys).Nodup ∧ ∀ stem ∈ stemsFor taken keys, stem ∉ taken := by
  induction keys generalizing taken with
  | nil => simp [stemsFor]
  | cons key keys ih =>
    obtain ⟨hnodup, hfresh⟩ := ih (taken ++ [freshStem (slug key) taken])
    refine ⟨List.nodup_cons.mpr ⟨fun h => hfresh _ h (by simp), hnodup⟩, ?_⟩
    refine List.forall_mem_cons.mpr ⟨freshStem_not_mem _ _, fun stem hs ht => ?_⟩
    exact hfresh stem hs (List.mem_append_left _ ht)

/-- No two pages of a plan share a stem. -/
theorem Plan.nodup_stems (p : Plan) : (p.groups.map PageGroup.stem).Nodup := by
  rw [p.map_stem_groups]
  exact (stemsFor_fresh [] _).1

theorem Plan.stem_mem_stemsFor {p : Plan} {g : PageGroup} (hg : g ∈ p.groups) :
    g.stem ∈ stemsFor [] (p.groups.map PageGroup.key) :=
  p.map_stem_groups ▸ List.mem_map.mpr ⟨g, hg, rfl⟩

theorem Plan.stem_chars {p : Plan} {g : PageGroup} (hg : g ∈ p.groups) :
    ∀ c ∈ g.stem.toList, isStemChar c :=
  fun c hc => isStemChar_of_isSlugChar (stemsFor_chars [] _ g.stem (stem_mem_stemsFor hg) c hc)

end Testplan
