import Mathlib.Data.Finset.Card
import Mathlib.Data.Nat.Find
import Mathlib.Order.Bounds.Basic
import Testplan.Proofs.PageStems
/-!
# How page files are numbered

The name of a page file is searched among the names that are taken.  The candidates are the
slug of the page and its numberings from 2; one after the other is entered among the taken
names, and the first that was not there yet is the name (`StemSearch`).

Every search ends (`stemSearch_iff`): the candidates differ from each other, so one of the
first of them is new, no matter which names are taken (`exists_new_candidate`).  The number
stays below the number of taken names, so counting it needs no more room than the names.  The
pages of a plan are named one after the other, each among the names found before
(`StemSearches`), and a slug that looks like the numbering of another is a name like any other
(`Plan.stems_numbered`).
-/
namespace Testplan

/-! ## Candidates -/

/-- The names that are tried for a base, in their order: the base, and then its numberings
from 2. -/
def stemCandidate (base : String) : Nat → String
  | 0 => base
  | k + 1 => numberedStem base (k + 2)

theorem numberedStem_ne_base (base : String) (n : Nat) : numberedStem base n ≠ base := by
  intro h
  have hlength := congrArg (fun s => s.toList.length) h
  simp [numberedStem] at hlength

theorem stemCandidate_injective (base : String) : Function.Injective (stemCandidate base) := by
  intro i k h
  cases i with
  | zero =>
    cases k with
    | zero => rfl
    | succ k => exact absurd h.symm (numberedStem_ne_base base (k + 2))
  | succ i =>
    cases k with
    | zero => exact absurd h (numberedStem_ne_base base (i + 2))
    | succ k =>
      have hnumber : i + 2 = k + 2 := numberedStem_injective base h
      omega

/-- The place of the name among the candidates: the first that is not taken. -/
def IsFirstNew (base : String) (taken : Finset String) (k : Nat) : Prop :=
  IsLeast {i | stemCandidate base i ∉ taken} k

/-- **Some candidate is new**, and there are no more before it than names are taken. -/
theorem exists_new_candidate (base : String) (taken : Finset String) :
    ∃ k, IsFirstNew base taken k ∧ k ≤ taken.card := by
  have hnew : ∃ k ≤ taken.card, stemCandidate base k ∉ taken := by
    by_contra hall
    simp only [not_exists, not_and, not_not] at hall
    -- otherwise one more candidate than there are names would be taken
    have hsub : (Finset.range (taken.card + 1)).image (stemCandidate base) ⊆ taken := by
      intro stem hstem
      obtain ⟨k, hk, rfl⟩ := Finset.mem_image.mp hstem
      exact hall k (Nat.le_of_lt_succ (Finset.mem_range.mp hk))
    have hcard := Finset.card_le_card hsub
    rw [Finset.card_image_of_injective _ (stemCandidate_injective base), Finset.card_range] at hcard
    omega
  obtain ⟨k, hk, hfree⟩ := hnew
  have hexists : ∃ i, stemCandidate base i ∉ taken := ⟨k, hfree⟩
  exact ⟨Nat.find hexists, ⟨Nat.find_spec hexists, fun i hi => Nat.find_min' hexists hi⟩,
    Nat.le_trans (Nat.find_min' hexists hfree) hk⟩

/-- The model's choice is the first candidate that is new. -/
theorem freshStem_eq_iff {base : String} {taken : List String} {stem : String} :
    freshStem base taken = stem ↔
      ∃ k, IsFirstNew base taken.toFinset k ∧ stem = stemCandidate base k := by
  have hchosen : ∃ k, IsFirstNew base taken.toFinset k ∧
      freshStem base taken = stemCandidate base k := by
    have hnew := freshStem_not_mem base taken
    unfold freshStem at hnew ⊢
    split at hnew
    · next hbase =>
      rw [if_pos hbase]
      rw [List.find?_map] at hnew ⊢
      cases hf : (List.range (taken.length + 1)).find?
          ((fun s => decide (s ∉ taken)) ∘ fun n => numberedStem base (n + 2)) with
      | none =>
        rw [hf] at hnew
        exact absurd hbase hnew
      | some n =>
        obtain ⟨hfree, -, hbefore⟩ := List.find?_range_eq_some.mp hf
        refine ⟨n + 1, ⟨by simpa [stemCandidate] using hfree, fun i hi => ?_⟩, rfl⟩
        by_contra hlt
        rw [Set.mem_ofPred_eq, List.mem_toFinset] at hi
        cases i with
        | zero => exact hi hbase
        | succ i => exact absurd (hbefore i (by omega)) (by simpa [stemCandidate] using hi)
    · next hbase =>
      rw [if_neg hbase]
      exact ⟨0, ⟨by simpa [stemCandidate] using hbase, fun i _ => Nat.zero_le i⟩, rfl⟩
  obtain ⟨k, hk, heq⟩ := hchosen
  constructor
  · rintro rfl
    exact ⟨k, hk, heq⟩
  · rintro ⟨i, hi, rfl⟩
    rw [heq, hk.unique hi]

/-! ## The search for a name -/

/-- **The search for a name** from the `k`-th candidate on.  The candidate is entered among the
taken names; it is the name if it was new, and otherwise the search goes on. -/
inductive StemSearch (base : String) : Finset String → Nat → String → Finset String → Prop
  | new {taken : Finset String} {k : Nat} (h : stemCandidate base k ∉ taken) :
      StemSearch base taken k (stemCandidate base k) (insert (stemCandidate base k) taken)
  | next {taken after : Finset String} {k : Nat} {stem : String} (h : stemCandidate base k ∈ taken)
      (rest : StemSearch base (insert (stemCandidate base k) taken) (k + 1) stem after) :
      StemSearch base taken k stem after

/-- **A search ends**, with the first candidate that is new among those from which it began. -/
theorem stemSearch_from_iff {base stem : String} {taken after : Finset String} {k : Nat} :
    StemSearch base taken k stem after ↔
      ∃ i, IsLeast {i | k ≤ i ∧ stemCandidate base i ∉ taken} i ∧ stem = stemCandidate base i ∧
        after = insert stem taken := by
  constructor
  · intro h
    induction h with
    | @new taken k h => exact ⟨k, ⟨⟨Nat.le_refl k, h⟩, fun i hi => hi.1⟩, rfl, rfl⟩
    | @next taken after k stem h _ ih =>
      rw [Finset.insert_eq_of_mem h] at ih
      obtain ⟨i, ⟨⟨hki, hfree⟩, hleast⟩, hstem, hafter⟩ := ih
      refine ⟨i, ⟨⟨Nat.le_of_succ_le hki, hfree⟩, fun m ⟨hkm, hm⟩ => hleast ⟨?_, hm⟩⟩, hstem, hafter⟩
      -- the candidate that was tried first is taken
      refine Nat.lt_of_le_of_ne hkm ?_
      rintro rfl
      exact hm h
  · rintro ⟨i, ⟨⟨hki, hfree⟩, hleast⟩, rfl, rfl⟩
    -- the induction is on how many candidates lie before the one that is found
    induction hn : i - k generalizing k with
    | zero =>
      obtain rfl : k = i := by omega
      exact .new hfree
    | succ n ih =>
      have htaken : stemCandidate base k ∈ taken := by
        by_contra h
        have hik : i ≤ k := hleast ⟨Nat.le_refl k, h⟩
        omega
      have hafter : i ∈ lowerBounds {i | k + 1 ≤ i ∧ stemCandidate base i ∉ taken} :=
        fun m hm => hleast ⟨Nat.le_of_succ_le hm.1, hm.2⟩
      refine .next htaken ?_
      rw [Finset.insert_eq_of_mem htaken]
      exact ih hafter (by omega) (by omega)

/-- The search from the first candidate on finds the model's choice. -/
theorem stemSearch_iff {base found : String} {taken : List String} {after : Finset String} :
    StemSearch base taken.toFinset 0 found after ↔
      found = freshStem base taken ∧ after = insert (freshStem base taken) taken.toFinset := by
  have hall : {i | 0 ≤ i ∧ stemCandidate base i ∉ taken.toFinset} =
      {i | stemCandidate base i ∉ taken.toFinset} := by
    ext i
    exact and_iff_right (Nat.zero_le i)
  rw [stemSearch_from_iff, hall]
  constructor
  · rintro ⟨i, hi, hfound, rfl⟩
    obtain rfl := freshStem_eq_iff.mpr ⟨i, hi, hfound⟩
    exact ⟨rfl, rfl⟩
  · rintro ⟨rfl, rfl⟩
    obtain ⟨i, hi, hstem⟩ := freshStem_eq_iff.mp (rfl : freshStem base taken = _)
    exact ⟨i, hi, hstem, rfl⟩

/-- **The names of pages are searched one after the other**, each among the names that were
found before. -/
inductive StemSearches : Finset String → List String → List String → Finset String → Prop
  | done (taken : Finset String) : StemSearches taken [] [] taken
  | page {taken between after : Finset String} {key stem : String} {keys stems : List String}
      (h : StemSearch (slug key) taken 0 stem between) (rest : StemSearches between keys stems after) :
      StemSearches taken (key :: keys) (stem :: stems) after

/-- All the searches end, and they find the stems of the pages. -/
theorem stemSearches_iff {keys found taken : List String} {after : Finset String} :
    StemSearches taken.toFinset keys found after ↔
      found = stemsFor taken keys ∧
        after = taken.toFinset ∪ (stemsFor taken keys).toFinset := by
  induction keys generalizing taken found with
  | nil =>
    constructor
    · intro h
      cases h
      exact ⟨rfl, by simp [stemsFor]⟩
    · rintro ⟨rfl, rfl⟩
      simpa [stemsFor] using StemSearches.done taken.toFinset
  | cons key keys ih =>
    have hgrown : insert (freshStem (slug key) taken) taken.toFinset =
        (taken ++ [freshStem (slug key) taken]).toFinset := by
      ext name
      simp
    have hafter : taken.toFinset ∪ (stemsFor taken (key :: keys)).toFinset =
        (taken ++ [freshStem (slug key) taken]).toFinset ∪
          (stemsFor (taken ++ [freshStem (slug key) taken]) keys).toFinset := by
      ext name
      simp [stemsFor]
    rw [hafter]
    constructor
    · intro h
      cases h with
      | page h rest =>
        obtain ⟨rfl, rfl⟩ := stemSearch_iff.mp h
        rw [hgrown] at rest
        obtain ⟨rfl, rfl⟩ := ih.mp rest
        exact ⟨rfl, rfl⟩
    · rintro ⟨rfl, rfl⟩
      refine .page (stemSearch_iff.mpr ⟨rfl, rfl⟩) ?_
      rw [hgrown]
      exact ih.mpr ⟨rfl, rfl⟩

/-! ## Stems as names of files -/

theorem slug_ne_empty (path : String) : slug path ≠ "" := by
  unfold slug
  dsimp only
  split
  · decide
  · next h =>
    intro hempty
    have hlist := congrArg String.toList hempty
    rw [String.toList_ofList] at hlist
    exact h (by rw [hlist]; rfl)

theorem freshStem_ne_empty {base : String} (h : base ≠ "") (taken : List String) :
    freshStem base taken ≠ "" := by
  obtain ⟨k, -, hk⟩ := freshStem_eq_iff.mp (rfl : freshStem base taken = _)
  rw [hk]
  cases k with
  | zero => exact h
  | succ k => simp [stemCandidate, numberedStem]

theorem stemsFor_ne_empty (taken keys : List String) :
    ∀ stem ∈ stemsFor taken keys, stem ≠ "" := by
  induction keys generalizing taken with
  | nil => exact fun stem h => absurd h List.not_mem_nil
  | cons key keys ih =>
    exact List.forall_mem_cons.mpr ⟨freshStem_ne_empty (slug_ne_empty key) taken, ih _⟩

/-- **A name for a page file.**  It is the slug if that is not taken, and otherwise the slug with
the least number from 2 on with which it is not. -/
structure NamedAmong (base : String) (taken : List String) (stem : String) : Prop where
  itself : base ∉ taken → stem = base
  numbered : base ∈ taken → ∃ n, IsLeast {n | 2 ≤ n ∧ numberedStem base n ∉ taken} n ∧
    n ≤ taken.toFinset.card + 1 ∧ stem = numberedStem base n
  new : stem ∉ taken

theorem namedAmong_freshStem (base : String) (taken : List String) :
    NamedAmong base taken (freshStem base taken) := by
  obtain ⟨k, hk, hstem⟩ := freshStem_eq_iff.mp (rfl : freshStem base taken = _)
  refine ⟨fun hbase => ?_, fun hbase => ?_, freshStem_not_mem base taken⟩
  · have hzero : IsFirstNew base taken.toFinset 0 :=
      ⟨by simpa [stemCandidate] using hbase, fun i _ => Nat.zero_le i⟩
    rw [hstem, hk.unique hzero]
    rfl
  · obtain ⟨i, hi, hbound⟩ := exists_new_candidate base taken.toFinset
    obtain rfl := hk.unique hi
    cases k with
    | zero => exact absurd (List.mem_toFinset.mpr hbase) hk.1
    | succ k =>
      refine ⟨k + 2, ⟨⟨by omega, by simpa [stemCandidate] using hk.1⟩, ?_⟩, by omega, hstem⟩
      rintro n ⟨htwo, hn⟩
      obtain ⟨i, rfl⟩ : ∃ i, n = i + 2 := ⟨n - 2, by omega⟩
      have hle : k + 1 ≤ i + 1 := hk.2 (by simpa [stemCandidate] using hn)
      omega

/-- **Page files are numbered.**  Whatever names are taken, the search for a name ends with the
slug or its least number that is not taken, and the taken names grow by the name.  So the
searches for any page keys end, and the names that they find differ from each other, are not
empty and consist of small letters, digits and hyphens.  The stems of a plan are found in this
way. -/
theorem Plan.stems_numbered :
    (∀ (base : String) (taken : List String), NamedAmong base taken (freshStem base taken) ∧
      ∀ found after, StemSearch base taken.toFinset 0 found after ↔
        found = freshStem base taken ∧ after = insert (freshStem base taken) taken.toFinset) ∧
    (∀ keys : List String,
      (∀ found after, StemSearches ∅ keys found after ↔
        found = stemsFor [] keys ∧ after = (stemsFor [] keys).toFinset) ∧
      (stemsFor [] keys).length = keys.length ∧ (stemsFor [] keys).Nodup ∧
      ∀ stem ∈ stemsFor [] keys, stem ≠ "" ∧ ∀ c ∈ stem.toList, isSlugChar c) ∧
    ∀ p : Plan,
      StemSearches ∅ (p.groups.map PageGroup.key) (p.groups.map PageGroup.stem)
        (p.groups.map PageGroup.stem).toFinset ∧
      (p.groups.map PageGroup.stem).Nodup ∧
      ∀ g ∈ p.groups, g.stem ≠ "" ∧ ∀ c ∈ g.stem.toList, isSlugChar c := by
  have hsearches (keys found : List String) (after : Finset String) :
      StemSearches ∅ keys found after ↔
        found = stemsFor [] keys ∧ after = (stemsFor [] keys).toFinset := by
    rw [← List.toFinset_nil, stemSearches_iff, List.toFinset_nil, Finset.empty_union]
  have hnames (keys : List String) :
      ∀ stem ∈ stemsFor [] keys, stem ≠ "" ∧ ∀ c ∈ stem.toList, isSlugChar c :=
    fun stem h => ⟨stemsFor_ne_empty [] keys stem h, stemsFor_chars [] keys stem h⟩
  refine ⟨fun base taken => ?_, fun keys => ?_, fun p => ⟨?_, p.nodup_stems, ?_⟩⟩
  · exact ⟨namedAmong_freshStem base taken, fun found after => stemSearch_iff⟩
  · exact ⟨hsearches keys, length_stemsFor [] keys, (stemsFor_fresh [] keys).1, hnames keys⟩
  · rw [hsearches, ← p.map_stem_groups]
    exact ⟨rfl, rfl⟩
  · exact fun g hg => hnames _ g.stem (stem_mem_stemsFor hg)

/-- Four pages, of which two have the slug of the first and one a slug that looks like the number
of the second. -/
theorem stems_of_like_pages :
    stemsFor [] ["/a", "/a/", "/a-2", "/A"] = ["a", "a-2", "a-2-2", "a-3"] ∧
    StemSearches ∅ ["/a", "/a/", "/a-2", "/A"] ["a", "a-2", "a-2-2", "a-3"]
      {"a", "a-2", "a-2-2", "a-3"} ∧
    (∃ n, IsLeast {n | 2 ≤ n ∧ numberedStem "a" n ∉ ["a", "a-2", "a-2-2"]} n ∧
      freshStem "a" ["a", "a-2", "a-2-2"] = numberedStem "a" n) ∧
    "a-2-2" ≠ "" ∧ ∀ c ∈ "a-2-2".toList, isSlugChar c := by
  have hstems : stemsFor [] ["/a", "/a/", "/a-2", "/A"] = ["a", "a-2", "a-2-2", "a-3"] := by
    decide +kernel
  obtain ⟨hone, hall, -⟩ := Plan.stems_numbered
  obtain ⟨hsearches, -, -, hnames⟩ := hall ["/a", "/a/", "/a-2", "/A"]
  obtain ⟨n, hn, -, hstem⟩ := (hone "a" ["a", "a-2", "a-2-2"]).1.numbered (by decide)
  rw [hstems] at hsearches hnames
  exact ⟨hstems, (hsearches _ _).mpr ⟨rfl, rfl⟩, ⟨n, hn, hstem⟩, hnames "a-2-2" (by decide)⟩

end Testplan
