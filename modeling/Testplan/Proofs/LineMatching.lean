import Testplan.LinePattern
/-!
# What patterns stand for

A pattern stands for a set of texts (`LinePattern.Matches`), and it occurs in a line that has
one of them in it (`LinePattern.Occurs`).

The matcher knows nothing of these texts: it reads a line from the left and hands what is left
over to the rest of the pattern, and where a text may be longer or shorter it tries both.
That finds all there is to find (`LinePattern.matchThen_iff`), so the matcher decides whether a
pattern occurs (`LinePattern.occursIn_iff`).
-/
namespace Testplan

namespace LinePattern

/-- **The texts that a pattern stands for.** -/
inductive Matches : LinePattern → List Char → Prop
  | nothing : Matches .nothing []
  | one {set c} (h : set.has c = true) : Matches (.one set) [c]
  | several {set cs} (hne : cs ≠ []) (h : ∀ c ∈ cs, set.has c = true) : Matches (.several set) cs
  | seq {p q cs ds} (hp : Matches p cs) (hq : Matches q ds) : Matches (.seq p q) (cs ++ ds)
  | left {p q cs} (hp : Matches p cs) : Matches (.either p q) cs
  | right {p q cs} (hq : Matches q cs) : Matches (.either p q) cs

/-- **The pattern occurs in a line**: part of the line is a text that it stands for. -/
def Occurs (p : LinePattern) (line : String) : Prop :=
  ∃ before found after, line.toList = before ++ found ++ after ∧ p.Matches found

/-! ## The matcher -/

theorem severalThen_iff {set : CharSet} {rest : List Char → Bool} {cs : List Char} :
    severalThen set rest cs = true ↔
      ∃ ds es, cs = ds ++ es ∧ ds ≠ [] ∧ (∀ c ∈ ds, set.has c = true) ∧ rest es = true := by
  induction cs with
  | nil =>
    constructor
    · intro h
      cases h
    · rintro ⟨ds, es, h, hne, -⟩
      exact absurd (List.append_eq_nil_iff.mp h.symm).1 hne
  | cons c cs ih =>
    rw [severalThen, Bool.and_eq_true, Bool.or_eq_true, ih]
    constructor
    · rintro ⟨hc, hrest | ⟨ds, es, rfl, -, hds, hrest⟩⟩
      · exact ⟨[c], cs, rfl, List.cons_ne_nil _ _, by simpa using hc, hrest⟩
      · exact ⟨c :: ds, es, rfl, List.cons_ne_nil _ _, List.forall_mem_cons.mpr ⟨hc, hds⟩, hrest⟩
    · rintro ⟨ds, es, h, hne, hds, hrest⟩
      cases ds with
      | nil => exact absurd rfl hne
      | cons d ds =>
        obtain ⟨rfl, rfl⟩ := List.cons_eq_cons.mp h
        obtain ⟨hc, hds⟩ := List.forall_mem_cons.mp hds
        refine ⟨hc, ?_⟩
        -- the repetition ends here or goes on
        cases ds with
        | nil => exact .inl hrest
        | cons d ds => exact .inr ⟨d :: ds, es, rfl, List.cons_ne_nil _ _, hds, hrest⟩

/-- **The matcher finds a text of the pattern and leaves a rest that is accepted**, if there is
such a text. -/
theorem matchThen_iff {p : LinePattern} {rest : List Char → Bool} {cs : List Char} :
    p.matchThen rest cs = true ↔ ∃ ds es, cs = ds ++ es ∧ p.Matches ds ∧ rest es = true := by
  induction p generalizing rest cs with
  | nothing =>
    constructor
    · exact fun h => ⟨[], cs, rfl, .nothing, h⟩
    · rintro ⟨ds, es, rfl, hm, h⟩
      cases hm
      exact h
  | one set =>
    constructor
    · intro h
      cases cs with
      | nil => cases h
      | cons c cs =>
        rw [matchThen, Bool.and_eq_true] at h
        exact ⟨[c], cs, rfl, .one h.1, h.2⟩
    · rintro ⟨ds, es, rfl, hm, h⟩
      cases hm with
      | one hc => exact Bool.and_eq_true_iff.mpr ⟨hc, h⟩
  | several set =>
    rw [matchThen, severalThen_iff]
    constructor
    · rintro ⟨ds, es, rfl, hne, hds, h⟩
      exact ⟨ds, es, rfl, .several hne hds, h⟩
    · rintro ⟨ds, es, rfl, hm, h⟩
      cases hm with
      | several hne hds => exact ⟨ds, es, rfl, hne, hds, h⟩
  | seq p q ihp ihq =>
    rw [matchThen, ihp]
    constructor
    · rintro ⟨ds, es, rfl, hp, h⟩
      obtain ⟨fs, gs, rfl, hq, h⟩ := ihq.mp h
      exact ⟨ds ++ fs, gs, (List.append_assoc ..).symm, .seq hp hq, h⟩
    · rintro ⟨ds, es, rfl, hm, h⟩
      cases hm with
      | seq hp hq => exact ⟨_, _, List.append_assoc .., hp, ihq.mpr ⟨_, es, rfl, hq, h⟩⟩
  | either p q ihp ihq =>
    rw [matchThen, Bool.or_eq_true, ihp, ihq]
    constructor
    · rintro (⟨ds, es, rfl, hm, h⟩ | ⟨ds, es, rfl, hm, h⟩)
      · exact ⟨ds, es, rfl, .left hm, h⟩
      · exact ⟨ds, es, rfl, .right hm, h⟩
    · rintro ⟨ds, es, rfl, hm, h⟩
      cases hm with
      | left hm => exact .inl ⟨ds, es, rfl, hm, h⟩
      | right hm => exact .inr ⟨ds, es, rfl, hm, h⟩

theorem matchesStart_iff {p : LinePattern} {cs : List Char} :
    p.matchesStart cs = true ↔ ∃ ds es, cs = ds ++ es ∧ p.Matches ds := by
  simp [matchesStart, matchThen_iff]

theorem occursInChars_iff {p : LinePattern} {cs : List Char} :
    p.occursInChars cs = true ↔
      ∃ before found after, cs = before ++ found ++ after ∧ p.Matches found := by
  induction cs with
  | nil =>
    rw [occursInChars, matchesStart_iff]
    constructor
    · rintro ⟨ds, es, h, hm⟩
      exact ⟨[], ds, es, h, hm⟩
    · rintro ⟨before, found, after, h, hm⟩
      obtain ⟨rfl, rfl, rfl⟩ : before = [] ∧ found = [] ∧ after = [] := by simpa using h
      exact ⟨[], [], rfl, hm⟩
  | cons c cs ih =>
    rw [occursInChars, Bool.or_eq_true, matchesStart_iff, ih]
    constructor
    · rintro (⟨ds, es, h, hm⟩ | ⟨before, found, after, rfl, hm⟩)
      · exact ⟨[], ds, es, h, hm⟩
      · exact ⟨c :: before, found, after, rfl, hm⟩
    · rintro ⟨before, found, after, h, hm⟩
      -- the text is found at the start of the line or behind its first character
      cases before with
      | nil => exact .inl ⟨found, after, h, hm⟩
      | cons b before =>
        obtain ⟨rfl, rfl⟩ := List.cons_eq_cons.mp h
        exact .inr ⟨before, found, after, rfl, hm⟩

/-- **The matcher decides whether a pattern occurs in a line.** -/
theorem occursIn_iff {p : LinePattern} {line : String} :
    p.occursIn line = true ↔ p.Occurs line := occursInChars_iff

instance (p : LinePattern) (line : String) : Decidable (p.Occurs line) :=
  decidable_of_iff _ occursIn_iff

end LinePattern

end Testplan
