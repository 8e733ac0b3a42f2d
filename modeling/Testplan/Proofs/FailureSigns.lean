import Mathlib.Data.Option.Basic
import Testplan.Diagnosis
import Testplan.Proofs.LineMatching
/-!
# The signs of failures

A log has **signs** of the ways in which a run can fail: lines in which the patterns of a kind
of failure occur (`Diagnosis.Sign`).  For a missing element there are two signs.  A message about
it is one, and an action that timed out is the other, if some line tells what an action was
waiting for; the two lines need not stand together.

A diagnosis is the kind with the highest priority of which there is a sign, and its evidence is
the first line in which the pattern of that sign occurs (`diagnose_eq_some_iff`).  So the kind
depends on which lines there are and not on their order or number, and further lines can only
raise its priority (`diagnose_by_priority`).
-/
namespace Testplan

namespace Diagnosis

/-- The pattern occurs in some line. -/
def Shown (p : LinePattern) (lines : List String) : Prop := ∃ line ∈ lines, p.Occurs line

instance (p : LinePattern) (lines : List String) : Decidable (Shown p lines) :=
  inferInstanceAs (Decidable (∃ line ∈ lines, p.Occurs line))

/-- **The first line in which a pattern occurs.** -/
def FirstShown (p : LinePattern) (lines : List String) (line : String) : Prop :=
  ∃ before after, lines = before ++ line :: after ∧ p.Occurs line ∧
    ∀ other ∈ before, ¬ p.Occurs other

/-- An action timed out, and some line tells what an action was waiting for. -/
def WaitedInVain (lines : List String) : Prop := Shown actionTimeout lines ∧ Shown waitingFor lines

instance (lines : List String) : Decidable (WaitedInVain lines) :=
  inferInstanceAs (Decidable (_ ∧ _))

/-- **A sign of a kind of failure**, with the pattern of the line that is the evidence.  After an
action that waited in vain, it is what the action was waiting for. -/
inductive Sign (lines : List String) : FailureKind → LinePattern → Prop
  | processStart (h : Shown processStart lines) : Sign lines .processStart processStart
  | waiting (h : WaitedInVain lines) : Sign lines .selectorNotFound waitingFor
  | missing (hw : ¬ WaitedInVain lines) (h : Shown missingElement lines) :
      Sign lines .selectorNotFound missingElement
  | timeout (h : Shown testTimeout lines) : Sign lines .timeout testTimeout
  | network (h : Shown networkError lines) : Sign lines .network networkError
  | assertion (h : Shown failedAssertion lines) : Sign lines .assertion failedAssertion

/-- There is a sign of the kind of failure. -/
def Shows (lines : List String) (k : FailureKind) : Prop := ∃ p, Sign lines k p

/-- The kinds of failure of which there are signs, the most urgent first. -/
def priority : List FailureKind :=
  [.processStart, .selectorNotFound, .timeout, .network, .assertion]

/-- The place of a kind in the order of priority; kinds without signs come last. -/
def rank (k : FailureKind) : Nat := priority.idxOf k

/-- **The kind leads**: there is a sign of it and of none with a higher priority. -/
def Leads (lines : List String) (k : FailureKind) : Prop :=
  Shows lines k ∧ ∀ other, rank other < rank k → ¬ Shows lines other

variable {lines others : List String} {k : FailureKind} {p : LinePattern} {line : String}

/-! ## First lines -/

theorem firstLine_eq_some_iff : firstLine p lines = some line ↔ FirstShown p lines line := by
  unfold firstLine FirstShown
  rw [List.find?_eq_some_iff_append]
  simp only [Bool.not_eq_true', LinePattern.occursIn_iff]
  constructor
  · rintro ⟨hline, before, after, rfl, hbefore⟩
    refine ⟨before, after, rfl, hline, fun other hother => ?_⟩
    rw [← LinePattern.occursIn_iff, hbefore other hother]
    exact Bool.false_ne_true
  · rintro ⟨before, after, rfl, hline, hbefore⟩
    refine ⟨hline, before, after, rfl, fun other hother => ?_⟩
    exact Bool.eq_false_iff.mpr fun h => hbefore other hother (LinePattern.occursIn_iff.mp h)

theorem firstLine_eq_none_iff : firstLine p lines = none ↔ ¬ Shown p lines := by
  simp [firstLine, Shown, LinePattern.occursIn_iff]

theorem FirstShown.shown (h : FirstShown p lines line) : Shown p lines := by
  obtain ⟨before, after, rfl, hline, -⟩ := h
  exact ⟨line, by simp, hline⟩

theorem any_occursIn_iff : lines.any p.occursIn = true ↔ Shown p lines := by
  simp [Shown, LinePattern.occursIn_iff]

/-! ## Rules and signs -/

theorem missingElementLine_eq_some_iff : missingElementLine lines = some line ↔
    ∃ p, Sign lines .selectorNotFound p ∧ FirstShown p lines line := by
  have hwaiting : (if lines.any actionTimeout.occursIn then firstLine waitingFor lines
      else none) = some line ↔ WaitedInVain lines ∧ FirstShown waitingFor lines line := by
    unfold WaitedInVain
    split
    · next ht =>
      rw [firstLine_eq_some_iff]
      exact ⟨fun h => ⟨⟨any_occursIn_iff.mp ht, h.shown⟩, h⟩, fun h => h.2⟩
    · next ht =>
      rw [any_occursIn_iff] at ht
      exact ⟨nofun, fun h => absurd h.1.1 ht⟩
  have hnone : (if lines.any actionTimeout.occursIn then firstLine waitingFor lines
      else none) = none ↔ ¬ WaitedInVain lines := by
    unfold WaitedInVain
    rw [← any_occursIn_iff (p := actionTimeout)]
    split
    · next ht => rw [firstLine_eq_none_iff, ht]; simp
    · next ht => simp [ht]
  show (_ <|> _) = some line ↔ _
  rw [Option.orElse_eq_some, hwaiting, hnone, firstLine_eq_some_iff]
  constructor
  · rintro (⟨hw, h⟩ | ⟨hw, h⟩)
    · exact ⟨_, .waiting hw, h⟩
    · exact ⟨_, .missing hw h.shown, h⟩
  · rintro ⟨p, hp, h⟩
    cases hp with
    | waiting hw => exact .inl ⟨hw, h⟩
    | missing hw _ => exact .inr ⟨hw, h⟩

/-- **A rule finds the first line of a sign of its kind.** -/
theorem rule_eq_some_iff {rule : FailureKind × (List String → Option String)}
    (hrule : rule ∈ rules) :
    rule.2 lines = some line ↔ ∃ p, Sign lines rule.1 p ∧ FirstShown p lines line := by
  -- all rules but one look for one pattern
  have single : ∀ {k p}, (∀ q, Sign lines k q ↔ q = p ∧ Shown p lines) →
      (firstLine p lines = some line ↔ ∃ q, Sign lines k q ∧ FirstShown q lines line) := by
    intro k p hk
    rw [firstLine_eq_some_iff]
    constructor
    · exact fun h => ⟨p, (hk p).mpr ⟨rfl, h.shown⟩, h⟩
    · rintro ⟨q, hq, h⟩
      obtain ⟨rfl, -⟩ := (hk q).mp hq
      exact h
  simp only [rules, List.mem_cons, List.not_mem_nil, or_false] at hrule
  rcases hrule with rfl | rfl | rfl | rfl | rfl
  · exact single fun q => ⟨fun | .processStart h => ⟨rfl, h⟩, fun ⟨hq, h⟩ => hq ▸ .processStart h⟩
  · exact missingElementLine_eq_some_iff
  · exact single fun q => ⟨fun | .timeout h => ⟨rfl, h⟩, fun ⟨hq, h⟩ => hq ▸ .timeout h⟩
  · exact single fun q => ⟨fun | .network h => ⟨rfl, h⟩, fun ⟨hq, h⟩ => hq ▸ .network h⟩
  · exact single fun q => ⟨fun | .assertion h => ⟨rfl, h⟩, fun ⟨hq, h⟩ => hq ▸ .assertion h⟩

/-- Of every sign there is a first line. -/
theorem Sign.exists_first (h : Sign lines k p) : ∃ line, FirstShown p lines line := by
  have hshown : Shown p lines := by
    cases h with
    | waiting h => exact h.2
    | missing _ h => exact h
    | _ h => exact h
  obtain ⟨line, hline⟩ := Option.ne_none_iff_exists'.mp
    fun hnone => firstLine_eq_none_iff.mp hnone hshown
  exact ⟨line, firstLine_eq_some_iff.mp hline⟩

theorem rule_eq_none_iff {rule : FailureKind × (List String → Option String)}
    (hrule : rule ∈ rules) : rule.2 lines = none ↔ ¬ Shows lines rule.1 := by
  rw [Option.eq_none_iff_forall_ne_some]
  constructor
  · rintro h ⟨p, hp⟩
    obtain ⟨line, hline⟩ := hp.exists_first
    exact h line ((rule_eq_some_iff hrule).mpr ⟨p, hp, hline⟩)
  · intro h line hline
    obtain ⟨p, hp, -⟩ := (rule_eq_some_iff hrule).mp hline
    exact h ⟨p, hp⟩

theorem map_fst_rules : rules.map Prod.fst = priority := rfl

theorem Shows.mem_priority (h : Shows lines k) : k ∈ priority := by
  obtain ⟨p, hp⟩ := h
  cases hp <;> decide

/-- A kind of higher priority is one of those before. -/
theorem mem_of_rank_lt {before after : List FailureKind} (h : priority = before ++ k :: after)
    {other : FailureKind} (hlt : rank other < rank k) : other ∈ before := by
  by_contra hnot
  have hk : rank k ≤ before.length := by
    unfold rank
    rw [h, List.idxOf_append]
    split
    · next hk => exact Nat.le_of_lt (List.idxOf_lt_length_of_mem hk)
    · simp
  have hother : before.length ≤ rank other := by
    unfold rank
    rw [h, List.idxOf_append, if_neg hnot]
    omega
  omega

/-- Only one kind leads. -/
theorem Leads.unique {k' : FailureKind} (h : Leads lines k) (h' : Leads lines k') : k = k' := by
  have hinj : ∀ a ∈ priority, ∀ b ∈ priority, rank a = rank b → a = b := by decide
  refine hinj k h.1.mem_priority k' h'.1.mem_priority ?_
  have hle : ¬ rank k < rank k' := fun hlt => h'.2 k hlt h.1
  have hge : ¬ rank k' < rank k := fun hlt => h.2 k' hlt h'.1
  omega

end Diagnosis

open Diagnosis

/-! ## Diagnoses -/

/-- **A diagnosis** is the kind that leads, with the first line of a sign of it, unless there is
no sign at all. -/
theorem diagnose_cases (lines : List String) :
    (∃ k line p, diagnose lines = ⟨k, some line⟩ ∧ Leads lines k ∧ Sign lines k p ∧
      FirstShown p lines line) ∨
    (diagnose lines = ⟨.unknown, none⟩ ∧ ∀ k, ¬ Shows lines k) := by
  unfold diagnose
  split
  · next k line hfound =>
    obtain ⟨before, rule, after, hrules, hrule, hbefore⟩ := List.findSome?_eq_some_iff.mp hfound
    obtain ⟨found, hline, hpair⟩ := Option.map_eq_some_iff.mp hrule
    cases hpair
    have hmem : ∀ r ∈ before ++ rule :: after, r ∈ rules := fun r hr => hrules ▸ hr
    obtain ⟨p, hp, hfirst⟩ := (rule_eq_some_iff (hmem rule (by simp))).mp hline
    refine .inl ⟨rule.1, line, p, rfl, ⟨⟨p, hp⟩, fun other hlt => ?_⟩, hp, hfirst⟩
    -- the rules before found nothing, so there is no sign of their kinds
    have hpriority := map_fst_rules
    rw [hrules, List.map_append, List.map_cons] at hpriority
    obtain ⟨earlier, hearlier, rfl⟩ := List.mem_map.mp (mem_of_rank_lt hpriority.symm hlt)
    refine (rule_eq_none_iff (hmem earlier (List.mem_append_left _ hearlier))).mp ?_
    simpa using hbefore earlier hearlier
  · next hfound =>
    refine .inr ⟨rfl, fun k hk => ?_⟩
    have hrule := hk.mem_priority
    rw [← map_fst_rules] at hrule
    obtain ⟨rule, hmem, rfl⟩ := List.mem_map.mp hrule
    have hnone : rule.2 lines = none := by
      simpa using List.findSome?_eq_none_iff.mp hfound rule hmem
    exact (rule_eq_none_iff hmem).mp hnone hk

namespace Diagnosis

variable {lines others : List String} {k : FailureKind}

/-- There are no signs of a kind that is not diagnosed from a log. -/
theorem not_shows_unknown : ¬ Shows lines .unknown := nofun

theorem shows_iff_selectorNotFound : Shows lines .selectorNotFound ↔
    Shown missingElement lines ∨ Shown actionTimeout lines ∧ Shown waitingFor lines := by
  constructor
  · rintro ⟨p, hp⟩
    cases hp with
    | waiting h => exact .inr h
    | missing _ h => exact .inl h
  · intro h
    by_cases hw : WaitedInVain lines
    · exact ⟨_, .waiting hw⟩
    · exact ⟨_, .missing hw (h.resolve_right hw)⟩

theorem shows_iff_processStart : Shows lines .processStart ↔ Shown processStart lines :=
  ⟨fun ⟨_, .processStart h⟩ => h, fun h => ⟨_, .processStart h⟩⟩

theorem Shown.mono {p : LinePattern} (h : Shown p lines) (hsub : lines ⊆ others) :
    Shown p others := by
  obtain ⟨line, hline, hp⟩ := h
  exact ⟨line, hsub hline, hp⟩

/-- **More lines show no less.** -/
theorem Shows.mono (h : Shows lines k) (hsub : lines ⊆ others) : Shows others k := by
  obtain ⟨p, hp⟩ := h
  cases hp with
  | processStart h => exact ⟨_, .processStart (h.mono hsub)⟩
  | waiting h => exact ⟨_, .waiting ⟨h.1.mono hsub, h.2.mono hsub⟩⟩
  | missing _ h => exact shows_iff_selectorNotFound.mpr (.inl (h.mono hsub))
  | timeout h => exact ⟨_, .timeout (h.mono hsub)⟩
  | network h => exact ⟨_, .network (h.mono hsub)⟩
  | assertion h => exact ⟨_, .assertion (h.mono hsub)⟩

/-- **The kind of a diagnosis** leads, or there is no sign at all. -/
theorem kind_diagnose_iff : (diagnose lines).kind = k ↔
    Leads lines k ∨ k = .unknown ∧ ∀ other, ¬ Shows lines other := by
  rcases diagnose_cases lines with ⟨k', line, p, hd, hleads, -, -⟩ | ⟨hd, hnone⟩
  · rw [hd]
    constructor
    · rintro rfl
      exact .inl hleads
    · rintro (hk | ⟨-, hnone⟩)
      · exact hleads.unique hk
      · exact absurd hleads.1 (hnone k')
  · rw [hd]
    constructor
    · rintro rfl
      exact .inr ⟨rfl, hnone⟩
    · rintro (hk | ⟨rfl, -⟩)
      · exact absurd hk.1 (hnone k)
      · rfl

/-- A kind of which there is a sign has no higher priority than the diagnosis. -/
theorem rank_diagnose_le (h : Shows lines k) : rank (diagnose lines).kind ≤ rank k := by
  rcases kind_diagnose_iff.mp (rfl : (diagnose lines).kind = _) with hleads | ⟨-, hnone⟩
  · by_contra hlt
    exact hleads.2 k (by omega) h
  · exact absurd h (hnone k)

/-- **More lines never lower the priority of the diagnosis.** -/
theorem rank_diagnose_anti (hsub : lines ⊆ others) :
    rank (diagnose others).kind ≤ rank (diagnose lines).kind := by
  rcases kind_diagnose_iff.mp (rfl : (diagnose lines).kind = _) with hleads | ⟨hunknown, -⟩
  · exact rank_diagnose_le (hleads.1.mono hsub)
  · -- no kind comes after the unknown one
    rw [hunknown]
    exact List.idxOf_le_length

/-- The same lines make the same diagnosis, in whatever order and however often they stand. -/
theorem kind_diagnose_congr (h : ∀ line, line ∈ others ↔ line ∈ lines) :
    (diagnose others).kind = (diagnose lines).kind := by
  have hshows : ∀ other, Shows others other ↔ Shows lines other := fun other =>
    ⟨fun hs => hs.mono fun line => (h line).mp, fun hs => hs.mono fun line => (h line).mpr⟩
  rw [kind_diagnose_iff]
  refine (kind_diagnose_iff.mp (rfl : (diagnose lines).kind = _)).imp ?_ ?_
  · rintro ⟨hk, hfirst⟩
    exact ⟨(hshows _).mpr hk, fun other hlt => fun hs => hfirst other hlt ((hshows other).mp hs)⟩
  · rintro ⟨hunknown, hnone⟩
    exact ⟨hunknown, fun other hs => hnone other ((hshows other).mp hs)⟩

end Diagnosis

/-- **What a log says about a failure.**  The kind is the one with the highest priority of which
there is a sign, and unknown if there is none.  An element is missing if the test process was
started and the log has a message about the element, or an action that timed out together with
what an action was waiting for.  The kind depends on the set of lines only, and further lines
never lower its priority.  Unless the kind is unknown there is evidence, and it is the first line
in which the pattern of the sign occurs. -/
theorem diagnose_by_priority (lines : List String) :
    (∀ k, (diagnose lines).kind = k ↔
      Leads lines k ∨ k = .unknown ∧ ∀ other, ¬ Shows lines other) ∧
    ((diagnose lines).kind = .selectorNotFound ↔ ¬ Shown processStart lines ∧
      (Shown missingElement lines ∨ Shown actionTimeout lines ∧ Shown waitingFor lines)) ∧
    (∀ others, (∀ line, line ∈ others ↔ line ∈ lines) →
      (diagnose others).kind = (diagnose lines).kind) ∧
    (∀ more, rank (diagnose (lines ++ more)).kind ≤ rank (diagnose lines).kind) ∧
    ((diagnose lines).evidence = none ↔ (diagnose lines).kind = .unknown) ∧
    ∀ line, (diagnose lines).evidence = some line →
      line ∈ lines ∧ ∃ p, Sign lines (diagnose lines).kind p ∧ FirstShown p lines line := by
  refine ⟨fun k => kind_diagnose_iff, ?_, fun others h => kind_diagnose_congr h,
    fun more => rank_diagnose_anti (List.subset_append_left lines more), ?_, ?_⟩
  · have hbefore : ∀ other, rank other < rank .selectorNotFound ↔ other = .processStart := by
      intro other
      cases other <;> decide
    rw [kind_diagnose_iff, Leads, ← shows_iff_selectorNotFound, ← shows_iff_processStart]
    simp only [hbefore, forall_eq, reduceCtorEq, false_and, or_false]
    exact And.comm
  · rcases diagnose_cases lines with ⟨k, line, p, hd, hleads, -, -⟩ | ⟨hd, -⟩
    · rw [hd]
      constructor
      · intro h
        cases h
      · rintro rfl
        exact absurd hleads.1 not_shows_unknown
    · rw [hd]
      exact ⟨fun _ => rfl, fun _ => rfl⟩
  · intro line hline
    rcases diagnose_cases lines with ⟨k, line', p, hd, -, hsign, hfirst⟩ | ⟨hd, -⟩
    · rw [hd] at hline ⊢
      obtain rfl := Option.some.inj hline
      refine ⟨?_, p, hsign, hfirst⟩
      obtain ⟨before, after, rfl, -⟩ := hfirst
      simp
    · rw [hd] at hline
      cases hline

/-- The log of an action that timed out. -/
def Sample.timedOutLog : List String :=
  ["Call log:", "  - waiting for getByLabel('Email')", "no such element",
    "Error: locator.fill: Timeout 30000ms exceeded."]

/-- An action that timed out is a sign of a missing element wherever the line about the element
stands, and that line is the evidence. -/
theorem waiting_line_is_evidence :
    (diagnose Sample.timedOutLog).kind = .selectorNotFound ∧
    (diagnose Sample.timedOutLog.reverse).kind = .selectorNotFound ∧
    (diagnose Sample.timedOutLog).evidence = some "  - waiting for getByLabel('Email')" ∧
    Sign Sample.timedOutLog .selectorNotFound waitingFor := by
  obtain ⟨-, -, hsame, -, -, hevidence⟩ := diagnose_by_priority Sample.timedOutLog
  have hkind : (diagnose Sample.timedOutLog).kind = .selectorNotFound := by decide +kernel
  have hline : (diagnose Sample.timedOutLog).evidence =
      some "  - waiting for getByLabel('Email')" := by decide +kernel
  obtain ⟨-, p, hsign, -⟩ := hevidence _ hline
  rw [hkind] at hsign
  refine ⟨hkind, (hsame _ fun line => List.mem_reverse).trans hkind, hline, ?_⟩
  cases hsign with
  | waiting h => exact .waiting h
  | missing hno => exact absurd (by decide +kernel) hno

end Testplan
