import Mathlib.Data.List.Forall2
import Mathlib.Data.List.Induction
import Mathlib.Data.List.Nodup
import Testplan.PageGroup
import Testplan.Proofs.Records
/-!
# Every scenario of a plan has one place

A scenario is **read** if each of its steps has an action, and otherwise **stops** at the
first step that has none (`Scenario.reads_or_stops`).  So a plan is sieved: one by one its
scenarios go to those that were read or to the failures (`Plan.sieved`).

What was read is grouped by page.  A page stands where it came up first
(`Plan.map_key_groups`), and its group holds the scenarios of the page in plan order
(`Plan.cases_of_mem_groups`).  Nothing gets lost on the way and nothing is there twice: put
together, the groups are a rearrangement of what was read (`Plan.sharedOut`).
-/
namespace Testplan

/-! ## Reading a scenario -/

/-- The actions of a scenario, one for each step. -/
def Scenario.Reads (s : Scenario) (actions : List Action) : Prop :=
  List.Forall₂ (fun step a => step.action = .ok a) s.steps actions

/-- Step `i` is the first that has no action, for the given reason. -/
def Scenario.StopsAt (s : Scenario) (i : Nat) (reason : StepError) : Prop :=
  (∃ step, s.steps[i]? = some step ∧ step.action = .error reason) ∧
    ∀ j < i, ∀ step, s.steps[j]? = some step → ∃ a, step.action = .ok a

theorem Scenario.actionsFrom_eq_ok_iff {s : Scenario} {i : Nat} {steps : List Step}
    {actions : List Action} :
    s.actionsFrom i steps = .ok actions ↔
      List.Forall₂ (fun step a => step.action = .ok a) steps actions := by
  induction steps generalizing i actions with
  | nil => simp [actionsFrom, eq_comm]
  | cons step rest ih =>
    rw [List.forall₂_cons_left_iff, actionsFrom]
    cases hstep : step.action with
    | error reason => simp
    | ok a =>
      cases hrest : s.actionsFrom (i + 1) rest with
      | error f =>
        have hnone (u : List Action) : ¬ List.Forall₂ (fun step a => step.action = .ok a) rest u :=
          fun h => by cases hrest.symm.trans (ih.mpr h)
        simp [Except.map, hnone]
      | ok others =>
        constructor
        · intro h
          cases h
          exact ⟨a, others, rfl, ih.mp hrest, rfl⟩
        · rintro ⟨b, u, hb, hu, rfl⟩
          cases hb
          cases hrest.symm.trans (ih.mpr hu)
          rfl

theorem Scenario.actionsFrom_eq_error {s : Scenario} {i : Nat} {steps : List Step}
    {f : RenderFailure} (h : s.actionsFrom i steps = .error f) :
    ∃ n step, f = ⟨s.id, s.title, i + n, f.reason⟩ ∧ steps[n]? = some step ∧
      step.action = .error f.reason ∧
      ∀ m < n, ∀ earlier, steps[m]? = some earlier → ∃ a, earlier.action = .ok a := by
  induction steps generalizing i with
  | nil => cases h
  | cons step rest ih =>
    rw [actionsFrom] at h
    cases hstep : step.action with
    | error reason =>
      rw [hstep] at h
      cases h
      exact ⟨0, step, rfl, rfl, hstep, by simp⟩
    | ok a =>
      rw [hstep] at h
      cases hrest : s.actionsFrom (i + 1) rest with
      | ok others =>
        rw [hrest] at h
        cases h
      | error g =>
        rw [hrest] at h
        cases h
        obtain ⟨n, bad, hf, hbad, hreason, hbefore⟩ := ih hrest
        refine ⟨n + 1, bad, by rw [hf]; simp; omega, hbad, hreason, ?_⟩
        intro m hm earlier hearlier
        cases m with
        | zero =>
          cases hearlier
          exact ⟨a, hstep⟩
        | succ m => exact hbefore m (by omega) earlier hearlier

theorem Scenario.actions_eq_ok_iff {s : Scenario} {actions : List Action} :
    s.actions = .ok actions ↔ s.Reads actions :=
  actionsFrom_eq_ok_iff

theorem Scenario.stopsAt_of_actions_eq_error {s : Scenario} {f : RenderFailure}
    (h : s.actions = .error f) :
    f = ⟨s.id, s.title, f.stepIndex, f.reason⟩ ∧ s.StopsAt f.stepIndex f.reason := by
  obtain ⟨n, step, hf, hstep, hreason, hbefore⟩ := actionsFrom_eq_error h
  have hn : f.stepIndex = n := by rw [hf]; simp
  rw [hn]
  refine ⟨by rw [hf]; simp, ⟨step, hstep, hreason⟩, hbefore⟩

/-- A scenario that was read stops nowhere. -/
theorem Scenario.Reads.not_stopsAt {s : Scenario} {actions : List Action} (h : s.Reads actions)
    {i : Nat} {reason : StepError} : ¬ s.StopsAt i reason := by
  rintro ⟨⟨step, hstep, hreason⟩, -⟩
  obtain ⟨hi, rfl⟩ := List.getElem?_eq_some_iff.mp hstep
  have hi' : i < actions.length := h.length_eq ▸ hi
  cases hreason.symm.trans (h.get hi hi')

theorem Scenario.reads_or_stops (s : Scenario) :
    (∃ actions, s.Reads actions) ∨ ∃ i reason, s.StopsAt i reason := by
  cases h : s.actions with
  | ok actions => exact .inl ⟨actions, actions_eq_ok_iff.mp h⟩
  | error f => exact .inr ⟨_, _, (stopsAt_of_actions_eq_error h).2⟩

/-! ## Sieving a plan -/

/-- **Scenarios sieved**: one by one, in order, each goes to those that were read, with its
actions, or to the failures, with the step at which it stops. -/
inductive Sieved : List Scenario → List ReadScenario → List RenderFailure → Prop
  | nil : Sieved [] [] []
  | read {s actions cases rendered failures} (h : s.Reads actions)
      (rest : Sieved cases rendered failures) :
      Sieved (s :: cases) ((s, actions) :: rendered) failures
  | stop {s i reason cases rendered failures} (h : s.StopsAt i reason)
      (rest : Sieved cases rendered failures) :
      Sieved (s :: cases) rendered (⟨s.id, s.title, i, reason⟩ :: failures)

theorem Sieved.length_eq {cases : List Scenario} {rendered : List ReadScenario}
    {failures : List RenderFailure} (h : Sieved cases rendered failures) :
    rendered.length + failures.length = cases.length := by
  induction h with
  | nil => rfl
  | read _ _ ih => simp only [List.length_cons]; omega
  | stop _ _ ih => simp only [List.length_cons]; omega

/-- What was read keeps its order. -/
theorem Sieved.sublist {cases : List Scenario} {rendered : List ReadScenario}
    {failures : List RenderFailure} (h : Sieved cases rendered failures) :
    (rendered.map Prod.fst).Sublist cases := by
  induction h with
  | nil => exact .slnil
  | read _ _ ih => exact ih.cons_cons _
  | stop _ _ ih => exact ih.cons _

theorem Sieved.reads {cases : List Scenario} {rendered : List ReadScenario}
    {failures : List RenderFailure} (h : Sieved cases rendered failures)
    {c : ReadScenario} (hc : c ∈ rendered) : c.1 ∈ cases ∧ c.1.Reads c.2 := by
  induction h with
  | nil => cases hc
  | read hr _ ih =>
    rcases List.mem_cons.mp hc with rfl | hc
    · exact ⟨List.mem_cons_self, hr⟩
    · exact ⟨List.mem_cons_of_mem _ (ih hc).1, (ih hc).2⟩
  | stop _ _ ih => exact ⟨List.mem_cons_of_mem _ (ih hc).1, (ih hc).2⟩

theorem Sieved.mem_of_reads {cases : List Scenario} {rendered : List ReadScenario}
    {failures : List RenderFailure} (h : Sieved cases rendered failures)
    {s : Scenario} (hs : s ∈ cases) {actions : List Action} (hr : s.Reads actions) :
    (s, actions) ∈ rendered := by
  induction h with
  | nil => cases hs
  | read hr' _ ih =>
    rcases List.mem_cons.mp hs with rfl | hs
    · cases (Scenario.actions_eq_ok_iff.mpr hr).symm.trans (Scenario.actions_eq_ok_iff.mpr hr')
      exact List.mem_cons_self
    · exact List.mem_cons_of_mem _ (ih hs)
  | stop hstop _ ih =>
    rcases List.mem_cons.mp hs with rfl | hs
    · exact absurd hstop hr.not_stopsAt
    · exact ih hs

/-- The readings of a plan sieve its scenarios. -/
theorem Plan.sieved (p : Plan) : Sieved p.cases p.readable p.failures := by
  unfold readable failures readings
  induction p.cases with
  | nil => exact .nil
  | cons s rest ih =>
    rw [List.map_cons]
    cases h : s.actions with
    | ok actions => exact .read (Scenario.actions_eq_ok_iff.mp h) ih
    | error f =>
      obtain ⟨hf, hstop⟩ := Scenario.stopsAt_of_actions_eq_error h
      rw [hf] at h ⊢
      exact .stop hstop ih

/-! ## Grouping by page -/

section ByPage

variable (cases : List ReadScenario)

/-- The pages of scenarios, in order of first appearance. -/
def pagesOf : List String := (cases.map fun c => c.1.pageKey).eraseDups

/-- The scenarios of a page, in order. -/
def onPage (key : String) : List ReadScenario := cases.filter fun c => c.1.pageKey = key

theorem byPage_append (c : ReadScenario) :
    byPage (cases ++ [c]) =
      (byPage cases).alter c.1.pageKey fun old => old.getD [] ++ [c] := by
  rw [byPage, List.foldl_append]
  rfl

theorem keys_byPage : (byPage cases).keys = pagesOf cases := by
  induction cases using List.reverseRecOn with
  | nil => rfl
  | append_singleton cases c ih =>
    rw [byPage_append]
    refine (Roster.map_fst_alterEntry _ _ _).trans ?_
    change (if c.1.pageKey ∈ (byPage cases).keys then (byPage cases).keys
      else (byPage cases).keys ++ [c.1.pageKey]) = _
    have hpages : pagesOf (cases ++ [c]) =
        pagesOf cases ++ ([c.1.pageKey].removeAll (cases.map fun c => c.1.pageKey)).eraseDups := by
      rw [pagesOf, List.map_append, List.eraseDups_append]
      rfl
    rw [ih, hpages, List.removeAll]
    by_cases h : c.1.pageKey ∈ cases.map fun c => c.1.pageKey
    · simp [pagesOf, List.mem_eraseDups, h]
    · simp [pagesOf, List.mem_eraseDups, h, List.eraseDups_cons]

theorem get?_byPage (key : String) :
    ((byPage cases).get? key).getD [] = onPage cases key := by
  induction cases using List.reverseRecOn with
  | nil => rfl
  | append_singleton cases c ih =>
    rw [byPage_append, onPage, List.filter_append]
    change ((Roster.alterEntry _ _ _).lookup key).getD [] = _
    rw [Roster.lookup_alterEntry]
    change (if key = c.1.pageKey then
      some (((byPage cases).get? c.1.pageKey).getD [] ++ [c]) else (byPage cases).get? key).getD [] = _
    by_cases h : key = c.1.pageKey
    · subst h
      rw [if_pos rfl, Option.getD_some, ih]
      simp [onPage]
    · rw [if_neg h, ih]
      simp [onPage, Ne.symm h]

theorem perm_byPage : ((byPage cases).entries.flatMap Prod.snd).Perm cases := by
  -- adding a scenario to a page adds it once, wherever the page stands
  have add (c : ReadScenario) (es : List (String × List ReadScenario)) :
      ((Roster.alterEntry c.1.pageKey (fun old => old.getD [] ++ [c]) es).flatMap Prod.snd).Perm
        (es.flatMap Prod.snd ++ [c]) := by
    induction es with
    | nil => simp [Roster.alterEntry]
    | cons e rest ih =>
      obtain ⟨key, there⟩ := e
      rw [Roster.alterEntry]
      split
      · simpa using (List.perm_append_singleton c (rest.flatMap Prod.snd)).symm.append_left there
      · simpa using ih.append_left there
  induction cases using List.reverseRecOn with
  | nil => exact .nil
  | append_singleton cases c ih =>
    rw [byPage_append]
    exact (add c _).trans (ih.append_right [c])

end ByPage

theorem length_stemsFor (taken keys : List String) :
    (stemsFor taken keys).length = keys.length := by
  induction keys generalizing taken with
  | nil => rfl
  | cons key keys ih => simp [stemsFor, ih]

/-- The groups without their stems are the entries of the table of pages. -/
theorem Plan.map_groups (p : Plan) :
    p.groups.map (fun g => (g.key, g.cases)) = (byPage p.readable).entries := by
  have hlen : (byPage p.readable).entries.length =
      (stemsFor [] (byPage p.readable).keys).length := by
    rw [length_stemsFor, Roster.keys, List.length_map]
  exact (List.map_map ..).trans (List.map_fst_zip (Nat.le_of_eq hlen))

theorem Plan.map_stem_groups (p : Plan) :
    p.groups.map PageGroup.stem = stemsFor [] (p.groups.map PageGroup.key) := by
  have hkeys : p.groups.map PageGroup.key = (byPage p.readable).keys := by
    rw [Roster.keys, ← p.map_groups, List.map_map]
    rfl
  have hlen : (stemsFor [] (byPage p.readable).keys).length =
      (byPage p.readable).entries.length := by
    rw [length_stemsFor, Roster.keys, List.length_map]
  rw [hkeys]
  exact (List.map_map ..).trans (List.map_snd_zip (Nat.le_of_eq hlen))

theorem Plan.map_key_groups (p : Plan) :
    p.groups.map PageGroup.key = pagesOf p.readable := by
  rw [← keys_byPage, Roster.keys, ← p.map_groups, List.map_map]
  rfl

theorem Plan.nodup_key_groups (p : Plan) : (p.groups.map PageGroup.key).Nodup := by
  rw [p.map_key_groups, ← keys_byPage]
  exact (byPage p.readable).distinct

theorem Plan.cases_of_mem_groups {p : Plan} {g : PageGroup} (hg : g ∈ p.groups) :
    g.cases = onPage p.readable g.key := by
  have hmem : (g.key, g.cases) ∈ (byPage p.readable).entries :=
    p.map_groups ▸ List.mem_map.mpr ⟨g, hg, rfl⟩
  rw [← get?_byPage, Roster.get?_of_mem hmem, Option.getD_some]

/-- **A plan shared out** among page groups and failures. -/
structure Plan.SharedOut (p : Plan) (rendered : List ReadScenario) (groups : List PageGroup)
    (failures : List RenderFailure) : Prop where
  /-- In plan order, each scenario was read or failed. -/
  sieved : Sieved p.cases rendered failures
  /-- There is one group for each page, in order of first appearance. -/
  pages : groups.map PageGroup.key = pagesOf rendered
  pages_distinct : (groups.map PageGroup.key).Nodup
  /-- A group holds the scenarios of its page, in plan order. -/
  cases : ∀ g ∈ groups, g.cases = onPage rendered g.key
  /-- Put together, the groups hold what was read, each as often as it was read. -/
  whole : (groups.flatMap PageGroup.cases).Perm rendered
  one_group : ∀ c ∈ rendered, ∃! g, g ∈ groups ∧ c ∈ g.cases
  /-- No group holds a scenario that failed. -/
  failed_apart : ∀ s i reason, s.StopsAt i reason → ∀ g ∈ groups, ∀ c ∈ g.cases, c.1 ≠ s

/-- Every scenario of a plan has one place. -/
theorem Plan.sharedOut (p : Plan) : p.SharedOut p.readable p.groups p.failures where
  sieved := p.sieved
  pages := p.map_key_groups
  pages_distinct := p.nodup_key_groups
  cases := fun g => cases_of_mem_groups
  whole := by
    have h := perm_byPage p.readable
    rwa [← p.map_groups, List.flatMap_map] at h
  one_group := by
    intro c hc
    have hpage : c.1.pageKey ∈ p.groups.map PageGroup.key := by
      rw [p.map_key_groups, pagesOf, List.mem_eraseDups]
      exact List.mem_map.mpr ⟨c, hc, rfl⟩
    obtain ⟨g, hg, hkey⟩ := List.mem_map.mp hpage
    have hmem (k : PageGroup) (hk : k ∈ p.groups) : c ∈ k.cases ↔ c.1.pageKey = k.key := by
      simp [cases_of_mem_groups hk, onPage, hc]
    refine ⟨g, ⟨hg, (hmem g hg).mpr hkey.symm⟩, fun k ⟨hk, hck⟩ => ?_⟩
    exact List.inj_on_of_nodup_map p.nodup_key_groups hk hg (((hmem k hk).mp hck).symm.trans hkey.symm)
  failed_apart := by
    rintro s i reason hstop g hg c hc rfl
    rw [cases_of_mem_groups hg] at hc
    exact (p.sieved.reads (List.mem_of_mem_filter hc)).2.not_stopsAt hstop

end Testplan
