import Testplan.Proofs.HealedPages
/-!
# When healing changes what is executed

Healing goes by the hints of steps.  Not every step acts on the element of its hint: a step that
expects a text looks for the text, a note is not executed, and an upload without a path cannot
be rendered.  Such steps have new hints after healing, and nothing else comes of it.

The steps that differ are those that healing reports (`Plan.map_entry_stepChanges`).  Healing is
**effective** (`HealedPlan.Effective`) exactly if all these steps act on the elements of their
hints and one of them stands in a scenario that is rendered (`Plan.heal_effective_iff`).
-/
namespace Testplan

/-! ## Versions of a plan compared -/

theorem Action.locator?_onto {a : Action} {l : Locator} (h : a.locator? = some l) (new : Locator) :
    (a.onto new).locator? = some new := by
  cases a <;> cases h <;> rfl

/-- A step that differs in two versions of a scenario, with its place in the old one. -/
structure StepChange where
  scenario : Scenario
  index : Nat
  before : Step
  after : Step
deriving DecidableEq

/-- The steps that differ in two versions of a scenario. -/
def Scenario.stepChanges (s t : Scenario) : List StepChange :=
  (s.steps.zip t.steps).zipIdx.filterMap fun ((before, after), index) =>
    if before = after then none else some ⟨s, index, before, after⟩

/-- **The steps that differ in two versions of a plan**, scenario by scenario. -/
def Plan.stepChanges (p q : Plan) : List StepChange :=
  (p.cases.zip q.cases).flatMap fun (s, t) => s.stepChanges t

namespace StepChange

/-- How healing reports the change. -/
def entry (c : StepChange) : HealedStep where
  scenarioId := c.scenario.id
  stepIndex := c.index
  old := c.before.target.getD ""
  new := c.after.target.getD ""

/-- **The change shows in what is executed**: before it, the step acted on the element of the
old hint, and after it the step acts in the same way on that of the new hint, which is found in
another way. -/
def Redirects (c : StepChange) : Prop :=
  ∃ l new a, Locator.parse c.entry.old = .ok l ∧ Locator.parse c.entry.new = .ok new ∧ l ≠ new ∧
    a.locator? = some l ∧ c.before.action = .ok a ∧ c.after.action = .ok (a.onto new)

/-- The step stands in a scenario that is rendered. -/
def IsRendered (c : StepChange) : Prop := ∃ actions, c.scenario.Reads actions

end StepChange

/-- **A healed plan is effective** if all its changes show in what is executed, and no framework
that generates code renders it to the files of the plan that failed. -/
structure HealedPlan.Effective (p : Plan) (healed : HealedPlan) : Prop where
  redirects : ∀ c ∈ p.stepChanges healed.plan, c.Redirects
  files : ∀ (f : Framework) (s : RenderSettings), f ≠ .xctest →
    (f.render s healed.plan).files ≠ (f.render s p).files

/-! ## The steps that healing reports -/

section Repaired

variable {hint new : String} (hne : hint ≠ new)

include hne in
theorem Scenario.stepChanges_repaired (s : Scenario) :
    s.stepChanges (s.repaired hint new) = s.steps.zipIdx.filterMap fun (step, index) =>
      if step.hint? = some hint then
        some ⟨s, index, step, { step with target := some new }⟩
      else none := by
  have hzip : s.steps.zip (s.repaired hint new).steps =
      s.steps.map fun step => (step, step.repaired hint new) :=
    zip_map_self (fun step : Step => step.repaired hint new) s.steps
  rw [stepChanges, hzip, List.zipIdx_map, List.filterMap_map]
  refine List.filterMap_congr fun (step, index) _ => ?_
  change (if step = step.repaired hint new then none
      else some (StepChange.mk s index step (step.repaired hint new))) =
    if step.hint? = some hint then some ⟨s, index, step, { step with target := some new }⟩ else none
  by_cases hs : step.hint? = some hint
  · have hchanged : step ≠ { step with target := some new } := by
      intro h
      have htarget := congrArg Step.target h
      rw [(Step.hint?_eq_some_iff.mp hs).2] at htarget
      exact hne (Option.some.inj htarget)
    rw [Step.repaired, if_pos hs, if_neg hchanged, if_pos hs]
  · rw [Step.repaired, if_neg hs, if_pos rfl, if_neg hs]

variable {p q : Plan} (hq : q.cases = p.cases.map fun s => s.repaired hint new)

include hq in
theorem Plan.stepChanges_repaired :
    p.stepChanges q = p.cases.flatMap fun s => s.stepChanges (s.repaired hint new) := by
  rw [stepChanges, hq, zip_map_self, List.flatMap_map]

include hne hq

/-- The steps that differ are those with the hint. -/
theorem Plan.mem_stepChanges_iff {c : StepChange} :
    c ∈ p.stepChanges q ↔ c.scenario ∈ p.cases ∧ c.scenario.steps[c.index]? = some c.before ∧
      c.before.hint? = some hint ∧ c.after = { c.before with target := some new } := by
  rw [stepChanges_repaired hq, List.mem_flatMap]
  simp only [Scenario.stepChanges_repaired hne, List.mem_filterMap, Prod.exists,
    List.mk_mem_zipIdx_iff_getElem?]
  constructor
  · rintro ⟨s, hs, step, index, hstep, hc⟩
    split at hc
    · next hhint =>
      cases hc
      exact ⟨hs, hstep, hhint, rfl⟩
    · cases hc
  · rintro ⟨hs, hstep, hhint, hafter⟩
    refine ⟨c.scenario, hs, c.before, c.index, hstep, ?_⟩
    rw [if_pos hhint, ← hafter]

/-- Healing reports the steps that differ. -/
theorem Plan.map_entry_stepChanges :
    (p.stepChanges q).map StepChange.entry = p.cases.flatMap fun s => s.repairs hint new := by
  rw [stepChanges_repaired hq, List.map_flatMap]
  refine List.flatMap_congr fun s _ => ?_
  rw [Scenario.stepChanges_repaired hne, List.map_filterMap, Scenario.repairs]
  refine List.filterMap_congr fun (step, index) _ => ?_
  dsimp only
  split
  · next hs => simp [StepChange.entry, (Step.hint?_eq_some_iff.mp hs).2]
  · rfl

end Repaired

/-! ## What changes with the hint -/

section Corrections

variable {hint : String} {l : Locator} (hl : Locator.parse hint = .ok l) {new : Locator}
  (hnew : Locator.parse new.render = .ok new) (hr : l.Replaced new)
include hl hnew hr

theorem Locator.Replaced.hint_ne : hint ≠ new.render := by
  rintro rfl
  cases hl.symm.trans hnew
  exact hr.ne rfl

/-- The action of a step changes with the hint, unless the step makes no use of it. -/
theorem Step.action_repaired_ne_iff {s : Step} :
    (s.repaired hint new.render).action ≠ s.action ↔
      s.hint? = some hint ∧ (s.usesHint ∨ s.showsHint) := by
  by_cases hs : s.hint? = some hint
  · rw [repaired, if_pos hs, and_iff_right hs]
    by_cases huses : s.usesHint
    · obtain ⟨a, ha, hold, hother⟩ := action_of_usesHint hs hl hnew huses
      refine iff_of_true (fun h => ?_) (.inl huses)
      rw [hold, hother] at h
      have hlocator := Action.locator?_onto ha new
      rw [Except.ok.inj h, ha] at hlocator
      exact hr.ne (Option.some.inj hlocator)
    · have hkept := (action_of_not_usesHint hs hl hnew huses).2
      split at hkept
      · next hshows =>
        refine iff_of_true (fun h => ?_) (.inr hshows)
        rw [hkept.1, hkept.2] at h
        cases h
        exact Locator.Replaced.hint_ne hl hnew hr rfl
      · next hshows => exact iff_of_false (fun h => h hkept) (fun h => h.elim huses hshows)
  · rw [repaired, if_neg hs]
    exact iff_of_false (fun h => h rfl) fun h => hs h.1

/-- The actions of a scenario change as soon as that of a step does. -/
theorem Scenario.actions_repaired_ne_iff {s : Scenario} {actions : List Action}
    (h : s.Reads actions) :
    (repairedReading hint new.render (s, actions)).2 ≠ actions ↔
      ∃ step ∈ s.steps, step.hint? = some hint ∧ (step.usesHint ∨ step.showsHint) := by
  have hsame : (s.repaired hint new.render).Reads actions ↔
      ∀ step ∈ s.steps, (step.repaired hint new.render).action = step.action := by
    have hsteps {steps : List Step} {actions : List Action}
        (h : List.Forall₂ (fun step a => step.action = .ok a) steps actions) :
        List.Forall₂ (fun step a => step.action = .ok a)
            (steps.map fun step => step.repaired hint new.render) actions ↔
          ∀ step ∈ steps, (step.repaired hint new.render).action = step.action := by
      induction h with
      | nil => simp
      | cons hstep _ ih => rw [List.map_cons, List.forall₂_cons, ih, List.forall_mem_cons, hstep]
    exact hsteps h
  obtain ⟨others, hothers, -⟩ := Scenario.reads_repaired hl hnew hr h
  have hactions : (repairedReading hint new.render (s, actions)).2 = others := by
    rw [repairedReading, Scenario.actions_eq_ok_iff.mpr hothers]
    rfl
  have heq : others = actions ↔ (s.repaired hint new.render).Reads actions := by
    constructor
    · rintro rfl
      exact hothers
    · intro hreads
      cases (Scenario.actions_eq_ok_iff.mpr hothers).symm.trans
        (Scenario.actions_eq_ok_iff.mpr hreads)
      rfl
  rw [hactions, ne_eq, heq, hsame]
  simp only [not_forall, exists_prop, ← Step.action_repaired_ne_iff hl hnew hr, ne_eq]

/-- A change shows in what is executed exactly if the step acts on the element of its hint. -/
theorem StepChange.redirects_iff {c : StepChange} (hhint : c.before.hint? = some hint)
    (hafter : c.after = { c.before with target := some new.render }) :
    c.Redirects ↔ c.before.usesHint := by
  have htarget := (Step.hint?_eq_some_iff.mp hhint).2
  constructor
  · rintro ⟨k, -, a, -, -, -, ha, hbefore, -⟩
    by_contra huses
    cases ha.symm.trans ((Step.action_of_not_usesHint hhint hl hnew huses).1 a hbefore)
  · intro huses
    obtain ⟨a, ha, hold, hother⟩ := Step.action_of_usesHint hhint hl hnew huses
    refine ⟨l, new, a, ?_, ?_, hr.ne, ha, hold, hafter ▸ hother⟩
    · simpa [entry, htarget] using hl
    · simpa [entry, hafter] using hnew

/-- The files of a project change exactly if a scenario that is rendered has a changed step
whose action changes. -/
theorem Plan.files_ne_iff {p q : Plan} (hbase : q.baseUrl = p.baseUrl)
    (hq : q.cases = p.cases.map fun s => s.repaired hint new.render) {f : Framework}
    (hf : f ≠ .xctest) (s : RenderSettings) :
    (f.render s q).files ≠ (f.render s p).files ↔
      ∃ c ∈ p.stepChanges q, c.IsRendered ∧ (c.before.usesHint ∨ c.before.showsHint) := by
  have hmem {c : StepChange} :=
    mem_stepChanges_iff (Locator.Replaced.hint_ne hl hnew hr) hq (c := c)
  obtain ⟨lay, hlay⟩ := Framework.exists_layout hf
  rw [ne_eq, Framework.files_eq_iff hl hnew hr hlay s hbase hq]
  simp only [not_forall, exists_prop]
  constructor
  · rintro ⟨⟨s, actions⟩, hc, hdiffer⟩
    obtain ⟨hs, hreads⟩ := p.sieved.reads hc
    obtain ⟨step, hstep, hhint, huse⟩ :=
      (Scenario.actions_repaired_ne_iff hl hnew hr hreads).mp hdiffer
    obtain ⟨index, hindex⟩ := List.mem_iff_getElem?.mp hstep
    exact ⟨⟨s, index, step, { step with target := some new.render }⟩,
      hmem.mpr ⟨hs, hindex, hhint, rfl⟩, ⟨actions, hreads⟩, huse⟩
  · rintro ⟨c, hc, ⟨actions, hreads⟩, huse⟩
    obtain ⟨hs, hstep, hhint, -⟩ := hmem.mp hc
    exact ⟨(c.scenario, actions), p.sieved.mem_of_reads hs hreads,
      (Scenario.actions_repaired_ne_iff hl hnew hr hreads).mpr
        ⟨c.before, List.mem_of_getElem? hstep, hhint, huse⟩⟩

end Corrections

/-! ## Effective healing -/

/-- **What it takes for healing to change what is executed.**  The changes that healing reports
are the steps that differ.  A change shows in what is executed exactly if the step acts on the
element of its hint, and the files of a project change exactly if a scenario that is rendered
has a step that does, or a note that shows its hint. -/
theorem Plan.heal_effective_iff {p : Plan} {d : Discovery} {evidence : String}
    {healed : HealedPlan} (h : p.heal d evidence = .ok healed) :
    healed.changes = (p.stepChanges healed.plan).map StepChange.entry ∧
    (∀ c ∈ p.stepChanges healed.plan, (c.Redirects ↔ c.before.usesHint)) ∧
    (∀ (f : Framework) (s : RenderSettings), f ≠ .xctest →
      ((f.render s healed.plan).files ≠ (f.render s p).files ↔
        ∃ c ∈ p.stepChanges healed.plan,
          c.IsRendered ∧ (c.before.usesHint ∨ c.before.showsHint))) ∧
    (healed.Effective p ↔ (∀ c ∈ p.stepChanges healed.plan, c.before.usesHint) ∧
      ∃ c ∈ p.stepChanges healed.plan, c.IsRendered) := by
  obtain ⟨hint, l, new, -, hl, halternative, hrepaired⟩ := heal_eq_ok_iff.mp h
  have hnew := halternative.parse_render
  have hr := halternative.replaced
  have hne := Locator.Replaced.hint_ne hl hnew hr
  have hq := hrepaired.cases
  have hredirects : ∀ c ∈ p.stepChanges healed.plan, (c.Redirects ↔ c.before.usesHint) := by
    intro c hc
    obtain ⟨-, -, hhint, hafter⟩ := (mem_stepChanges_iff hne hq).mp hc
    exact StepChange.redirects_iff hl hnew hr hhint hafter
  have hfiles (f : Framework) (s : RenderSettings) (hf : f ≠ .xctest) :
      (f.render s healed.plan).files ≠ (f.render s p).files ↔
        ∃ c ∈ p.stepChanges healed.plan,
          c.IsRendered ∧ (c.before.usesHint ∨ c.before.showsHint) :=
    files_ne_iff hl hnew hr hrepaired.baseUrl hq hf s
  refine ⟨?_, hredirects, hfiles, ?_⟩
  · rw [map_entry_stepChanges hne hq, hrepaired.changes]
  · constructor
    · rintro ⟨hall, hdiffer⟩
      refine ⟨fun c hc => (hredirects c hc).mp (hall c hc), ?_⟩
      obtain ⟨c, hc, hrendered, -⟩ := (hfiles .playwright {} (by decide)).mp (hdiffer _ _ (by decide))
      exact ⟨c, hc, hrendered⟩
    · rintro ⟨hall, c, hc, hrendered⟩
      exact ⟨fun c hc => (hredirects c hc).mpr (hall c hc), fun f s hf =>
        (hfiles f s hf).mpr ⟨c, hc, hrendered, .inl (hall c hc)⟩⟩

namespace Sample

/-- A plan that expects a text, beside which the label of a field is named. -/
def expecting : Plan where
  id := ⟨uuid 1000, 1, none⟩
  baseUrl := "/"
  cases := [{
    id := "see", title := "See", coverage := .statement
    steps := [{ kind := .expectText, target := some "label=Email", value := some "Hi" }] }]
  info := ⟨"sdet", 1, ⟨0, 0⟩⟩

end Sample

/-- The plan that fills a field by its label is healed so that it fills the field by its name,
and the tests are others. -/
theorem Plan.healed_fill_effective : ∃ healed,
    (Sample.plan .statement "label=Email").heal (Sample.discovery "email")
      "getByLabel('Email')" = .ok healed ∧
    healed.Effective (Sample.plan .statement "label=Email") := by
  let p := Sample.plan .statement "label=Email"
  let after := Sample.correction "email"
  let c : StepChange := {
    scenario := { id := "fill", title := "Fill", coverage := .statement
                  steps := [.fill "label=Email" "x"] }
    index := 0, before := .fill "label=Email" "x", after := .fill "name=email" "x" }
  have hheal : p.heal (Sample.discovery "email") "getByLabel('Email')" =
      .ok ⟨after, [⟨"fill", 0, "label=Email", "name=email"⟩]⟩ := by decide +kernel
  have hchanges : p.stepChanges after = [c] := by decide +kernel
  have hread : c.scenario.Reads [.fill (.label "Email") "x"] :=
    Scenario.actions_eq_ok_iff.mp (by decide +kernel)
  refine ⟨_, hheal, (Plan.heal_effective_iff hheal).2.2.2.mpr ?_⟩
  rw [hchanges]
  exact ⟨fun _ h => List.mem_singleton.mp h ▸ rfl, c, List.mem_singleton_self c, _, hread⟩

/-- A step that expects a text has a new hint after healing, and looks for the same text. -/
theorem Plan.healed_without_effect : ∃ healed,
    Sample.expecting.heal (Sample.discovery "email") "getByLabel('Email')" = .ok healed ∧
    healed.changes = [⟨"see", 0, "label=Email", "name=email"⟩] ∧
    (Framework.playwright.render {} healed.plan).files =
      (Framework.playwright.render {} Sample.expecting).files ∧
    ¬ healed.Effective Sample.expecting := by
  let p := Sample.expecting
  let after : Plan := { p with
    id := ⟨Sample.uuid 1000, 2, some ⟨Sample.uuid 1000, 1⟩⟩
    cases := p.cases.map fun s => s.repaired "label=Email" "name=email" }
  have hfiles : (Framework.playwright.render {} after).files =
      (Framework.playwright.render {} p).files := by decide +kernel
  exact ⟨⟨after, [⟨"see", 0, "label=Email", "name=email"⟩]⟩, by decide +kernel, rfl, hfiles,
    fun h => h.files .playwright {} (by decide) hfiles⟩

end Testplan
