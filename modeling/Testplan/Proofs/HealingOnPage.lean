import Testplan.Proofs.CompiledPlans
import Testplan.Proofs.EffectiveHealing
/-!
# Healing across pages

The scenarios of a compiled plan belong to pages, and a step that fills a field, looks for
it or gives it a file was made for a field of that page.  Healing goes by hints, and the
same hint may stand in scenarios of many pages.  It is replaced by what the first field
that fits makes next, wherever that field is, and in all these scenarios alike.

Healing **stays on the page** (`HealedPlan.StaysOnPage`) if each step that it changes finds
in its new way a field of its own page that it could have found in the old way.  Which
fields a plan has steps for is a matter of its patterns (`Pattern.attends`), so this can be
said of the pages alone (`Plan.heal_stays_on_page_iff`): every page with such a field must
have a field that is found in both ways.
-/
namespace Testplan

/-- The step fills a field, gives it a file or looks for it. -/
def Step.isOnField (s : Step) : Bool :=
  match s.kind with
  | .fill | .upload | .expectVisible => true
  | .goto | .click | .expectText | .custom => false

/-- The scenario first visits the page. -/
def Scenario.BeginsOn (s : Scenario) (P : DiscoveredPage) : Prop :=
  s.steps.head? = some (.goto P.path)

/-! ## The fields of scenarios -/

namespace Pattern

/-- **The fields that a pattern makes steps for.** -/
def attends : Pattern → FieldDescriptor → Bool
  | formHappyPath, _ => true
  | requiredValidation, f => f.required && !f.isFile
  | fileUpload, f => f.isFile
  | labelledFields, f => (Text.present? f.label).isSome
  | injectionProbe, f => f.isTextual && !f.isFile
  | pageSmoke, _ | linkNavigation, _ => false

/-- The steps on fields are for fields of the page that the pattern attends to. -/
def OnFields (p : Pattern) (P : DiscoveredPage) (steps : List Step) : Prop :=
  ∀ step ∈ steps, step.isOnField → ∃ f ∈ P.fields, p.attends f ∧ step.target = some f.locator.render

variable {d : Discovery} {P : DiscoveredPage} {s : Scenario} {p : Pattern}

theorem onFields_cons {step : Step} {steps : List Step} (h : step.isOnField = false)
    (hrest : p.OnFields P steps) : p.OnFields P (step :: steps) := by
  intro other hother hfield
  rcases List.mem_cons.mp hother with rfl | hother
  · rw [h] at hfield
    cases hfield
  · exact hrest other hother hfield

/-- Steps that are made of fields that the pattern attends to. -/
theorem onFields_map {fields : List FieldDescriptor} {make : FieldDescriptor → Step}
    (hfields : ∀ f ∈ fields, f ∈ P.fields ∧ p.attends f)
    (hmake : ∀ f, (make f).target = some f.locator.render) {rest : List Step}
    (hrest : p.OnFields P rest) : p.OnFields P (fields.map make ++ rest) := by
  intro step hstep hfield
  rcases List.mem_append.mp hstep with hstep | hstep
  · obtain ⟨f, hf, rfl⟩ := List.mem_map.mp hstep
    exact ⟨f, (hfields f hf).1, (hfields f hf).2, hmake f⟩
  · exact hrest step hstep hfield

theorem onFields_nil : p.OnFields P [] := fun _ h => absurd h List.not_mem_nil

theorem onFields_landmark (Q : Option DiscoveredPage) : p.OnFields P (landmarkSteps Q) := by
  intro step hstep hfield
  obtain ⟨t, -, rfl⟩ := Option.map_eq_some_iff.mp (Option.mem_toList.mp hstep)
  cases hfield

theorem isOnField_followStep (link : DiscoveredLink) : (followStep link).isOnField = false := by
  unfold followStep
  split <;> rfl

theorem target_fillStep (f : FieldDescriptor) : (fillStep f).target = some f.locator.render := by
  unfold fillStep
  split <;> rfl

/-- Some fields of a form are fields of its page. -/
theorem attended_of_filter {form : DiscoveredForm} (hform : form ∈ P.forms)
    {select : FieldDescriptor → Bool} (hselect : ∀ f, select f = true → p.attends f) :
    ∀ f ∈ form.fields.filter select, f ∈ P.fields ∧ p.attends f := by
  intro f hf
  obtain ⟨hf, hs⟩ := List.mem_filter.mp hf
  exact ⟨mem_fields hform hf, hselect f hs⟩

/-- A scenario that visits a page, and goes on with steps on fields of the page. -/
theorem exists_beginsOn_of_steps (hP : P ∈ d.pages) {rest : List Step}
    (hs : s.steps = .goto P.path :: rest) (hrest : p.OnFields P rest) :
    ∃ P ∈ d.pages, s.BeginsOn P ∧ p.OnFields P s.steps := by
  refine ⟨P, hP, ?_, ?_⟩
  · unfold Scenario.BeginsOn
    rw [hs, List.head?_cons]
  · rw [hs]
    exact onFields_cons rfl hrest

/-- **A scenario of a pattern begins on a page, and its steps on fields are for fields of that
page** that the pattern attends to. -/
theorem exists_beginsOn (h : s ∈ p.scenarios d) :
    ∃ P ∈ d.pages, s.BeginsOn P ∧ p.OnFields P s.steps := by
  obtain ⟨P, hP, hmakes⟩ := exists_makes h
  cases hmakes with
  | smoke hs => exact exists_beginsOn_of_steps hP hs (onFields_landmark _)
  | happyPath hform hs =>
    refine exists_beginsOn_of_steps hP hs (onFields_map ?_ target_fillStep
      (onFields_cons rfl onFields_nil))
    exact fun f hf => ⟨mem_fields hform hf, rfl⟩
  | validation hform hs =>
    refine exists_beginsOn_of_steps hP hs (onFields_cons rfl ?_)
    rw [← List.append_nil (List.map _ _)]
    exact onFields_map (attended_of_filter hform fun _ h => h) (fun _ => rfl) onFields_nil
  | upload hform hs =>
    exact exists_beginsOn_of_steps hP hs (onFields_map (attended_of_filter hform fun _ h => h)
      (fun _ => rfl) (onFields_cons rfl onFields_nil))
  | @follow link index hlink hs =>
    subst hs
    exact exists_beginsOn_of_steps hP rfl
      (onFields_cons (isOnField_followStep link) (onFields_landmark _))
  | labels hs =>
    refine exists_beginsOn_of_steps hP hs ?_
    rw [← List.append_nil (List.map _ _)]
    exact onFields_map (fun f hf => List.mem_filter.mp hf) (fun _ => rfl) onFields_nil
  | probe hform hpayload hs =>
    exact exists_beginsOn_of_steps hP hs (onFields_map (attended_of_filter hform fun _ h => h)
      (fun _ => rfl) (onFields_cons rfl (onFields_cons rfl onFields_nil)))

/-! ## The scenarios of fields -/

/-- The scenario that puts a payload into the text fields of a form. -/
def probeCase (page : DiscoveredPage) (form : DiscoveredForm) (index : Nat)
    (tag payload : String) : Scenario where
  id := injectionProbe.caseId page.path (some index) ++ ":" ++ tag
  title := "Injection probe (" ++ tag ++ ") on " ++ page.path
  coverage := .security
  tags := .ofTags ["security", tag]
  risk := some .high
  steps := .goto page.path ::
    ((form.fields.filter fun f => f.isTextual && !f.isFile).map fun f => f.locator.render).map
      (fun t => .fill t payload) ++
    [submitStep form, .custom (tag ++ " payload must not execute or surface a server error")]

theorem injectionScenarios_eq (d : Discovery) :
    injectionScenarios d = d.pages.flatMap fun page =>
      page.forms.zipIdx.flatMap fun (form, index) =>
        if ((form.fields.filter fun f => f.isTextual && !f.isFile).map fun f =>
          f.locator.render).isEmpty then []
        else payloads.map fun (tag, payload) => probeCase page form index tag payload := rfl

/-- A scenario is made for every form that one can be made for. -/
theorem exists_mem_perForm
    {scenario : DiscoveredPage → Option Nat → DiscoveredForm → Option Scenario}
    {Q : Scenario → Prop} {form : DiscoveredForm} (hP : P ∈ d.pages) (hform : form ∈ P.forms)
    (hs : ∀ index, ∃ s, scenario P index form = some s ∧ Q s) :
    ∃ s ∈ perForm d scenario, Q s := by
  obtain ⟨i, hi⟩ := List.mem_iff_getElem?.mp hform
  obtain ⟨s, hsome, hQ⟩ := hs (if 1 < P.forms.length then some i else none)
  refine ⟨s, List.mem_flatMap.mpr ⟨P, hP, List.mem_filterMap.mpr ⟨(_, form), ?_, hsome⟩⟩, hQ⟩
  exact List.mem_map.mpr ⟨(form, i), List.mk_mem_zipIdx_iff_getElem?.mpr hi, rfl⟩

theorem isEmpty_filter_of_mem {fields : List FieldDescriptor} {select : FieldDescriptor → Bool}
    {f : FieldDescriptor} (hf : f ∈ fields) (hs : select f = true) :
    ¬ (fields.filter select).isEmpty = true := by
  rw [List.isEmpty_iff]
  exact List.ne_nil_of_mem (List.mem_filter.mpr ⟨hf, hs⟩)

/-- The scenario has a step on the field. -/
def StepsOn (s : Scenario) (f : FieldDescriptor) : Prop :=
  ∃ step ∈ s.steps, step.isOnField ∧ step.target = some f.locator.render

theorem isOnField_fillStep (f : FieldDescriptor) : (fillStep f).isOnField := by
  unfold fillStep
  split <;> rfl

/-- **A field that a pattern attends to has a step** in a scenario that begins on its page. -/
theorem exists_stepsOn (hP : P ∈ d.pages) {f : FieldDescriptor} (hf : f ∈ P.fields)
    (ha : p.attends f) : ∃ s ∈ p.scenarios d, s.BeginsOn P ∧ StepsOn s f := by
  obtain ⟨form, hform, hff⟩ := List.mem_flatMap.mp hf
  have hmem {select : FieldDescriptor → Bool} (hs : select f = true) :
      f ∈ form.fields.filter select := List.mem_filter.mpr ⟨hff, hs⟩
  cases p with
  | pageSmoke => cases ha
  | linkNavigation => cases ha
  | formHappyPath =>
    unfold scenarios happyPathScenarios
    have hsome : ¬ form.fields.isEmpty = true := by
      rw [List.isEmpty_iff]
      exact List.ne_nil_of_mem hff
    refine exists_mem_perForm hP hform fun index => ⟨_, if_neg hsome, rfl, fillStep f, ?_,
      isOnField_fillStep f, target_fillStep f⟩
    simp [List.mem_map_of_mem hff]
  | requiredValidation =>
    unfold scenarios validationScenarios
    refine exists_mem_perForm hP hform fun index => ⟨_, if_neg (isEmpty_filter_of_mem hff ha), rfl,
      visibleStep f, ?_, rfl, rfl⟩
    exact List.mem_cons_of_mem _ (List.mem_cons_of_mem _ (List.mem_map_of_mem (hmem ha)))
  | fileUpload =>
    unfold scenarios uploadScenarios
    refine exists_mem_perForm hP hform fun index => ⟨_, if_neg (isEmpty_filter_of_mem hff ha), rfl,
      .upload f.locator.render uploadFixture, ?_, rfl, rfl⟩
    exact List.mem_append_left _ (List.mem_cons_of_mem _ (List.mem_map.mpr ⟨f, hmem ha, rfl⟩))
  | labelledFields =>
    refine ⟨_, List.mem_filterMap.mpr ⟨P, hP, if_neg (isEmpty_filter_of_mem hf ha)⟩, rfl,
      visibleStep f, ?_, rfl, rfl⟩
    exact List.mem_cons_of_mem _ (List.mem_map_of_mem (List.mem_filter.mpr ⟨hf, ha⟩))
  | injectionProbe =>
    obtain ⟨i, hi⟩ := List.mem_iff_getElem?.mp hform
    have hsome : ¬ ((form.fields.filter fun f => f.isTextual && !f.isFile).map fun f =>
        f.locator.render).isEmpty = true := by
      rw [List.isEmpty_map]
      exact isEmpty_filter_of_mem hff ha
    refine ⟨probeCase P form i "xss" "<script>alert(1)</script>", ?_, rfl,
      .fill f.locator.render "<script>alert(1)</script>", ?_, rfl, rfl⟩
    · show _ ∈ injectionScenarios d
      rw [injectionScenarios_eq]
      refine List.mem_flatMap.mpr ⟨P, hP, List.mem_flatMap.mpr ⟨(form, i),
        List.mk_mem_zipIdx_iff_getElem?.mpr hi, ?_⟩⟩
      dsimp only
      rw [if_neg hsome]
      exact List.mem_map.mpr ⟨_, List.mem_cons_self, rfl⟩
    · exact List.mem_append_left _ (List.mem_cons_of_mem _
        (List.mem_map_of_mem (List.mem_map.mpr ⟨f, hmem ha, rfl⟩)))

end Pattern

/-! ## Healing and pages -/

/-- **Healing stays on the page**: each step on a field that it changes is given another way
to find a field of the page of its scenario, which was one way to find that field before. -/
def HealedPlan.StaysOnPage (d : Discovery) (p : Plan) (healed : HealedPlan) : Prop :=
  ∀ c ∈ p.stepChanges healed.plan, c.before.isOnField → ∀ P ∈ d.pages, c.scenario.BeginsOn P →
    ∃ l new f, Locator.parse c.entry.old = .ok l ∧ Locator.parse c.entry.new = .ok new ∧
      f ∈ P.fields ∧ f.produces l ∧ f.produces new

theorem Step.hint?_of_isOnField {s : Step} (h : s.isOnField) : s.hint? = s.target := by
  refine if_neg fun hgoto => ?_
  rw [isOnField, hgoto] at h
  cases h

/-- A scenario begins on one page only, if no two pages have the same path. -/
theorem Scenario.BeginsOn.page_eq {d : Discovery}
    (hpaths : (d.pages.map DiscoveredPage.path).Nodup) {s : Scenario} {P Q : DiscoveredPage}
    (hP : P ∈ d.pages) (hQ : Q ∈ d.pages) (h : s.BeginsOn P) (h' : s.BeginsOn Q) : P = Q := by
  refine List.inj_on_of_nodup_map hpaths hP hQ ?_
  have hgoto : Step.goto P.path = .goto Q.path := Option.some.inj (h.symm.trans h')
  exact Option.some.inj (congrArg Step.target hgoto)

/-- The one suspect is the only hint that is read as its locator. -/
theorem Plan.hint_unique_of_sole {p : Plan} {arguments : List String} {hint other : String}
    (h : p.suspects arguments = [hint]) (hother : other ∈ p.hints)
    (hparse : Locator.parse other = Locator.parse hint) : other = hint := by
  have hsuspect : isSuspect arguments other := by
    unfold isSuspect
    rw [hparse]
    exact (mem_suspects_iff.mp (h ▸ List.mem_singleton_self hint)).2
  have hmem := mem_suspects_iff.mpr ⟨hother, hsuspect⟩
  rw [h] at hmem
  exact List.mem_singleton.mp hmem

/-- Whether healing stays on the page is a matter of the steps on fields with the old hint. -/
theorem HealedPlan.staysOnPage_iff {d : Discovery} {p : Plan} {healed : HealedPlan}
    {hint : String} {l new : Locator} (hl : Locator.parse hint = .ok l)
    (hnew : Locator.parse new.render = .ok new) (hne : hint ≠ new.render)
    (hq : healed.plan.cases = p.cases.map fun s => s.repaired hint new.render) :
    healed.StaysOnPage d p ↔
      ∀ s ∈ p.cases, ∀ step ∈ s.steps, step.isOnField → step.target = some hint →
        ∀ P ∈ d.pages, s.BeginsOn P → ∃ f ∈ P.fields, f.produces l ∧ f.produces new := by
  have hmem {c : StepChange} := Plan.mem_stepChanges_iff hne hq (c := c)
  constructor
  · intro hstays s hs step hstep hfield htarget P hP hbegins
    obtain ⟨index, hindex⟩ := List.mem_iff_getElem?.mp hstep
    have hhint : step.hint? = some hint := (Step.hint?_of_isOnField hfield).trans htarget
    obtain ⟨k, k', f, hk, hk', hf, hproduces⟩ :=
      hstays ⟨s, index, step, { step with target := some new.render }⟩
        (hmem.mpr ⟨hs, hindex, hhint, rfl⟩) hfield P hP hbegins
    -- the hints of the change are read as the two locators
    simp only [StepChange.entry, htarget, Option.getD_some] at hk hk'
    cases hl.symm.trans hk
    cases hnew.symm.trans hk'
    exact ⟨f, hf, hproduces⟩
  · intro hsteps c hc hfield P hP hbegins
    obtain ⟨hs, hindex, hhint, hafter⟩ := hmem.mp hc
    have htarget := (Step.hint?_of_isOnField hfield).symm.trans hhint
    obtain ⟨f, hf, hproduces⟩ :=
      hsteps _ hs _ (List.mem_of_getElem? hindex) hfield htarget P hP hbegins
    refine ⟨l, new, f, ?_, ?_, hf, hproduces⟩
    · simpa [StepChange.entry, htarget] using hl
    · simpa [StepChange.entry, hafter] using hnew

theorem compilePlan_cases {fresh : Uuid} {d : Discovery} {env : Environment} {process : Variables}
    {persona : String} {library : PatternLibrary} {generatedAt : Timestamp} {p : Plan}
    (hp : compilePlan fresh d env process persona library generatedAt = .ok p)
    {patterns : List Pattern} (hb : library.bundle persona = .ok patterns) :
    p.cases = patterns.flatMap fun pattern => pattern.scenarios d := by
  unfold compilePlan at hp
  rw [hb] at hp
  cases hr : env.resolve process with
  | error e =>
    rw [hr] at hp
    cases hp
  | ok resolved =>
    rw [hr] at hp
    cases hp
    rfl

/-- **What it takes for healing to stay on the page.**  In a plan compiled for pages with
different paths, healing replaces one way to find a field by another.  It stays on the page
exactly if every page with a field that steps of the plan find in the old way has a field that is
found in both ways. -/
theorem Plan.heal_stays_on_page_iff {fresh : Uuid} {d : Discovery} {env : Environment}
    {process : Variables} {persona : String} {library : PatternLibrary} {generatedAt : Timestamp}
    {p : Plan} (hp : compilePlan fresh d env process persona library generatedAt = .ok p)
    {patterns : List Pattern} (hb : library.bundle persona = .ok patterns)
    (hpaths : (d.pages.map DiscoveredPage.path).Nodup) {evidence : String} {healed : HealedPlan}
    (h : p.heal d evidence = .ok healed) :
    ∃ hint l new, p.suspects (evidenceArguments evidence) = [hint] ∧ Locator.parse hint = .ok l ∧
      d.Alternative l new ∧
      (healed.StaysOnPage d p ↔
        ∀ P ∈ d.pages, ∀ f ∈ P.fields, (∃ pattern ∈ patterns, pattern.attends f) →
          f.locator = l → ∃ g ∈ P.fields, g.produces l ∧ g.produces new) := by
  obtain ⟨hint, l, new, hsole, hl, halternative, hrepaired⟩ := heal_eq_ok_iff.mp h
  refine ⟨hint, l, new, hsole, hl, halternative, ?_⟩
  have hnew := halternative.parse_render
  have hne := Locator.Replaced.hint_ne hl hnew halternative.replaced
  have hcases := compilePlan_cases hp hb
  rw [HealedPlan.staysOnPage_iff hl hnew hne hrepaired.cases]
  constructor
  · rintro hsteps P hP f hf ⟨pattern, hpattern, hattends⟩ rfl
    obtain ⟨s, hs, hbegins, step, hstep, hfield, htarget⟩ :=
      Pattern.exists_stepsOn hP hf hattends
    have hs : s ∈ p.cases := hcases ▸ List.mem_flatMap.mpr ⟨pattern, hpattern, hs⟩
    -- the step on the field has the hint of the suspect
    have hthere : f.locator.render ∈ p.hints :=
      mem_hints_iff.mpr ⟨s, hs, step, hstep, (Step.hint?_of_isOnField hfield).trans htarget⟩
    have hrender := hint_unique_of_sole hsole hthere (f.parse_render_locator.trans hl.symm)
    exact hsteps s hs step hstep hfield (htarget.trans (congrArg some hrender)) P hP hbegins
  · intro hpages s hs step hstep hfield htarget P hP hbegins
    obtain ⟨pattern, hpattern, hs⟩ := List.mem_flatMap.mp (hcases ▸ hs)
    -- the scenario is for one page, and the step for a field of that page
    obtain ⟨Q, hQ, hbegins', honFields⟩ := Pattern.exists_beginsOn hs
    obtain rfl := hbegins'.page_eq hpaths hQ hP hbegins
    obtain ⟨f, hf, hattends, hrender⟩ := honFields step hstep hfield
    have hlocator : f.locator = l := by
      rw [Option.some.inj (htarget.symm.trans hrender), f.parse_render_locator] at hl
      exact Except.ok.inj hl
    exact hpages Q hQ f hf ⟨pattern, hpattern, hattends⟩ hlocator

namespace Sample

/-- An application with two forms, on different pages, for an email address.  The fields have
the same label. -/
def twoForms (first second : String) : Discovery where
  pages := [
    { path := "/a", forms := [{ fields := [{ label := some "Email", name := some first }] }] },
    { path := "/b", forms := [{ fields := [{ label := some "Email", name := some second }] }] }]

/-- The patterns of the automation engineer. -/
def automation : List Pattern := [.pageSmoke, .formHappyPath, .fileUpload, .linkNavigation]

/-- The plan that they make. -/
def compiled (d : Discovery) : Plan :=
  let cases := automation.flatMap fun p => p.scenarios d
  (Plan.create ⟨1⟩ (planBaseUrl d {}) "automation" cases ⟨0, 0⟩).withCoverage
    (coverageProfile cases automation.length)

theorem compilePlan_compiled (d : Discovery) :
    compilePlan ⟨1⟩ d {} .empty "automation" .builtin ⟨0, 0⟩ = .ok (compiled d) := rfl

/-- The next version of the plan, which finds the fields by a name. -/
def renamed (d : Discovery) : Plan :=
  { compiled d with
    id := ⟨⟨1⟩, 2, some ⟨⟨1⟩, 1⟩⟩
    cases := (compiled d).cases.map fun s => s.repaired "label=Email" "name=email" }

end Sample

/-- Where both fields have the same name, too, the steps on both pages are corrected to it. -/
theorem Plan.same_name_on_both_pages : ∃ healed,
    (Sample.compiled (Sample.twoForms "email" "email")).heal (Sample.twoForms "email" "email")
      "  - waiting for getByLabel('Email')" = .ok healed ∧
    healed.StaysOnPage (Sample.twoForms "email" "email")
      (Sample.compiled (Sample.twoForms "email" "email")) := by
  let d := Sample.twoForms "email" "email"
  let p := Sample.compiled d
  have hheal : p.heal d "  - waiting for getByLabel('Email')" = .ok ⟨Sample.renamed d,
      [⟨"form-happy-path:/a", 1, "label=Email", "name=email"⟩,
        ⟨"form-happy-path:/b", 1, "label=Email", "name=email"⟩]⟩ := by decide +kernel
  have hsuspects : p.suspects (evidenceArguments "  - waiting for getByLabel('Email')") =
      ["label=Email"] := by decide +kernel
  have hparse : Locator.parse "label=Email" = .ok (.label "Email") := by decide +kernel
  have hboth : ∀ P ∈ d.pages, ∀ f ∈ P.fields,
      f.produces (.label "Email") ∧ f.produces (.name "email") := by decide +kernel
  have hbundle : PatternLibrary.builtin.bundle "automation" = .ok Sample.automation := rfl
  obtain ⟨hint, l, new, hs, hl, halternative, hstays⟩ :=
    Plan.heal_stays_on_page_iff (Sample.compilePlan_compiled d) hbundle (by decide) hheal
  cases hsuspects.symm.trans hs
  cases hparse.symm.trans hl
  have hnew : d.alternative? (.label "Email") = some (.name "email") := by decide +kernel
  cases hnew.symm.trans (Discovery.alternative?_eq_some_iff.mpr halternative)
  exact ⟨_, hheal, hstays.mpr fun P hP f hf _ _ => ⟨f, hf, hboth P hP f hf⟩⟩

/-- Where the fields have different names, the steps on both pages are corrected to the name of
the first field, which no field of the second page has. -/
theorem Plan.name_of_other_page : ∃ p healed,
    compilePlan ⟨1⟩ (Sample.twoForms "email" "mail") {} .empty "automation" .builtin ⟨0, 0⟩ =
      .ok p ∧
    ((Sample.twoForms "email" "mail").pages.map DiscoveredPage.path).Nodup ∧
    p.heal (Sample.twoForms "email" "mail") "  - waiting for getByLabel('Email')" = .ok healed ∧
    ¬ healed.StaysOnPage (Sample.twoForms "email" "mail") p := by
  let d := Sample.twoForms "email" "mail"
  let p := Sample.compiled d
  let after := Sample.renamed d
  let P : DiscoveredPage :=
    { path := "/b", forms := [{ fields := [{ label := some "Email", name := some "mail" }] }] }
  let before : Step := .fill "label=Email" "qa+auto@example.com"
  have hheal : p.heal d "  - waiting for getByLabel('Email')" = .ok ⟨after,
      [⟨"form-happy-path:/a", 1, "label=Email", "name=email"⟩,
        ⟨"form-happy-path:/b", 1, "label=Email", "name=email"⟩]⟩ := by decide +kernel
  have hchange : ∃ c ∈ p.stepChanges after, c.before.isOnField ∧ c.scenario.BeginsOn P ∧
      c.entry.old = "label=Email" ∧ c.entry.new = "name=email" := by
    unfold Scenario.BeginsOn
    decide +kernel
  have hno : ¬ ∃ f ∈ P.fields, f.produces (.name "email") := by decide +kernel
  refine ⟨p, _, Sample.compilePlan_compiled d, by decide, hheal, fun hstays => ?_⟩
  obtain ⟨c, hc, hfield, hbegins, hold, hnew⟩ := hchange
  obtain ⟨l, new, f, -, hparse, hf, -, hproduces⟩ :=
    hstays c hc hfield P (List.mem_cons_of_mem _ List.mem_cons_self) hbegins
  have hname : Locator.parse "name=email" = .ok (.name "email") := by decide +kernel
  rw [hnew, hname] at hparse
  cases hparse
  exact hno ⟨f, hf, hproduces⟩

end Testplan
