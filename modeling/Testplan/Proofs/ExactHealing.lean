import Mathlib.Data.List.Basic
import Testplan.Healing
import Testplan.Loading
import Testplan.Proofs.Schedule
/-!
# Healing changes what the evidence names, and nothing else

The evidence of a failed run names elements by texts.  A hint is a **suspect** if it can
be read and its text is one of them; what counts is the hint as it is written, wherever
in the plan it stands and however often (`Plan.suspects`).

A plan is healed exactly if there is one suspect and something else is known about its
element (`Plan.heal_exact`).  The loop behind it goes by steps and by locators, so the
proof first says which steps are implicated in terms of their hints
(`Step.implicated?_eq_some_iff`).  With one suspect these are the steps with that hint,
all of them, and the healed plan is the plan with that hint replaced (`Plan.Repaired`).
-/
namespace Testplan

/-! ## Suspects -/

/-- The hint of a step.  A step that opens a page has a URL in its place. -/
def Step.hint? (s : Step) : Option String := if s.kind = .goto then none else s.target

/-- The hints of all steps, in plan order. -/
def Plan.hints (p : Plan) : List String :=
  p.cases.flatMap fun s => s.steps.filterMap Step.hint?

/-- The hint can be read, and its text is one of the arguments. -/
def isSuspect (arguments : List String) (hint : String) : Bool :=
  match Locator.parse hint with
  | .error _ => false
  | .ok l => l.payload.any (· ∈ arguments)

/-- **The suspects** of a plan: different hints, by their first steps. -/
def Plan.suspects (p : Plan) (arguments : List String) : List String :=
  (p.hints.filter (isSuspect arguments)).eraseDups

theorem isSuspect_iff {arguments : List String} {hint : String} :
    isSuspect arguments hint ↔
      ∃ l t, Locator.parse hint = .ok l ∧ l.payload = some t ∧ t ∈ arguments := by
  unfold isSuspect
  cases Locator.parse hint with
  | error e => simp
  | ok l => simp [Option.any_eq_true]

theorem Plan.mem_hints_iff {p : Plan} {hint : String} :
    hint ∈ p.hints ↔ ∃ s ∈ p.cases, ∃ step ∈ s.steps, step.hint? = some hint := by
  simp [hints]

theorem Plan.mem_suspects_iff {p : Plan} {arguments : List String} {hint : String} :
    hint ∈ p.suspects arguments ↔ hint ∈ p.hints ∧ isSuspect arguments hint := by
  simp [suspects, List.mem_eraseDups]

/-- A suspect that every suspect is equal to is the only one. -/
theorem Plan.suspects_eq_singleton {p : Plan} {arguments : List String} {hint : String}
    (hmem : hint ∈ p.hints) (hsuspect : isSuspect arguments hint)
    (hsole : ∀ other ∈ p.hints, isSuspect arguments other → other = hint) :
    p.suspects arguments = [hint] := by
  have hsame : ∀ other ∈ p.hints.filter (isSuspect arguments), other = hint := by
    intro other hother
    obtain ⟨hother, hs⟩ := List.mem_filter.mp hother
    exact hsole other hother hs
  have hthere : hint ∈ p.hints.filter (isSuspect arguments) := List.mem_filter.mpr ⟨hmem, hsuspect⟩
  unfold suspects
  cases hf : p.hints.filter (isSuspect arguments) with
  | nil =>
    rw [hf] at hthere
    cases hthere
  | cons first others =>
    rw [hf] at hsame
    obtain ⟨rfl, hothers⟩ := List.forall_mem_cons.mp hsame
    rw [List.eraseDups_cons, List.filter_eq_nil_iff.mpr, List.eraseDups_nil]
    intro other hother
    simp [hothers other hother]

/-! ## Another locator -/

/-- After the rule of a kind, `l` is what the next rule that applies makes of the
field. -/
def FieldDescriptor.NextRule (f : FieldDescriptor) (failed : LocatorKind) (l : Locator) : Prop :=
  ∃ before rule between next after,
    fieldRules = before ++ rule :: (between ++ next :: after) ∧ rule.1 = failed ∧
      (∀ r ∈ between, r.2 f = none) ∧ next.2 f = some l

/-- The first field of which some rule makes the locator. -/
def Discovery.FirstProducer (d : Discovery) (l : Locator) (f : FieldDescriptor) : Prop :=
  ∃ before after, d.fields = before ++ f :: after ∧ f.produces l ∧
    ∀ g ∈ before, ¬ g.produces l

/-- **What else is known about an element**: the first element of a role for one with a
name, and the next rule of the field that the locator came from. -/
inductive Discovery.Alternative (d : Discovery) : Locator → Locator → Prop
  | role (r : Role) (name : String) : d.Alternative (.role r name) (.firstOfRole r)
  | field {l new : Locator} {f : FieldDescriptor}
      (kind : l.kind ∈ [LocatorKind.label, .placeholder, .name, .inputType])
      (first : d.FirstProducer l f) (next : f.NextRule l.kind new) : d.Alternative l new

theorem nodup_fieldRules : (fieldRules.map Prod.fst).Nodup := by decide

/-- The next locator after a rule is what the rules behind it make of the field. -/
theorem FieldDescriptor.locatorAfter_of_split {before after}
    {rule : LocatorKind × (FieldDescriptor → Option Locator)}
    (h : fieldRules = before ++ rule :: after) (f : FieldDescriptor) :
    f.locatorAfter rule.1 = after.findSome? fun rule => rule.2 f := by
  have hfresh : ∀ r ∈ before, r.1 ≠ rule.1 := by
    have hnodup := nodup_fieldRules
    rw [h, List.map_append, List.map_cons, List.nodup_append] at hnodup
    exact fun r hr => hnodup.2.2 _ (List.mem_map_of_mem hr) _ (by simp)
  have hindex : (fieldRules.findIdx? fun r => r.1 = rule.1) = some before.length := by
    rw [h, List.findIdx?_append, List.findIdx?_eq_none_iff.mpr (by simpa using hfresh)]
    simp [List.findIdx?_cons]
  unfold locatorAfter
  rw [hindex, Option.bind_eq_bind, Option.bind_some, h]
  simp

theorem FieldDescriptor.locatorAfter_eq_some_iff {f : FieldDescriptor} {failed : LocatorKind}
    {l : Locator} : f.locatorAfter failed = some l ↔ f.NextRule failed l := by
  constructor
  · intro h
    unfold locatorAfter at h
    rw [Option.bind_eq_bind, Option.bind_eq_some_iff] at h
    obtain ⟨i, hi, hl⟩ := h
    obtain ⟨hlt, hf, -⟩ := List.findIdx?_eq_some_iff_getElem.mp hi
    obtain ⟨between, next, after, hd, hn, hb⟩ := List.findSome?_eq_some_iff.mp hl
    refine ⟨fieldRules.take i, fieldRules[i], between, next, after, ?_, by simpa using hf, hb, hn⟩
    rw [← hd, List.getElem_cons_drop, List.take_append_drop]
  · rintro ⟨before, rule, between, next, after, he, rfl, hb, hn⟩
    rw [locatorAfter_of_split he, List.findSome?_eq_some_iff]
    exact ⟨between, next, after, rfl, hn, hb⟩

theorem Discovery.firstProducer_iff {d : Discovery} {l : Locator} {f : FieldDescriptor} :
    d.fields.find? (fun g => g.produces l) = some f ↔ d.FirstProducer l f := by
  rw [List.find?_eq_some_iff_append]
  constructor
  · rintro ⟨hf, before, after, hd, hb⟩
    exact ⟨before, after, hd, hf, by simpa using hb⟩
  · rintro ⟨before, after, hd, hf, hb⟩
    exact ⟨hf, before, after, hd, by simpa using hb⟩

theorem Discovery.viaField_eq_some_iff {d : Discovery} {l new : Locator}
    (hk : l.kind ∈ [LocatorKind.label, .placeholder, .name, .inputType]) :
    alternative?.viaField d l = some new ↔ d.Alternative l new := by
  simp only [alternative?.viaField, Option.bind_eq_some_iff, firstProducer_iff,
    FieldDescriptor.locatorAfter_eq_some_iff]
  constructor
  · rintro ⟨f, hf, hn⟩
    exact .field hk hf hn
  · intro h
    cases h with
    | role r name => simp [Locator.kind] at hk
    | field _ hf hn => exact ⟨_, hf, hn⟩

theorem Discovery.alternative?_eq_some_iff {d : Discovery} {l new : Locator} :
    d.alternative? l = some new ↔ d.Alternative l new := by
  -- a locator of the other kinds has no alternative on either side
  have other (hk : l.kind ∉ [LocatorKind.label, .placeholder, .name, .inputType])
      (hr : l.kind ≠ .role) : ¬ d.Alternative l new := by
    intro h
    cases h with
    | role r name => exact hr rfl
    | field hk' => exact hk hk'
  cases l with
  | label t => exact viaField_eq_some_iff (by simp [Locator.kind])
  | placeholder t => exact viaField_eq_some_iff (by simp [Locator.kind])
  | name t => exact viaField_eq_some_iff (by simp [Locator.kind])
  | inputType t => exact viaField_eq_some_iff (by simp [Locator.kind])
  | role r name =>
    constructor
    · intro h
      cases h
      exact .role r name
    · intro h
      cases h with
      | role => rfl
      | field hk => simp [Locator.kind] at hk
  | firstField => simpa [alternative?] using other (by simp [Locator.kind]) (by simp [Locator.kind])
  | firstOfRole r =>
    simpa [alternative?] using other (by simp [Locator.kind]) (by simp [Locator.kind])
  | text t => simpa [alternative?] using other (by simp [Locator.kind]) (by simp [Locator.kind])
  | css s => simpa [alternative?] using other (by simp [Locator.kind]) (by simp [Locator.kind])

/-! ## Implicated steps -/

/-- The text of a locator has no blanks at its ends, so stripping it changes nothing. -/
theorem Locator.any_strip_payload {hint : String} {l : Locator} (h : parse hint = .ok l)
    (arguments : List String) :
    (l.payload.any fun t => Text.strip t ∈ arguments) = l.payload.any (· ∈ arguments) := by
  cases ht : l.payload with
  | none => rfl
  | some t => rw [Option.any_some, Option.any_some, strip_payload_of_parse h ht]

theorem Step.implicated?_eq_some_iff {arguments : List String} {s : Step} {hint : String}
    {l : Locator} : s.implicated? arguments = some (hint, l) ↔
      s.hint? = some hint ∧ Locator.parse hint = .ok l ∧ isSuspect arguments hint := by
  unfold implicated? hint? isSuspect
  by_cases hk : s.kind = .goto
  · simp [hk]
  · rw [if_neg hk, if_neg hk]
    cases s.target with
    | none => simp
    | some target =>
      rw [Option.some.injEq]
      dsimp only
      cases hp : Locator.parse target with
      | error e =>
        constructor
        · intro h
          cases h
        · rintro ⟨rfl, h, -⟩
          cases hp.symm.trans h
      | ok found =>
        dsimp only
        rw [Locator.any_strip_payload hp]
        constructor
        · intro h
          split at h
          · next hi =>
            cases h
            rw [hp]
            exact ⟨rfl, rfl, hi⟩
          · cases h
        · rintro ⟨rfl, h, hi⟩
          rw [hp] at h hi
          cases h
          rw [if_pos hi]

theorem Step.map_implicated? (arguments : List String) (s : Step) :
    (s.implicated? arguments).map Prod.fst = s.hint?.filter (isSuspect arguments) := by
  ext hint
  rw [Option.map_eq_some_iff, Option.filter_eq_some_iff]
  constructor
  · rintro ⟨⟨_, l⟩, h, rfl⟩
    obtain ⟨ht, -, hs⟩ := implicated?_eq_some_iff.mp h
    exact ⟨ht, hs⟩
  · rintro ⟨ht, hs⟩
    obtain ⟨l, -, hl, -⟩ := isSuspect_iff.mp hs
    exact ⟨(hint, l), implicated?_eq_some_iff.mpr ⟨ht, hl, hs⟩, rfl⟩

theorem Plan.map_implicated (p : Plan) (arguments : List String) :
    (p.implicated arguments).map Prod.fst = p.hints.filter (isSuspect arguments) := by
  simp only [implicated, hints, List.map_flatMap, List.map_filterMap, List.filter_flatMap,
    List.filter_filterMap, Step.map_implicated?]

theorem Plan.parse_of_mem_implicated {p : Plan} {arguments : List String} {hint : String}
    {l : Locator} (h : (hint, l) ∈ p.implicated arguments) : Locator.parse hint = .ok l := by
  obtain ⟨s, -, hs⟩ := List.mem_flatMap.mp h
  obtain ⟨step, -, hi⟩ := List.mem_filterMap.mp hs
  exact (Step.implicated?_eq_some_iff.mp hi).2.1

/-- A step is implicated by its hint, if there is only one suspect. -/
theorem Plan.implicated?_of_sole {p : Plan} {arguments : List String} {hint : String}
    (h : p.suspects arguments = [hint]) {s : Scenario} (hs : s ∈ p.cases) {step : Step}
    (hstep : step ∈ s.steps) {l : Locator} (hl : Locator.parse hint = .ok l) :
    step.implicated? arguments = if step.hint? = some hint then some (hint, l) else none := by
  have hsole (other : String) : other ∈ p.hints ∧ isSuspect arguments other ↔ other = hint := by
    rw [← mem_suspects_iff, h, List.mem_singleton]
  split
  · next ht =>
    exact Step.implicated?_eq_some_iff.mpr ⟨ht, hl, ((hsole hint).mpr rfl).2⟩
  · next ht =>
    cases hi : step.implicated? arguments with
    | none => rfl
    | some found =>
      obtain ⟨ho, -, hsus⟩ := Step.implicated?_eq_some_iff.mp hi
      have hmem : found.1 ∈ p.hints := mem_hints_iff.mpr ⟨s, hs, step, hstep, ho⟩
      rw [(hsole found.1).mp ⟨hmem, hsus⟩] at ho
      exact absurd ho ht

/-! ## The healed plan -/

/-- The plan says how many scenarios it has. -/
def Plan.Counted (p : Plan) : Prop := p.info.count = p.cases.length

theorem Plan.counted_create (fresh : Uuid) (baseUrl persona : String) (cases : List Scenario)
    (generatedAt : Timestamp) : (create fresh baseUrl persona cases generatedAt).Counted := rfl

theorem Plan.counted_derived (p : Plan) (id : PlanId) (cases : List Scenario) :
    (p.derived id cases).Counted := rfl

theorem Plan.counted_of_ofFileDocument {d : Option Document} {p : Plan}
    (h : ofFileDocument d = .ok p) : p.Counted := by
  unfold ofFileDocument at h
  split at h
  · cases h
  · split at h
    · next hc =>
      cases h
      exact hc
    · cases h

/-- The scenario where all steps with a hint have a new one. -/
def Scenario.repaired (s : Scenario) (hint new : String) : Scenario :=
  { s with steps := s.steps.map fun step =>
      if step.hint? = some hint then { step with target := some new } else step }

/-- The steps of a scenario with a hint, by their places. -/
def Scenario.repairs (s : Scenario) (hint new : String) : List HealedStep :=
  s.steps.zipIdx.filterMap fun (step, index) =>
    if step.hint? = some hint then
      some { scenarioId := s.id, stepIndex := index, old := hint, new }
    else none

/-- **A plan repaired**: its next version, where the steps with a hint have a new one and
all else is as before, with the list of these steps. -/
structure Plan.Repaired (p : Plan) (hint new : String) (healed : HealedPlan) : Prop where
  lineage : healed.plan.id.id = p.id.id
  version : healed.plan.id.version.toNat = p.id.version.toNat + 1
  parent : healed.plan.id.parent = some p.ref
  baseUrl : healed.plan.baseUrl = p.baseUrl
  cases : healed.plan.cases = p.cases.map fun s => s.repaired hint new
  coverage : healed.plan.coverage = p.coverage
  /-- The number of scenarios is stated anew. -/
  info : healed.plan.info = { p.info with count := p.cases.length }
  same_info : p.Counted → healed.plan.info = p.info
  changes : healed.changes = p.cases.flatMap fun s => s.repairs hint new

theorem Plan.retargeted_of_sole {p : Plan} {arguments : List String} {hint : String}
    (h : p.suspects arguments = [hint]) {l : Locator} (hl : Locator.parse hint = .ok l)
    {s : Scenario} (hs : s ∈ p.cases) (new : String) :
    s.retargeted arguments new = s.repaired hint new := by
  have hsteps : (s.retargeted arguments new).steps = (s.repaired hint new).steps := by
    refine List.map_congr_left fun step hstep => ?_
    rw [implicated?_of_sole h hs hstep hl]
    by_cases ht : step.hint? = some hint <;> simp [ht, Step.retargeted]
  show { s with steps := (s.retargeted arguments new).steps } = s.repaired hint new
  rw [hsteps]
  rfl

theorem Plan.changes_of_sole {p : Plan} {arguments : List String} {hint : String}
    (h : p.suspects arguments = [hint]) {l : Locator} (hl : Locator.parse hint = .ok l)
    {s : Scenario} (hs : s ∈ p.cases) (new : String) :
    s.changes arguments new = s.repairs hint new := by
  unfold Scenario.changes Scenario.repairs
  refine List.filterMap_congr fun (step, index) hmem => ?_
  dsimp only
  rw [implicated?_of_sole h hs (List.fst_mem_of_mem_zipIdx hmem) hl]
  by_cases ht : step.hint? = some hint <;> simp [ht]

/-- The next version is one more, unless the version is the last one that there is. -/
theorem toNat_next_version {v : UInt32} (h : v.toNat + 1 < UInt32.size) :
    (v + 1).toNat = v.toNat + 1 := by
  rw [UInt32.toNat_add]
  exact Nat.mod_eq_of_lt h

/-- The plan that healing makes of a sole suspect, if the plan has a next version. -/
theorem Plan.repaired_iff {p : Plan} {hint new : String} {healed : HealedPlan} :
    p.Repaired hint new healed ↔
      p.revise? (p.cases.map fun s => s.repaired hint new) = some healed.plan ∧
        healed.changes = p.cases.flatMap fun s => s.repairs hint new := by
  rw [revise?_eq_some_iff]
  constructor
  · intro hr
    obtain ⟨⟨⟨id, version, parent⟩, baseUrl, cases, info, coverage⟩, changes⟩ := healed
    obtain ⟨rfl, hver, rfl, rfl, rfl, rfl, rfl, -, rfl⟩ := hr
    have hver : version.toNat = p.id.version.toNat + 1 := hver
    have hroom : p.id.version.toNat + 1 < UInt32.size := hver ▸ version.toNat_lt_size
    have : version = p.id.version + 1 :=
      UInt32.toNat_inj.mp (hver.trans (toNat_next_version hroom).symm)
    refine ⟨⟨hroom, ?_⟩, rfl⟩
    simp [derived, this]
  · rintro ⟨⟨hroom, hplan⟩, hchanges⟩
    obtain ⟨plan, changes⟩ := healed
    obtain rfl := hplan
    obtain rfl := hchanges
    have hinfo : (p.derived { id := p.id.id, version := p.id.version + 1, parent := some p.ref }
        (p.cases.map fun s => s.repaired hint new)).info =
        { p.info with count := p.cases.length } := by
      simp [derived]
    exact {
      lineage := rfl
      version := toNat_next_version hroom
      parent := rfl
      baseUrl := rfl
      cases := rfl
      coverage := rfl
      info := hinfo
      same_info := fun hc => by rw [hinfo, ← hc]
      changes := rfl }

/-! ## The outcome of healing -/

theorem Plan.suspects_eq (p : Plan) (arguments : List String) :
    p.suspects arguments = ((p.implicated arguments).map Prod.fst).eraseDups := by
  rw [map_implicated, suspects]

/-- The suspects after the first are those of the implicated steps with another hint. -/
theorem Plan.suspects_of_implicated {p : Plan} {arguments : List String} {hint : String}
    {l : Locator} {others : List (String × Locator)}
    (h : p.implicated arguments = (hint, l) :: others) :
    p.suspects arguments =
      hint :: ((others.map Prod.fst).filter fun other => other ≠ hint).eraseDups := by
  have hother : (fun other => !other == hint) = fun other => decide (other ≠ hint) := by
    funext other
    rw [decide_not, beq_eq_decide]
  rw [suspects_eq, h, List.map_cons, List.eraseDups_cons, hother]

/-- How a plan with one suspect is healed when something else is known about the element. -/
def Plan.revisedTo (p : Plan) (hint new : String) : HealResult :=
  match p.revise? (p.cases.map fun s => s.repaired hint new) with
  | none => .overflow
  | some plan => .ok { plan, changes := p.cases.flatMap fun s => s.repairs hint new }

theorem Plan.revisedTo_eq_ok_iff {p : Plan} {hint new : String} {healed : HealedPlan} :
    p.revisedTo hint new = .ok healed ↔ p.Repaired hint new healed := by
  rw [repaired_iff]
  unfold revisedTo
  cases p.revise? (p.cases.map fun s => s.repaired hint new) with
  | none => exact iff_of_false nofun fun h => nomatch h.1
  | some q =>
    obtain ⟨plan, changes⟩ := healed
    simp [eq_comm]

theorem Plan.revisedTo_eq_overflow_iff {p : Plan} {hint new : String} :
    p.revisedTo hint new = .overflow ↔ p.id.version.toNat + 1 = UInt32.size := by
  unfold revisedTo
  cases hp : p.revise? (p.cases.map fun s => s.repaired hint new) with
  | none => exact iff_of_true rfl (revise?_eq_none_iff.mp hp)
  | some q =>
    refine iff_of_false nofun fun hlast => ?_
    cases hp.symm.trans (revise?_eq_none_iff.mpr hlast)

theorem Plan.revisedTo_of_room {p : Plan} (hint new : String)
    (h : p.id.version.toNat + 1 < UInt32.size) : ∃ healed, p.revisedTo hint new = .ok healed := by
  have hplan : p.revise? (p.cases.map fun s => s.repaired hint new) = some _ := if_pos h
  unfold revisedTo
  rw [hplan]
  exact ⟨_, rfl⟩

theorem Plan.revisedTo_ne_error {p : Plan} {hint new : String} {e : HealError} :
    p.revisedTo hint new ≠ .error e := by
  unfold revisedTo
  cases p.revise? (p.cases.map fun s => s.repaired hint new) <;> exact nofun

/-- How a plan is healed depends on the suspects alone: no suspect, different suspects, or
one suspect with a locator. -/
theorem Plan.heal_cases (p : Plan) (d : Discovery) (evidence : String) :
    (p.suspects (evidenceArguments evidence) = [] ∧ p.heal d evidence = .error .noEvidence) ∨
    (∃ a b rest, p.suspects (evidenceArguments evidence) = a :: b :: rest ∧
      p.heal d evidence = .error (.ambiguous a b)) ∨
    (∃ hint l, p.suspects (evidenceArguments evidence) = [hint] ∧ Locator.parse hint = .ok l ∧
      p.heal d evidence =
        match d.alternative? l with
        | none => .error (.noAlternative hint)
        | some replacement => p.revisedTo hint replacement.render) := by
  unfold heal
  cases hi : p.implicated (evidenceArguments evidence) with
  | nil =>
    left
    exact ⟨by rw [suspects_eq, hi]; rfl, by simp only [hi]⟩
  | cons first others =>
    obtain ⟨hint, l⟩ := first
    have hs := suspects_of_implicated hi
    right
    cases hf : others.find? (fun other => other.1 ≠ hint) with
    | some found =>
      left
      -- the first implicated step with another hint gives the second suspect
      obtain ⟨hne, before, after, rfl, hb⟩ := List.find?_eq_some_iff_append.mp hf
      have hnone : (before.map Prod.fst).filter (fun other => other ≠ hint) = [] := by
        simpa using hb
      rw [List.map_append, List.map_cons, List.filter_append, hnone, List.nil_append,
        List.filter_cons_of_pos (by simpa using hne), List.eraseDups_cons] at hs
      refine ⟨hint, found.1, _, hs, ?_⟩
      simp only [hi, hf]
    | none =>
      right
      have hnone : (others.map Prod.fst).filter (fun other => other ≠ hint) = [] := by
        simpa using hf
      rw [hnone, List.eraseDups_nil] at hs
      have hl := parse_of_mem_implicated (hi ▸ List.mem_cons_self)
      refine ⟨hint, l, hs, hl, ?_⟩
      cases ha : d.alternative? l with
      | none => simp only [hi, hf, ha]
      | some new =>
        have hcases : p.cases.map (fun s => s.retargeted (evidenceArguments evidence) new.render) =
            p.cases.map fun s => s.repaired hint new.render :=
          List.map_congr_left fun s hmem => retargeted_of_sole hs hl hmem new.render
        have hchanges : p.cases.flatMap (fun s => s.changes (evidenceArguments evidence)
            new.render) = p.cases.flatMap fun s => s.repairs hint new.render :=
          List.flatMap_congr fun s hmem => changes_of_sole hs hl hmem new.render
        simp only [hi, hf, ha, hcases, hchanges]
        rfl

theorem Plan.suspects_of_noEvidence {p : Plan} {d : Discovery} {evidence : String}
    (h : p.heal d evidence = .error .noEvidence) :
    p.suspects (evidenceArguments evidence) = [] := by
  rcases p.heal_cases d evidence with ⟨hs, -⟩ | ⟨a, b, rest, -, hheal⟩ | ⟨hint, l, -, -, hheal⟩
  · exact hs
  · cases h.symm.trans hheal
  · rw [hheal] at h
    cases ha : d.alternative? l with
    | none =>
      rw [ha] at h
      cases h
    | some new =>
      rw [ha] at h
      exact absurd h revisedTo_ne_error

/-- How a plan with one suspect is healed. -/
theorem Plan.heal_of_sole {p : Plan} {evidence hint : String}
    (hs : p.suspects (evidenceArguments evidence) = [hint]) {l : Locator}
    (hl : Locator.parse hint = .ok l) (d : Discovery) :
    (∃ new, d.Alternative l new ∧ p.heal d evidence = p.revisedTo hint new.render) ∨
    (∀ new, ¬ d.Alternative l new) ∧ p.heal d evidence = .error (.noAlternative hint) := by
  rcases p.heal_cases d evidence with
    ⟨hnone, -⟩ | ⟨a, b, rest, hsome, -⟩ | ⟨hint', l', hone, hl', hheal⟩
  · cases hs.symm.trans hnone
  · cases hs.symm.trans hsome
  · cases hs.symm.trans hone
    cases hl.symm.trans hl'
    rw [hheal]
    cases ha : d.alternative? l with
    | none =>
      right
      refine ⟨fun new hnew => ?_, rfl⟩
      cases ha.symm.trans (Discovery.alternative?_eq_some_iff.mpr hnew)
    | some new =>
      exact .inl ⟨new, Discovery.alternative?_eq_some_iff.mp ha, rfl⟩

/-- If something else is known about the element of a sole suspect, its hint is replaced. -/
theorem Plan.heal_of_alternative {p : Plan} {d : Discovery} {evidence hint : String}
    (hs : p.suspects (evidenceArguments evidence) = [hint]) {l : Locator}
    (hl : Locator.parse hint = .ok l) {new : Locator} (hnew : d.Alternative l new) :
    p.heal d evidence = p.revisedTo hint new.render := by
  rcases heal_of_sole hs hl d with ⟨other, hother, hheal⟩ | ⟨hno, -⟩
  · cases (Discovery.alternative?_eq_some_iff.mpr hnew).symm.trans
      (Discovery.alternative?_eq_some_iff.mpr hother)
    exact hheal
  · exact absurd hnew (hno new)

/-- Where healing reports no error, something else is known about the element of a sole
suspect. -/
theorem Plan.exists_alternative_of_heal {p : Plan} {d : Discovery} {evidence : String}
    (h : ∀ e, p.heal d evidence ≠ .error e) :
    ∃ hint l new, p.suspects (evidenceArguments evidence) = [hint] ∧
      Locator.parse hint = .ok l ∧ d.Alternative l new ∧
      p.heal d evidence = p.revisedTo hint new.render := by
  rcases p.heal_cases d evidence with ⟨-, hno⟩ | ⟨a, b, rest, -, hno⟩ | ⟨hint, l, hs, hl, -⟩
  · exact absurd hno (h _)
  · exact absurd hno (h _)
  · rcases heal_of_sole hs hl d with ⟨new, hnew, hheal⟩ | ⟨-, hno⟩
    · exact ⟨hint, l, new, hs, hl, hnew, hheal⟩
    · exact absurd hno (h _)

/-- A plan is corrected exactly if there is one suspect, something else is known about its
element, and the plan has a next version. -/
theorem Plan.heal_eq_ok_iff {p : Plan} {d : Discovery} {evidence : String} {healed : HealedPlan} :
    p.heal d evidence = .ok healed ↔
      ∃ hint l new, p.suspects (evidenceArguments evidence) = [hint] ∧
        Locator.parse hint = .ok l ∧ d.Alternative l new ∧ p.Repaired hint new.render healed := by
  constructor
  · intro h
    obtain ⟨hint, l, new, hs, hl, hnew, hheal⟩ :=
      exists_alternative_of_heal (p := p) (d := d) fun e he => nomatch h.symm.trans he
    exact ⟨hint, l, new, hs, hl, hnew, revisedTo_eq_ok_iff.mp (hheal.symm.trans h)⟩
  · rintro ⟨hint, l, new, hs, hl, hnew, hr⟩
    exact (heal_of_alternative hs hl hnew).trans (revisedTo_eq_ok_iff.mpr hr)

/-- A corrected plan is the next version. -/
theorem Plan.exists_revise?_of_heal {p : Plan} {d : Discovery} {evidence : String}
    {healed : HealedPlan} (h : p.heal d evidence = .ok healed) :
    ∃ cases, p.revise? cases = some healed.plan := by
  obtain ⟨hint, l, new, -, -, -, hr⟩ := heal_eq_ok_iff.mp h
  exact ⟨_, (repaired_iff.mp hr).1⟩

/-- The counter of versions overflows exactly if a plan in the last version is to be
corrected. -/
theorem Plan.heal_eq_overflow_iff {p : Plan} {d : Discovery} {evidence : String} :
    p.heal d evidence = .overflow ↔ p.id.version.toNat + 1 = UInt32.size ∧
      ∃ hint l new, p.suspects (evidenceArguments evidence) = [hint] ∧
        Locator.parse hint = .ok l ∧ d.Alternative l new := by
  constructor
  · intro h
    obtain ⟨hint, l, new, hs, hl, hnew, hheal⟩ :=
      exists_alternative_of_heal (p := p) (d := d) fun e he => nomatch h.symm.trans he
    exact ⟨revisedTo_eq_overflow_iff.mp (hheal.symm.trans h), hint, l, new, hs, hl, hnew⟩
  · rintro ⟨hlast, hint, l, new, hs, hl, hnew⟩
    exact (heal_of_alternative hs hl hnew).trans (revisedTo_eq_overflow_iff.mpr hlast)

/-- **Healing is exact.**  Only the last version that there is cannot be corrected. -/
theorem Plan.heal_exact (p : Plan) (d : Discovery) (evidence : String) :
    (p.heal d evidence = .error .noEvidence ↔ p.suspects (evidenceArguments evidence) = []) ∧
    (∀ a b, p.heal d evidence = .error (.ambiguous a b) ↔
      ∃ rest, p.suspects (evidenceArguments evidence) = a :: b :: rest) ∧
    (∀ hint, p.heal d evidence = .error (.noAlternative hint) ↔
      p.suspects (evidenceArguments evidence) = [hint] ∧
      ∃ l, Locator.parse hint = .ok l ∧ ∀ new, ¬ d.Alternative l new) ∧
    (∀ healed, p.heal d evidence = .ok healed ↔
      ∃ hint l new, p.suspects (evidenceArguments evidence) = [hint] ∧
        Locator.parse hint = .ok l ∧ d.Alternative l new ∧
        p.Repaired hint new.render healed) ∧
    (p.heal d evidence = .overflow ↔ p.id.version.toNat + 1 = UInt32.size ∧
      ∃ hint l new, p.suspects (evidenceArguments evidence) = [hint] ∧
        Locator.parse hint = .ok l ∧ d.Alternative l new) := by
  suffices hfailed :
      (p.heal d evidence = .error .noEvidence ↔ p.suspects (evidenceArguments evidence) = []) ∧
      (∀ a b, p.heal d evidence = .error (.ambiguous a b) ↔
        ∃ rest, p.suspects (evidenceArguments evidence) = a :: b :: rest) ∧
      (∀ hint, p.heal d evidence = .error (.noAlternative hint) ↔
        p.suspects (evidenceArguments evidence) = [hint] ∧
        ∃ l, Locator.parse hint = .ok l ∧ ∀ new, ¬ d.Alternative l new) from
    ⟨hfailed.1, hfailed.2.1, hfailed.2.2, fun _ => heal_eq_ok_iff, heal_eq_overflow_iff⟩
  rcases p.heal_cases d evidence with ⟨hs, hh⟩ | ⟨a, b, rest, hs, hh⟩ | ⟨hint, l, hs, hl, -⟩
  · simp [hs, hh]
  · simp [hs, hh]
  · rcases heal_of_sole hs hl d with ⟨new, hnew, hh⟩ | ⟨hno, hh⟩
    · rw [hs, hh]
      refine ⟨iff_of_false revisedTo_ne_error nofun,
        fun a b => iff_of_false revisedTo_ne_error nofun, fun hint' => ?_⟩
      refine iff_of_false revisedTo_ne_error ?_
      rintro ⟨h, l', hl', hno⟩
      cases h
      cases hl.symm.trans hl'
      exact hno new hnew
    · rw [hs, hh]
      refine ⟨by simp, by simp, fun hint' => ?_⟩
      constructor
      · rintro h
        cases h
        exact ⟨rfl, l, hl, hno⟩
      · rintro ⟨h, -⟩
        cases h
        rfl

/-- A field that is no longer found by its label is looked for by its name. -/
theorem Plan.healed_by_name : ∃ healed,
    (Sample.plan .statement "label=Email").heal (Sample.discovery "email")
      "getByLabel('Email')" = .ok healed ∧
    (Sample.plan .statement "label=Email").Repaired "label=Email" "name=email" healed := by
  have hsuspects : (Sample.plan .statement "label=Email").suspects
      (evidenceArguments "getByLabel('Email')") = ["label=Email"] := by decide +kernel
  have hparse : Locator.parse "label=Email" = .ok (.label "Email") := by decide +kernel
  have halternative : (Sample.discovery "email").Alternative (.label "Email") (.name "email") :=
    Discovery.alternative?_eq_some_iff.mp (by decide +kernel)
  have hrepaired : (Sample.plan .statement "label=Email").Repaired "label=Email" "name=email"
      ⟨Sample.correction "email", [⟨"fill", 0, "label=Email", "name=email"⟩]⟩ :=
    Plan.repaired_iff.mpr (by decide +kernel)
  have exact := Plan.heal_exact (Sample.plan .statement "label=Email") (Sample.discovery "email")
    "getByLabel('Email')"
  exact ⟨_, (exact.2.2.2.1 _).mpr ⟨_, _, _, hsuspects, hparse, halternative, hrepaired⟩, hrepaired⟩

end Testplan
