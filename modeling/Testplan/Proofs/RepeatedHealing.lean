import Mathlib.Algebra.Order.BigOperators.Group.List
import Mathlib.Algebra.Order.Ring.Nat
import Testplan.Proofs.EffectiveHealing
import Testplan.Proofs.LocatorChain
/-!
# Healing comes to an end

Each healing looks for the field of a locator anew, in the discovery that it is given, and may
find another field than the healing before.  All the same a step is not healed without end.  In
whatever field a locator is found, the new one stands right behind it among the locators of that
field (`Discovery.Advances`), so its kind is further back in `fieldOrder`, and the order is the
same for all fields.

How often a step can still be healed depends on the kind of its locator alone
(`LocatorKind.chances`).  Healing lowers this number for all steps that it changes and leaves it
as it is for the others, so a plan is healed at most as often as its steps have chances
(`locators_tried_until_none_is_left`).
-/
namespace Testplan

/-! ## Forward in the order of the kinds -/

/-- **A change goes forward.**  The new locator stands right behind the old one among the
locators of the first field that the old one fits; an element with a name gives way to the first
one of its role. -/
inductive Discovery.Advances (d : Discovery) (c : HealedStep) : Prop
  | field {l new : Locator} {f : FieldDescriptor} {before after : List Locator}
      (old : Locator.parse c.old = .ok l) (read : Locator.parse c.new = .ok new)
      (first : d.FirstProducer l f) (next : f.locators = before ++ l :: new :: after)
      (forward : [l.kind, new.kind].Sublist fieldOrder)
  | role {r : Role} {name : String} (old : Locator.parse c.old = .ok (.role r name))
      (read : Locator.parse c.new = .ok (.firstOfRole r))

/-- How often a locator of the kind can give way to another. -/
def LocatorKind.chances : LocatorKind → Nat
  | .label => 4
  | .placeholder => 3
  | .name => 2
  | .inputType | .role => 1
  | .firstField | .firstOfRole | .text | .css => 0

theorem LocatorKind.chances_le (k : LocatorKind) : k.chances ≤ 4 := by cases k <;> decide

/-- Fewer chances are left further back. -/
theorem LocatorKind.chances_lt_of_sublist {k other : LocatorKind}
    (h : [k, other].Sublist fieldOrder) : other.chances < k.chances := by
  revert h
  cases k <;> cases other <;> decide

namespace FieldDescriptor

variable {f : FieldDescriptor} {l new : Locator}

/-- The next rule makes the next locator. -/
theorem exists_locators_of_nextRule (hl : f.produces l) (h : f.NextRule l.kind new) :
    ∃ before after, f.locators = before ++ l :: new :: after := by
  obtain ⟨before, after, hsplit⟩ := List.append_of_mem (produces_iff_mem.mp hl)
  have hnext := locatorAfter_eq_some_iff.mpr h
  rw [locatorAfter_of_locators hsplit] at hnext
  obtain ⟨others, rfl⟩ := List.head?_eq_some_iff.mp hnext
  exact ⟨before, others, hsplit⟩

theorem kinds_sublist_of_locators {before after : List Locator}
    (h : f.locators = before ++ l :: new :: after) : [l.kind, new.kind].Sublist fieldOrder := by
  refine List.Sublist.trans ?_ f.map_kind_locators_sublist
  have hpair : [l, new].Sublist f.locators := by
    rw [h]
    exact (((List.nil_sublist after).cons_cons new).cons_cons l).trans
      (List.sublist_append_right before _)
  exact hpair.map Locator.kind

end FieldDescriptor

namespace Discovery.Alternative

variable {d : Discovery} {l new : Locator} (h : d.Alternative l new)
include h

theorem advances {c : HealedStep} (old : Locator.parse c.old = .ok l)
    (read : Locator.parse c.new = .ok new) : d.Advances c := by
  cases h with
  | role r name => exact .role old read
  | field kind first next =>
    obtain ⟨-, -, -, hl, -⟩ := id first
    obtain ⟨before, after, hsplit⟩ := FieldDescriptor.exists_locators_of_nextRule hl next
    exact .field old read first hsplit (FieldDescriptor.kinds_sublist_of_locators hsplit)

theorem chances_lt : new.kind.chances < l.kind.chances := by
  cases h with
  | role r name => exact Nat.zero_lt_one
  | field kind first next =>
    obtain ⟨-, -, -, hl, -⟩ := first
    obtain ⟨before, after, hsplit⟩ := FieldDescriptor.exists_locators_of_nextRule hl next
    exact LocatorKind.chances_lt_of_sublist (FieldDescriptor.kinds_sublist_of_locators hsplit)

end Discovery.Alternative

/-! ## Chances left -/

/-- **How often a step can still be healed.** -/
def Step.chances (s : Step) : Nat :=
  match s.hint? with
  | none => 0
  | some hint =>
    match Locator.parse hint with
    | .error _ => 0
    | .ok l => l.kind.chances

/-- How often the steps of a scenario can still be healed. -/
def Scenario.chances (s : Scenario) : Nat := (s.steps.map Step.chances).sum

/-- **How often a plan can still be healed**, at most. -/
def Plan.chances (p : Plan) : Nat := (p.cases.map Scenario.chances).sum

theorem Step.chances_of_parse {s : Step} {hint : String} {l : Locator}
    (hs : s.hint? = some hint) (hl : Locator.parse hint = .ok l) :
    s.chances = l.kind.chances := by
  rw [chances, hs]
  simp only [hl]

theorem Step.chances_le (s : Step) : s.chances ≤ 4 := by
  unfold chances
  split
  · exact Nat.zero_le 4
  · split
    · exact Nat.zero_le 4
    · exact LocatorKind.chances_le _

theorem Scenario.chances_repaired (s : Scenario) (hint new : String) :
    (s.repaired hint new).chances =
      (s.steps.map fun step => (step.repaired hint new).chances).sum :=
  congrArg List.sum List.map_map

section Repaired

variable {d : Discovery} {hint : String} {l new : Locator} (hl : Locator.parse hint = .ok l)
  (halternative : d.Alternative l new)
include hl halternative

theorem Step.chances_retargeted_lt {s : Step} (hs : s.hint? = some hint) :
    Step.chances { s with target := some new.render } < s.chances := by
  have hnew : Step.hint? { s with target := some new.render } = some new.render :=
    hint?_eq_some_iff.mpr ⟨(hint?_eq_some_iff.mp hs).1, rfl⟩
  rw [chances_of_parse hs hl, chances_of_parse hnew halternative.parse_render]
  exact halternative.chances_lt

theorem Step.chances_repaired_le (s : Step) :
    (s.repaired hint new.render).chances ≤ s.chances := by
  unfold repaired
  split
  · next hs => exact (chances_retargeted_lt hl halternative hs).le
  · exact Nat.le_refl _

theorem Scenario.chances_repaired_le (s : Scenario) :
    (s.repaired hint new.render).chances ≤ s.chances := by
  rw [chances_repaired]
  exact List.sum_le_sum fun step _ => step.chances_repaired_le hl halternative

theorem Scenario.chances_repaired_lt {s : Scenario}
    (h : ∃ step ∈ s.steps, step.hint? = some hint) :
    (s.repaired hint new.render).chances < s.chances := by
  rw [chances_repaired]
  refine List.sum_lt_sum _ _ (fun step _ => step.chances_repaired_le hl halternative) ?_
  obtain ⟨step, hstep, hs⟩ := h
  refine ⟨step, hstep, ?_⟩
  rw [Step.repaired, if_pos hs]
  exact Step.chances_retargeted_lt hl halternative hs

end Repaired

/-! ## Healing again and again -/

/-- **Some healing makes one plan of the other.** -/
def Plan.HealedTo (p q : Plan) : Prop :=
  ∃ d evidence changes, p.heal d evidence = .ok ⟨q, changes⟩

/-- **Some healing makes one step of the other**: they differ in a plan and a healed one. -/
def Step.HealedTo (s t : Step) : Prop :=
  ∃ p q : Plan, p.HealedTo q ∧ ∃ c ∈ p.stepChanges q, c.before = s ∧ c.after = t

/-- What is healed is one hint, for what else is known about its element. -/
theorem Plan.HealedTo.exists_repaired {p q : Plan} (h : p.HealedTo q) :
    ∃ hint l d new, hint ∈ p.hints ∧ Locator.parse hint = .ok l ∧
      Discovery.Alternative d l new ∧ q.cases = p.cases.map fun s => s.repaired hint new.render := by
  obtain ⟨d, evidence, changes, hheal⟩ := h
  obtain ⟨hint, l, new, hsole, hl, halternative, hrepaired⟩ := heal_eq_ok_iff.mp hheal
  have hmem : hint ∈ p.suspects (evidenceArguments evidence) := by
    rw [hsole]
    exact List.mem_singleton_self hint
  exact ⟨hint, l, d, new, (mem_suspects_iff.mp hmem).1, hl, halternative, hrepaired.cases⟩

theorem Step.HealedTo.chances_lt {s t : Step} (h : s.HealedTo t) : t.chances < s.chances := by
  obtain ⟨p, q, hheal, c, hc, rfl, rfl⟩ := h
  obtain ⟨hint, l, d, new, -, hl, halternative, hcases⟩ := hheal.exists_repaired
  have hne := Locator.Replaced.hint_ne hl halternative.parse_render halternative.replaced
  obtain ⟨-, -, hs, hafter⟩ := (Plan.mem_stepChanges_iff hne hcases).mp hc
  rw [hafter]
  exact chances_retargeted_lt hl halternative hs

theorem Plan.HealedTo.chances_lt {p q : Plan} (h : p.HealedTo q) : q.chances < p.chances := by
  obtain ⟨hint, l, d, new, hmem, hl, halternative, hcases⟩ := h.exists_repaired
  obtain ⟨s, hs, hsteps⟩ := mem_hints_iff.mp hmem
  rw [chances, chances, hcases, List.map_map]
  -- the scenarios with the hint have fewer chances, and the others no more than before
  exact List.sum_lt_sum _ _ (fun s _ => s.chances_repaired_le hl halternative)
    ⟨s, hs, Scenario.chances_repaired_lt hl halternative hsteps⟩

/-- What healing reports goes forward. -/
theorem Plan.advances_of_heal {p : Plan} {d : Discovery} {evidence : String}
    {healed : HealedPlan} (h : p.heal d evidence = .ok healed) :
    ∀ c ∈ healed.changes, d.Advances c := by
  obtain ⟨hint, l, new, -, hl, halternative, hrepaired⟩ := heal_eq_ok_iff.mp h
  intro c hc
  rw [hrepaired.changes] at hc
  obtain ⟨s, -, hs⟩ := List.mem_flatMap.mp hc
  obtain ⟨⟨step, index⟩, -, hentry⟩ := List.mem_filterMap.mp hs
  dsimp only at hentry
  split at hentry
  · cases hentry
    exact halternative.advances hl halternative.parse_render
  · cases hentry

/-- **The locators of a field are tried in order, and healing comes to an end.**  Whoever begins
with the best locator of a field and goes on after the kind that failed comes through the
locators of the field, once each, up to the first field of the page.  Each change that healing
reports goes forward in the same order, whatever field the old locator is found in.  So a step is
healed four times at most, whatever plans it stands in and whatever is discovered, and a plan as
often as its steps allow. -/
theorem locators_tried_until_none_is_left :
    (∀ f : FieldDescriptor, f.LocatorChain f.locators) ∧
    (∀ (p : Plan) (d : Discovery) (evidence : String) (healed : HealedPlan),
      p.heal d evidence = .ok healed → ∀ c ∈ healed.changes, d.Advances c) ∧
    (∀ (s : Step) (later : List Step), (s :: later).IsChain Step.HealedTo →
      later.length ≤ s.chances ∧ s.chances ≤ 4) ∧
    ∀ (p : Plan) (later : List Plan), (p :: later).IsChain Plan.HealedTo →
      later.length ≤ p.chances :=
  ⟨FieldDescriptor.locatorChain, fun _ _ _ _ => Plan.advances_of_heal,
    fun s _ h => ⟨length_le_of_isChain h fun _ _ => Step.HealedTo.chances_lt, s.chances_le⟩,
    fun _ _ h => length_le_of_isChain h fun _ _ => Plan.HealedTo.chances_lt⟩

namespace Sample

/-- A page with one field, which can be found in every way. -/
def manyWays : Discovery where
  pages := [{
    path := "/"
    forms := [{ fields := [{
      label := some "Email", placeholder := some "Mail", name := some "email"
      type := some "text" }] }] }]

/-- The next version of the plan that fills the field, with another hint. -/
def refilled (p : Plan) (hint : String) : Plan :=
  p.derived ⟨p.id.id, p.id.version + 1, some p.ref⟩ (plan .statement hint).cases

/-- The change of the step that fills the field. -/
def refill (old new : String) : StepChange where
  scenario := { id := "fill", title := "Fill", coverage := .statement, steps := [.fill old "x"] }
  index := 0
  before := .fill old "x"
  after := .fill new "x"

end Sample

/-- The plan that fills a field by its label is healed four times, and so is its step, and then
no more. -/
theorem healed_up_to_first_field : ∃ (plans : List Plan) (steps : List Step),
    Sample.manyWays.Advances ⟨"fill", 0, "label=Email", "placeholder=Mail"⟩ ∧
    plans.length = 4 ∧ (Sample.plan .statement "label=Email" :: plans).IsChain Plan.HealedTo ∧
    (∀ q, ¬ (Sample.plan .statement "label=Email" :: (plans ++ [q])).IsChain Plan.HealedTo) ∧
    steps.length = 4 ∧ (Step.fill "label=Email" "x" :: steps).IsChain Step.HealedTo ∧
    ∀ t, ¬ (Step.fill "label=Email" "x" :: (steps ++ [t])).IsChain Step.HealedTo := by
  have healed {p q : Plan} {old new : String} (evidence : String)
      (h : p.heal Sample.manyWays evidence = .ok ⟨q, [⟨"fill", 0, old, new⟩]⟩)
      (hq : p.stepChanges q = [Sample.refill old new]) :
      p.HealedTo q ∧ (Step.fill old "x").HealedTo (.fill new "x") := by
    have hheal : p.HealedTo q := ⟨_, _, _, h⟩
    exact ⟨hheal, p, q, hheal, _, hq ▸ List.mem_singleton_self _, rfl, rfl⟩
  let p := Sample.plan .statement "label=Email"
  let p₁ := Sample.refilled p "placeholder=Mail"
  let p₂ := Sample.refilled p₁ "name=email"
  let p₃ := Sample.refilled p₂ "type=text"
  let p₄ := Sample.refilled p₃ "field"
  have hheal : p.heal Sample.manyWays "'Email'" =
      .ok ⟨p₁, [⟨"fill", 0, "label=Email", "placeholder=Mail"⟩]⟩ := by decide +kernel
  have byLabel : p.HealedTo p₁ ∧
      (Step.fill "label=Email" "x").HealedTo (.fill "placeholder=Mail" "x") :=
    healed "'Email'" hheal (by decide +kernel)
  have byPlaceholder : p₁.HealedTo p₂ ∧
      (Step.fill "placeholder=Mail" "x").HealedTo (.fill "name=email" "x") :=
    healed "'Mail'" (by decide +kernel) (by decide +kernel)
  have byName : p₂.HealedTo p₃ ∧ (Step.fill "name=email" "x").HealedTo (.fill "type=text" "x") :=
    healed "'email'" (by decide +kernel) (by decide +kernel)
  have byType : p₃.HealedTo p₄ ∧ (Step.fill "type=text" "x").HealedTo (.fill "field" "x") :=
    healed "'text'" (by decide +kernel) (by decide +kernel)
  obtain ⟨-, hforward, hsteps, hplans⟩ := locators_tried_until_none_is_left
  refine ⟨[p₁, p₂, p₃, p₄], [.fill "placeholder=Mail" "x", .fill "name=email" "x",
    .fill "type=text" "x", .fill "field" "x"], hforward _ _ _ _ hheal _ (List.mem_singleton_self _),
    rfl, ?_, fun q h => ?_, rfl, ?_, fun t h => ?_⟩
  · simp [p, byLabel.1, byPlaceholder.1, byName.1, byType.1]
  · have hchances : p.chances = 4 := by decide +kernel
    have := hplans p _ h
    simp [hchances] at this
  · simp [byLabel.2, byPlaceholder.2, byName.2, byType.2]
  · have hle := hsteps _ _ h
    have := hle.1.trans hle.2
    simp at this

end Testplan
