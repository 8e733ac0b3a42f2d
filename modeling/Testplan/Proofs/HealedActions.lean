import Testplan.Proofs.CorrectedLines
import Testplan.Proofs.ExactHealing
import Testplan.Proofs.RenderedPages
/-!
# What healing changes in the actions of a plan

Healing puts another hint in the place of one.  What becomes of the actions depends on what a
step does with its hint.  A step that acts on the element of its hint (`Step.usesHint`) acts in
the same way on the element of the new one, a note without any other text shows the new hint
(`Step.showsHint`), and for every other step the hint is of no account.  So every action stays
as it is or is **corrected** (`Step.action_repaired`), and the scenarios that can be read are
the same, on the same pages (`Plan.readable_repaired`).
-/
namespace Testplan

/-! ## Another locator -/

theorem FieldDescriptor.NextRule.kind {f : FieldDescriptor} {failed : LocatorKind} {l : Locator}
    (h : f.NextRule failed l) : l.kind ∈ fieldKinds ∧ l.kind ≠ failed := by
  obtain ⟨before, rule, between, next, after, he, hk, -, hl⟩ := h
  have hmem : next ∈ fieldRules := by simp [he]
  rw [(trimmed_payload_of_rule hmem hl).1]
  refine ⟨List.mem_map_of_mem hmem, ?_⟩
  have hnodup := nodup_fieldRules
  rw [he, List.map_append, List.nodup_append] at hnodup
  have hrule := (List.nodup_cons.mp hnodup.2.1).1
  rw [← hk]
  exact fun h => hrule (h ▸ List.mem_map_of_mem (by simp))

/-- What else is known about an element is another way to find it. -/
theorem Discovery.Alternative.replaced {d : Discovery} {l new : Locator}
    (h : d.Alternative l new) : l.Replaced new := by
  cases h with
  | role r name => exact .role r name
  | field kind _ next =>
    obtain ⟨hkind, hdiffer⟩ := next.kind
    refine .field ?_ ?_ hkind (Ne.symm hdiffer)
    · have hsub : ∀ k ∈ [LocatorKind.label, .placeholder, .name, .inputType], k ∈ fieldKinds := by
        decide
      exact hsub _ kind
    · rintro h
      rw [h] at kind
      exact absurd kind (by decide)

/-- Its hint is read back. -/
theorem Discovery.Alternative.parse_render {d : Discovery} {l new : Locator}
    (h : d.Alternative l new) : Locator.parse new.render = .ok new := by
  cases h with
  | role r name => cases r <;> rfl
  | field _ _ next =>
    obtain ⟨before, rule, between, next, after, he, -, -, hl⟩ := next
    exact Locator.parse_render _ (FieldDescriptor.trimmed_payload_of_rule (by simp [he]) hl).2

/-! ## Steps with another hint -/

namespace Step

/-- **The step acts on the element of its hint**: it clicks, fills or looks for the element, or
uploads a file that it names. -/
def usesHint (s : Step) : Bool :=
  match s.kind with
  | .click | .fill | .expectVisible => true
  | .upload => (Text.present? s.value).isSome
  | .goto | .expectText | .custom => false

/-- The step is a note that says nothing but its hint. -/
def showsHint (s : Step) : Bool := s.kind = .custom && s.note.isNone && s.value.isNone

/-- The step with a new hint in place of one that it may have. -/
def repaired (s : Step) (hint new : String) : Step :=
  if s.hint? = some hint then { s with target := some new } else s

theorem hint?_eq_some_iff {s : Step} {hint : String} :
    s.hint? = some hint ↔ s.kind ≠ .goto ∧ s.target = some hint := by
  unfold hint?
  by_cases hk : s.kind = .goto <;> simp [hk]

/-- The action of a step whose hint can be read. -/
theorem action_of_parse {s : Step} {hint : String} (ht : s.target = some hint) {l : Locator}
    (hl : Locator.parse hint = .ok l) :
    s.action = match s.kind with
      | .click => .ok (.click l)
      | .fill => .ok (.fill l (s.value.getD ""))
      | .expectVisible => .ok (.expectVisible l)
      | .upload => (requiredText s.value "upload 파일 경로").map (.upload l)
      | .goto => (requiredText (some hint) "goto 대상 URL").map .goto
      | .expectText => (requiredText s.value "expect-text 기대 텍스트").map .expectText
      | .custom => .ok (.custom ((s.note <|> s.value <|> some hint).getD "")) := by
  obtain ⟨kind, target, value, note⟩ := s
  cases ht
  have hread : locatorOf hint = .ok l := by
    rw [locatorOf, hl]
    rfl
  cases kind <;> simp only [action, hread] <;> rfl

section Retargeted

variable {s : Step} {hint : String} (hs : s.hint? = some hint) {l : Locator}
  (hl : Locator.parse hint = .ok l) {new : Locator} (hnew : Locator.parse new.render = .ok new)
include hs hl hnew

/-- A step that acts on its element acts in the same way on the new one. -/
theorem action_of_usesHint (h : s.usesHint) :
    ∃ a, a.locator? = some l ∧ s.action = .ok a ∧
      ({ s with target := some new.render } : Step).action = .ok (a.onto new) := by
  have ht := (hint?_eq_some_iff.mp hs).2
  have hold := action_of_parse ht hl
  have hother := action_of_parse (s := { s with target := some new.render }) rfl hnew
  unfold usesHint at h
  cases hk : s.kind <;> simp only [hk, Bool.false_eq_true] at h hold hother
  case click => exact ⟨_, rfl, hold, hother⟩
  case fill => exact ⟨_, rfl, hold, hother⟩
  case expectVisible => exact ⟨_, rfl, hold, hother⟩
  case upload =>
    obtain ⟨path, hpath⟩ := Option.isSome_iff_exists.mp h
    rw [requiredText, hpath] at hold hother
    exact ⟨.upload l path, rfl, hold, hother⟩

/-- A step that does not act on its element does not act on any, and only a note that shows its
hint changes. -/
theorem action_of_not_usesHint (h : ¬ s.usesHint) :
    (∀ a, s.action = .ok a → a.locator? = none) ∧
    if s.showsHint then s.action = .ok (.custom hint) ∧
      ({ s with target := some new.render } : Step).action = .ok (.custom new.render)
    else ({ s with target := some new.render } : Step).action = s.action := by
  obtain ⟨hgoto, ht⟩ := hint?_eq_some_iff.mp hs
  have hold := action_of_parse ht hl
  have hother := action_of_parse (s := { s with target := some new.render }) rfl hnew
  unfold usesHint at h
  cases hk : s.kind <;> simp only [hk, not_true_eq_false] at h hold hother
  case goto => exact absurd hk hgoto
  case expectText =>
    have hshows : s.showsHint = false := by simp [showsHint, hk]
    refine ⟨fun a ha => ?_, by simp [hshows, hold, hother]⟩
    rw [hold] at ha
    cases hv : requiredText s.value "expect-text 기대 텍스트" <;> rw [hv] at ha <;> cases ha
    rfl
  case upload =>
    have hshows : s.showsHint = false := by simp [showsHint, hk]
    have hmissing : Text.present? s.value = none := by simpa using h
    refine ⟨fun a ha => ?_, by simp [hshows, hold, hother, requiredText, hmissing, Except.map]⟩
    rw [hold, requiredText, hmissing] at ha
    cases ha
  case custom =>
    refine ⟨fun a ha => ?_, ?_⟩
    · rw [hold] at ha
      cases ha
      rfl
    · rw [hold, hother, showsHint, hk]
      cases s.note <;> cases s.value <;> simp

end Retargeted

/-- **A correction of a step**: nothing can be read as before, or the action is the same or
corrected. -/
theorem action_repaired {s : Step} {hint : String} {l : Locator}
    (hl : Locator.parse hint = .ok l) {new : Locator}
    (hnew : Locator.parse new.render = .ok new) (hr : l.Replaced new) :
    (∃ e, s.action = .error e ∧ (s.repaired hint new.render).action = .error e) ∨
    ∃ a b, s.action = .ok a ∧ (s.repaired hint new.render).action = .ok b ∧
      (b = a ∨ a.Corrected b) := by
  have same (h : (s.repaired hint new.render).action = s.action) :
      (∃ e, s.action = .error e ∧ (s.repaired hint new.render).action = .error e) ∨
      ∃ a b, s.action = .ok a ∧ (s.repaired hint new.render).action = .ok b ∧
        (b = a ∨ a.Corrected b) := by
    rw [h]
    cases s.action with
    | error e => exact .inl ⟨e, rfl, rfl⟩
    | ok a => exact .inr ⟨a, a, rfl, rfl, .inl rfl⟩
  by_cases hs : s.hint? = some hint
  · have hrepaired : s.repaired hint new.render = { s with target := some new.render } := if_pos hs
    by_cases huses : s.usesHint
    · obtain ⟨a, ha, hold, hother⟩ := action_of_usesHint hs hl hnew huses
      rw [hrepaired]
      exact .inr ⟨a, _, hold, hother, .inr (.locator ha hr)⟩
    · have hkept := (action_of_not_usesHint hs hl hnew huses).2
      split at hkept
      · rw [hrepaired]
        exact .inr ⟨_, _, hkept.1, hkept.2, .inr (.note hl hr)⟩
      · exact same (hrepaired ▸ hkept)
  · exact same (by rw [repaired, if_neg hs])

theorem kind_repaired (s : Step) (hint new : String) : (s.repaired hint new).kind = s.kind := by
  unfold repaired
  split <;> rfl

theorem repaired_of_goto {s : Step} (h : s.kind = .goto) (hint new : String) :
    s.repaired hint new = s :=
  if_neg fun hs => (hint?_eq_some_iff.mp hs).1 h

end Step

/-! ## Scenarios with another hint -/

theorem Scenario.pageKey_repaired (s : Scenario) (hint new : String) :
    (s.repaired hint new).pageKey = s.pageKey := by
  have hfind : (s.repaired hint new).steps.find? (fun step => step.kind = .goto) =
      s.steps.find? fun step => step.kind = .goto := by
    have hkind : ((fun step : Step => decide (step.kind = .goto)) ∘
        fun step => step.repaired hint new) = fun step : Step => decide (step.kind = .goto) :=
      funext fun step => by rw [Function.comp_apply, Step.kind_repaired]
    change (s.steps.map fun step => step.repaired hint new).find? _ = _
    rw [List.find?_map, hkind]
    cases hgoto : s.steps.find? fun step => step.kind = .goto with
    | none => rfl
    | some step =>
      have hstep : step.kind = .goto := by simpa using List.find?_some hgoto
      rw [Option.map_some, Step.repaired_of_goto hstep]
  simp only [pageKey, hfind]

/-- A scenario with its actions, where a hint has a new one. -/
def repairedReading (hint new : String) (c : ReadScenario) : ReadScenario :=
  (c.1.repaired hint new, (c.1.repaired hint new).actions.toOption.getD [])

section Corrections

variable {hint : String} {l : Locator} (hl : Locator.parse hint = .ok l) {new : Locator}
  (hnew : Locator.parse new.render = .ok new) (hr : l.Replaced new)
include hl hnew hr

/-- A scenario that can be read can be read with the new hint, step by step the same or
corrected. -/
theorem Scenario.reads_repaired {s : Scenario} {actions : List Action} (h : s.Reads actions) :
    ∃ others, (s.repaired hint new.render).Reads others ∧
      List.Forall₂ (fun a b => b = a ∨ a.Corrected b) actions others := by
  have hsteps {steps : List Step} {actions : List Action}
      (h : List.Forall₂ (fun step a => step.action = .ok a) steps actions) :
      ∃ others, List.Forall₂ (fun step a => step.action = .ok a)
          (steps.map fun step => step.repaired hint new.render) others ∧
        List.Forall₂ (fun a b => b = a ∨ a.Corrected b) actions others := by
    induction h with
    | nil => exact ⟨[], .nil, .nil⟩
    | @cons step a steps actions hstep _ ih =>
      obtain ⟨others, hread, hrel⟩ := ih
      rcases Step.action_repaired (s := step) hl hnew hr with ⟨e, he, -⟩ | ⟨b, c, hb, hc, hrel'⟩
      · cases hstep.symm.trans he
      · cases hstep.symm.trans hb
        exact ⟨c :: others, .cons hc hread, .cons hrel' hrel⟩
  exact hsteps h

/-- A scenario that cannot be read cannot be read with the new hint. -/
theorem Scenario.reads_of_repaired {s : Scenario} {others : List Action}
    (h : (s.repaired hint new.render).Reads others) : ∃ actions, s.Reads actions := by
  have hsteps {steps : List Step} {others : List Action}
      (h : List.Forall₂ (fun step a => step.action = .ok a)
        (steps.map fun step => step.repaired hint new.render) others) :
      ∃ actions, List.Forall₂ (fun step a => step.action = .ok a) steps actions := by
    induction steps generalizing others with
    | nil => exact ⟨[], .nil⟩
    | cons step steps ih =>
      obtain ⟨b, others, hstep, hrest, rfl⟩ := List.forall₂_cons_left_iff.mp h
      obtain ⟨actions, hactions⟩ := ih hrest
      rcases Step.action_repaired (s := step) hl hnew hr with ⟨e, -, he⟩ | ⟨a, -, ha, -, -⟩
      · cases hstep.symm.trans he
      · exact ⟨a :: actions, .cons ha hactions⟩
  exact hsteps h

/-- The scenarios of a repaired plan are read where those of the plan are. -/
theorem Plan.readable_repaired {p q : Plan}
    (hq : q.cases = p.cases.map fun s => s.repaired hint new.render) :
    q.readable = p.readable.map (repairedReading hint new.render) := by
  have hread (p : Plan) :
      p.readable = p.cases.filterMap fun s => s.actions.toOption.map fun actions => (s, actions) := by
    rw [readable, readings, List.filterMap_map]
    refine List.filterMap_congr fun s _ => ?_
    cases h : s.actions <;> simp [Except.map, Except.toOption, h]
  rw [hread, hread, hq, List.filterMap_map, List.map_filterMap]
  refine List.filterMap_congr fun s _ => ?_
  rw [Function.comp_apply]
  cases h : s.actions with
  | ok actions =>
    obtain ⟨others, hothers, -⟩ := s.reads_repaired hl hnew hr (Scenario.actions_eq_ok_iff.mp h)
    simp [repairedReading, Scenario.actions_eq_ok_iff.mpr hothers, Except.toOption]
  | error f =>
    cases h' : (s.repaired hint new.render).actions with
    | error f' => rfl
    | ok others =>
      obtain ⟨actions, hactions⟩ :=
        Scenario.reads_of_repaired hl hnew hr (Scenario.actions_eq_ok_iff.mp h')
      cases h.symm.trans (Scenario.actions_eq_ok_iff.mpr hactions)

/-- What was read before and after, action by action. -/
theorem Plan.corrected_of_mem_readable {p : Plan} {c : ReadScenario} (hc : c ∈ p.readable) :
    List.Forall₂ (fun a b => b = a ∨ a.Corrected b) c.2 (repairedReading hint new.render c).2 := by
  obtain ⟨others, hothers, hrel⟩ := Scenario.reads_repaired hl hnew hr (p.sieved.reads hc).2
  rw [repairedReading, Scenario.actions_eq_ok_iff.mpr hothers]
  exact hrel

end Corrections

end Testplan
