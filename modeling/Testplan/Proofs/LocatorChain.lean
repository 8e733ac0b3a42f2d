import Mathlib.Data.List.Nodup
import Testplan.Proofs.ExactHealing
import Testplan.Proofs.HintRoundTrip
/-!
# The locators of a field, one after the other

A field is found in several ways, and if one fails the next is tried.  Whoever begins with the
best locator of a field and goes on with the next one after the kind that failed
(`FieldDescriptor.Tries`) comes through all locators that some rule makes of the field, in the
order of the rules, and ends with the first field of the page (`FieldDescriptor.locatorChain`).

The three ways to read the table of rules agree because no two rules have the same kind, and a
rule makes locators of its own kind only.
-/
namespace Testplan

/-- The kinds of locators by which fields are found, best first. -/
def fieldOrder : List LocatorKind := [.label, .placeholder, .name, .inputType, .firstField]

namespace FieldDescriptor

/-- The text of a field that the rule of a kind goes by. -/
def textFor? (f : FieldDescriptor) : LocatorKind → Option String
  | .label => f.label
  | .placeholder => f.placeholder
  | .name => f.name
  | .inputType => f.type
  | .firstField | .role | .firstOfRole | .text | .css => none

/-- **All locators of a field**, best first. -/
def locators (f : FieldDescriptor) : List Locator := fieldRules.filterMap fun rule => rule.2 f

/-- **One locator after the other is tried**, each the next after the kind of the one before. -/
inductive Tries (f : FieldDescriptor) : Locator → List Locator → Prop
  | last {l : Locator} (h : f.locatorAfter l.kind = none) : Tries f l [l]
  | next {l other : Locator} {ls : List Locator} (h : f.locatorAfter l.kind = some other)
      (rest : Tries f other ls) : Tries f l (l :: ls)

variable {f : FieldDescriptor} {l : Locator}

/-- There is one way through the locators. -/
theorem Tries.unique {ls others : List Locator} (h : f.Tries l ls) (ho : f.Tries l others) :
    others = ls := by
  induction h generalizing others with
  | last hnone =>
    cases ho with
    | last => rfl
    | next hsome => cases hnone.symm.trans hsome
  | next hsome _ ih =>
    cases ho with
    | last hnone => cases hnone.symm.trans hsome
    | next hsome' rest =>
      cases hsome.symm.trans hsome'
      rw [ih rest]

/-! ## What the rules make of a field -/

theorem produces_iff_mem : f.produces l ↔ l ∈ f.locators := by
  unfold produces locators
  rw [List.any_eq_true, List.mem_filterMap]
  constructor
  · rintro ⟨rule, hrule, h⟩
    exact ⟨rule, hrule, (by simpa using h : rule.1 = l.kind ∧ rule.2 f = some l).2⟩
  · rintro ⟨rule, hrule, hl⟩
    exact ⟨rule, hrule, by simp [(trimmed_payload_of_rule hrule hl).1, hl]⟩

/-- **A rule goes by a text that is not blank**, and the locator by the text without the blanks
at its ends. -/
theorem produces_iff_text : f.produces l ↔ l = .firstField ∨
    ∃ s, f.textFor? l.kind = some s ∧ Text.isBlankText s = false ∧
      some (Text.strip s) = l.payload := by
  cases l <;>
    simp [produces, fieldRules, Locator.kind, Locator.payload, textFor?,
      Text.present?_eq_some_iff_not_blank]

/-- The kinds of the locators of a field, in the order of the rules. -/
theorem map_kind_locators_sublist (f : FieldDescriptor) :
    (f.locators.map Locator.kind).Sublist fieldOrder := by
  have hrules : ∀ rules : List (LocatorKind × (FieldDescriptor → Option Locator)),
      (∀ rule ∈ rules, rule ∈ fieldRules) →
        ((rules.filterMap fun rule => rule.2 f).map Locator.kind).Sublist (rules.map Prod.fst) := by
    intro rules hall
    induction rules with
    | nil => exact .slnil
    | cons rule rules ih =>
      obtain ⟨hrule, hrest⟩ := List.forall_mem_cons.mp hall
      cases hl : rule.2 f with
      | none =>
        simp only [List.filterMap_cons, hl]
        exact (ih hrest).cons _
      | some l =>
        simp only [List.filterMap_cons, hl, List.map_cons, (trimmed_payload_of_rule hrule hl).1]
        exact (ih hrest).cons_cons _
  exact hrules fieldRules fun _ h => h

/-! ## The way through the locators -/

/-- **The next locator stands right behind**: what is tried after a locator of a field is the
one that follows it in the list. -/
theorem locatorAfter_of_locators {before after : List Locator}
    (h : f.locators = before ++ l :: after) : f.locatorAfter l.kind = after.head? := by
  obtain ⟨first, others, hsplit, -, hothers⟩ := List.filterMap_eq_append_iff.mp h
  obtain ⟨skipped, rule, rest, rfl, -, hl, rfl⟩ := List.filterMap_eq_cons_iff.mp hothers
  rw [← List.append_assoc] at hsplit
  rw [(trimmed_payload_of_rule (by simp [hsplit]) hl).1, locatorAfter_of_split hsplit,
    List.head?_filterMap]

theorem tries_of_locators (before : List Locator) {after : List Locator}
    (h : f.locators = before ++ l :: after) : f.Tries l (l :: after) := by
  induction after generalizing before l with
  | nil => exact .last (locatorAfter_of_locators h)
  | cons other after ih =>
    refine .next (locatorAfter_of_locators h) (ih (before ++ [l]) ?_)
    rwa [List.append_cons] at h

theorem locators_eq_cons (f : FieldDescriptor) : ∃ after, f.locators = f.locator :: after := by
  obtain ⟨l, hl⟩ : ∃ l, (fieldRules.findSome? fun rule => rule.2 f) = some l := by
    rw [← Option.isSome_iff_exists, List.findSome?_isSome_iff]
    exact ⟨(.firstField, fun _ => some .firstField), by simp [fieldRules], rfl⟩
  have hhead : f.locators.head? = some f.locator := by
    rw [locators, List.head?_filterMap, locator, hl, Option.getD_some]
  exact List.head?_eq_some_iff.mp hhead

/-- Whoever begins with the best locator tries all. -/
theorem tries_locators (f : FieldDescriptor) : f.Tries f.locator f.locators := by
  obtain ⟨after, h⟩ := f.locators_eq_cons
  rw [h]
  exact tries_of_locators [] h

theorem getLast?_locators (f : FieldDescriptor) : f.locators.getLast? = some .firstField := by
  have hsplit : fieldRules = fieldRules.dropLast ++ [(.firstField, fun _ => some .firstField)] := rfl
  rw [locators, hsplit, List.filterMap_append]
  simp

/-- **The locators of a field, one after the other.** -/
structure LocatorChain (f : FieldDescriptor) (ls : List Locator) : Prop where
  /-- This is what is tried, and all. -/
  tried : ∀ others, f.Tries f.locator others ↔ others = ls
  complete : ∀ l, l ∈ ls ↔ f.produces l
  ordered : (ls.map Locator.kind).Sublist fieldOrder
  once : ls.Nodup
  length_le : ls.length ≤ 5
  last : ls.getLast? = some .firstField
  ends : f.locatorAfter .firstField = none
  /-- What a blank text would give is not there. -/
  texts : ∀ l ∈ ls, l = .firstField ∨ ∃ s, f.textFor? l.kind = some s ∧
    Text.isBlankText s = false ∧ some (Text.strip s) = l.payload
  trimmed : ∀ l ∈ ls, ∀ t, l.payload = some t → Text.Trimmed t

theorem locatorChain (f : FieldDescriptor) : f.LocatorChain f.locators where
  tried others := ⟨f.tries_locators.unique, fun h => h ▸ f.tries_locators⟩
  complete _ := produces_iff_mem.symm
  ordered := f.map_kind_locators_sublist
  once := List.Nodup.of_map Locator.kind (f.map_kind_locators_sublist.nodup nodup_fieldRules)
  length_le := by
    have := f.map_kind_locators_sublist.length_le
    rwa [List.length_map] at this
  last := f.getLast?_locators
  ends := rfl
  texts _ h := produces_iff_text.mp (produces_iff_mem.mpr h)
  trimmed l h t ht := by
    obtain ⟨rule, hrule, hl⟩ := List.mem_filterMap.mp h
    exact (trimmed_payload_of_rule hrule hl).2 t ht

example : locators { label := some " Email ", placeholder := some " ", name := some "email" } =
    [.label "Email", .name "email", .firstField] := by decide +kernel

end FieldDescriptor

end Testplan
