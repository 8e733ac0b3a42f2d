import Mathlib.Data.List.Chain
import Testplan.Proofs.Lineages
import Testplan.Proofs.PlanCustody
import Testplan.Proofs.PlanFiles
import Testplan.Proofs.RepeatedHealing
/-!
# The versions of healed plans

A healed plan is the next version of the plan that it was made of, and names that plan as its
parent.  Versions are numbers of 32 bits, and a plan may be read from a file with any of them,
also with the last one, after which the counter overflows.

So healing that finds a change makes a plan with a greater version exactly if the version is not
the last one, and breaks off otherwise (`Plan.healed_versions_rise_iff`).  The versions that come
from healing again and again rise, and there is room for all of them.
-/
namespace Testplan

/-! ## The next version -/

namespace Plan

variable {p q : Plan}

/-- **Healing finds a change**: one hint is named, and something else is known about its
element. -/
def FindsChange (p : Plan) (d : Discovery) (evidence : String) : Prop :=
  ∃ hint l new, p.suspects (evidenceArguments evidence) = [hint] ∧
    Locator.parse hint = .ok l ∧ d.Alternative l new

/-- **A plan comes after a version of its lineage**, and names it as its parent. -/
structure Succeeds (q : Plan) (r : PlanRef) : Prop where
  lineage : q.id.id = r.id
  parent : q.id.parent = some r
  later : r.version < q.id.version

/-- **A healed plan is the next version.** -/
theorem HealedTo.version_eq (h : p.HealedTo q) :
    q.id.version.toNat = p.id.version.toNat + 1 ∧ q.Succeeds p.ref := by
  obtain ⟨d, evidence, changes, hheal⟩ := h
  obtain ⟨hint, l, new, -, -, -, hr⟩ := heal_eq_ok_iff.mp hheal
  refine ⟨hr.version, hr.lineage, hr.parent, ?_⟩
  rw [UInt32.lt_iff_toNat_lt, hr.version]
  exact Nat.lt_succ_self _

/-- Where healing finds a change, what comes out depends on whether there is a next version. -/
theorem FindsChange.heal_cases {d : Discovery} {evidence : String}
    (h : p.FindsChange d evidence) :
    p.id.version.toNat + 1 < UInt32.size ∧ (∃ healed, p.heal d evidence = .ok healed) ∨
      p.id.version.toNat + 1 = UInt32.size ∧ p.heal d evidence = .overflow := by
  obtain ⟨hint, l, new, hs, hl, hnew⟩ := h
  rw [heal_of_alternative hs hl hnew]
  rcases Nat.lt_or_eq_of_le (Nat.succ_le_of_lt p.id.version.toNat_lt_size) with hroom | hlast
  · exact .inl ⟨hroom, revisedTo_of_room hint new.render hroom⟩
  · exact .inr ⟨hlast, revisedTo_eq_overflow_iff.mpr hlast⟩

/-- **Where healing finds a change**, the plan gets a successor if its version is not the last
one, and otherwise the counter overflows. -/
theorem FindsChange.succeeded_iff {d : Discovery} {evidence : String}
    (h : p.FindsChange d evidence) :
    ((∃ healed, p.heal d evidence = .ok healed ∧ healed.plan.Succeeds p.ref) ↔
      p.id.version.toNat + 1 < UInt32.size) ∧
    (p.heal d evidence = .overflow ↔ p.id.version.toNat + 1 = UInt32.size) := by
  rcases h.heal_cases with ⟨hroom, healed, hheal⟩ | ⟨hlast, hheal⟩
  · have hnext : p.HealedTo healed.plan := ⟨d, evidence, healed.changes, hheal⟩
    refine ⟨iff_of_true ⟨healed, hheal, hnext.version_eq.2⟩ hroom, ?_⟩
    rw [hheal]
    exact iff_of_false nofun (Nat.ne_of_lt hroom)
  · refine ⟨iff_of_false ?_ (Nat.not_lt_of_le (Nat.le_of_eq hlast.symm)), iff_of_true hheal hlast⟩
    rintro ⟨healed, hok, -⟩
    cases hheal.symm.trans hok

/-- Plans that are healed again and again stay in their lineage, and there is room for their
versions, which rise. -/
theorem versions_of_isChain {later : List Plan} (h : (p :: later).IsChain HealedTo) :
    (∀ q ∈ later, q.id.id = p.id.id) ∧
      ((p :: later).map fun q => q.id.version).Pairwise (· < ·) ∧
      p.id.version.toNat + later.length < UInt32.size := by
  have hsame : ((p :: later).map fun q => q.id.id).Pairwise (· = ·) := by
    rw [← List.isChain_iff_pairwise, List.isChain_map]
    exact h.imp fun _ _ hstep => hstep.version_eq.2.lineage.symm
  have hrises : ((p :: later).map fun q => q.id.version).Pairwise (· < ·) := by
    rw [← List.isChain_iff_pairwise, List.isChain_map]
    exact h.imp fun _ _ hstep => hstep.version_eq.2.later
  -- each plan leaves room for fewer versions than the plan before it
  have hroom : later.length ≤ UInt32.size - 1 - p.id.version.toNat := by
    refine @length_le_of_isChain Plan HealedTo (fun q => UInt32.size - 1 - q.id.version.toNat) p
      later h fun q r hstep => ?_
    have hnext := hstep.version_eq.1
    have hlast := r.id.version.toNat_lt_size
    show UInt32.size - 1 - r.id.version.toNat < UInt32.size - 1 - q.id.version.toNat
    omega
  refine ⟨fun q hq => ?_, hrises, ?_⟩
  · exact ((List.pairwise_cons.mp hsame).1 _ (List.mem_map_of_mem hq)).symm
  · have hlast := p.id.version.toNat_lt_size
    omega

/-- **When healing makes a plan that comes after the plan that it was made of.**  If healing finds
a change, it makes the next version of the lineage, which names the plan as its parent, exactly if
the version is not the last number of 32 bits; at the last one the counter overflows.  The
versions that come from healing again and again rise.  In every state of the service, the same
holds of the version that a job carries. -/
theorem healed_versions_rise_iff (p : Plan) :
    (∀ (d : Discovery) (evidence : String), p.FindsChange d evidence →
      ((∃ healed, p.heal d evidence = .ok healed ∧ healed.plan.Succeeds p.ref) ↔
        p.id.version.toNat + 1 < UInt32.size) ∧
      (p.heal d evidence = .overflow ↔ p.id.version.toNat + 1 = UInt32.size)) ∧
    (∀ later : List Plan, (p :: later).IsChain HealedTo →
      (∀ q ∈ later, q.id.id = p.id.id) ∧
      ((p :: later).map fun q => q.id.version).Pairwise (· < ·) ∧
      p.id.version.toNat + later.length < UInt32.size) ∧
    ∀ (w : Interleaving) (j : Job) (d : Discovery), w.Reachable →
      j.discovery = some d → w.orchestrator.plans.get? j.plan = some p →
      p.FindsChange d ((j.failure?.map JobFailure.message).getD "") →
      ((∃ healed, w.orchestrator.healedPlan j = .ok healed ∧ healed.plan.Succeeds j.plan) ↔
        j.plan.version.toNat + 1 < UInt32.size) ∧
      (w.orchestrator.healedPlan j = .overflow ↔ j.plan.version.toNat + 1 = UInt32.size) := by
  refine ⟨fun d evidence h => h.succeeded_iff, fun later h => versions_of_isChain h,
    fun w j d hw hd hp h => ?_⟩
  have hplan : w.orchestrator.healedPlan j =
      p.heal d ((j.failure?.map JobFailure.message).getD "") := by
    unfold Orchestrator.healedPlan
    rw [hd, hp]
  have href : p.ref = j.plan := hw.ref_of_get?_plans hp
  rw [hplan, ← href]
  exact h.succeeded_iff

end Plan

namespace Sample

/-- The plan that fills a field by its label, in some version. -/
def versioned (v : UInt32) : Plan :=
  { plan .statement "label=Email" with id := ⟨uuid 1000, v, none⟩ }

/-- The service when the plan was submitted. -/
def submitted (v : UInt32) : Interleaving :=
  start.follow (queueing { submission .statement "email" with plan := versioned v })

/-- A job for the plan that did not find the field. -/
def stuck (v : UInt32) : Job where
  id := ⟨uuid 0⟩
  plan := (versioned v).ref
  framework := "playwright-ts"
  queue := .run
  status := .failed ⟨.selectorNotFound, "getByLabel('Email')", none⟩
  discovery := some (discovery "email")

end Sample

/-- The last version but one is healed to the last, and that cannot be healed once more. -/
theorem Plan.versions_run_out : ∃ healed : HealedPlan,
    (Sample.submitted 4294967294).orchestrator.healedPlan (Sample.stuck 4294967294) =
      .ok healed ∧ healed.plan.Succeeds (Sample.stuck 4294967294).plan ∧
    healed.plan.FindsChange (Sample.discovery "email") "'email'" ∧
    healed.plan.heal (Sample.discovery "email") "'email'" = .overflow ∧
    ∀ q, ¬ [Sample.versioned 4294967294, healed.plan, q].IsChain HealedTo := by
  let p := Sample.versioned 4294967294
  let q := Sample.refilled p "name=email"
  have hw : (Sample.submitted 4294967294).Reachable := Sample.reachable_start.follow _
  have hp : (Sample.submitted 4294967294).orchestrator.plans.get?
      (Sample.stuck 4294967294).plan = some p := by decide +kernel
  have hheal : (Sample.submitted 4294967294).orchestrator.healedPlan (Sample.stuck 4294967294) =
      .ok ⟨q, [⟨"fill", 0, "label=Email", "name=email"⟩]⟩ := by decide +kernel
  have byLabel : p.FindsChange (Sample.discovery "email") "getByLabel('Email')" :=
    ⟨"label=Email", .label "Email", .name "email", by decide +kernel, by decide +kernel,
      Discovery.alternative?_eq_some_iff.mp (by decide +kernel)⟩
  have byName : q.FindsChange (Sample.discovery "email") "'email'" :=
    ⟨"name=email", .name "email", .firstField, by decide +kernel, by decide +kernel,
      Discovery.alternative?_eq_some_iff.mp (by decide +kernel)⟩
  obtain ⟨-, hagain, hcarried⟩ := healed_versions_rise_iff p
  obtain ⟨healed, hok, hsucceeds⟩ :=
    (hcarried _ _ _ hw rfl hp byLabel).1.mpr (by decide : 4294967294 + 1 < UInt32.size)
  cases hheal.symm.trans hok
  have hlast : q.heal (Sample.discovery "email") "'email'" = .overflow :=
    ((healed_versions_rise_iff q).1 _ _ byName).2.mpr (by decide +kernel)
  refine ⟨_, hheal, hsucceeds, byName, hlast, fun r h => ?_⟩
  exact absurd (hagain [q, r] h).2.2 (show ¬ 4294967294 + 2 < UInt32.size by decide)

namespace Sample

/-- A file with the plan in the last version that there is. -/
def lastVersionFile : String := "id:
  id: 00000000-0000-0000-0000-0000000003e8
  version: 4294967295
base_url: /
cases:
- id: fill
  title: Fill
  coverage_type: statement
  steps:
  - kind: fill
    target: label=Email
    value: x
meta:
  persona: sdet
  count: 1
  generated_at: 1970-01-01T00:00:00Z
"

end Sample

namespace Plan

theorem ofBytes_toUTF8 (s : String) : ofBytes s.toUTF8 = ofYaml s := by
  have hutf8 : String.fromUTF8? s.toUTF8 = some s := dif_pos s.isValidUTF8
  unfold ofBytes
  rw [hutf8]

theorem lastVersion_read :
    ofBytes Sample.lastVersionFile.toUTF8 = .ok (Sample.versioned 4294967295) := by
  rw [ofBytes_toUTF8]
  unfold ofYaml Sample.lastVersionFile
  rw [Document.ofYaml?_ofList]
  decide +kernel

/-- **After the last version there is none.**  A plan in the last version is read from its file,
healing finds a change in it, and the counter of versions overflows. -/
theorem last_version_overflows : ∃ p,
    ofBytes Sample.lastVersionFile.toUTF8 = .ok p ∧ p.id.version = 4294967295 ∧
    p.FindsChange (Sample.discovery "email") "getByLabel('Email')" ∧
    p.heal (Sample.discovery "email") "getByLabel('Email')" = .overflow := by
  refine ⟨_, lastVersion_read, rfl, ?_, by decide +kernel⟩
  exact ⟨"label=Email", .label "Email", .name "email", by decide +kernel, by decide +kernel,
    Discovery.alternative?_eq_some_iff.mp (by decide +kernel)⟩

end Plan

end Testplan
