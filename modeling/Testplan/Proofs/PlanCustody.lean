import Testplan.Proofs.Announcements
import Testplan.Proofs.Records
import Testplan.Proofs.Schedule
/-!
# Which plan a job runs

A job is **handed** a plan for each of its attempts: for the first the part of its
submission that it was made for, and for the second the corrected plan that was made for
it.  It keeps the version of that plan, and when the attempt begins it looks the version
up in the plan store.

In every interleaving a job is handed exactly one plan for an attempt before it looks it
up, under the version that it keeps, and it finds a plan.  It finds **its own exactly if**
that is the first plan that was stored under the version
(`Interleaving.Reachable.fetched_iff_first`).  Versions do not rule out the contrary: two
jobs whose plans are corrected on different evidence get the same next version, and the
second runs the correction of the first (`Interleaving.foreign_correction_fetched`).
-/
namespace Testplan

/-- One of the plans into which a plan is split. -/
def Plan.HasPart (p part : Plan) : Prop :=
  ∃ a b, (p.splitSecurity a b).1 = some part ∨ (p.splitSecurity a b).2 = some part

/-- The plan is a correction of a plan on the evidence of the failure of a job. -/
def Job.HealedBy (j : Job) (h : HealedPlan) : Prop :=
  ∃ (d : Discovery) (p : Plan), j.discovery = some d ∧
    p.heal d ((j.failure?.map JobFailure.message).getD "") = .ok h

theorem Orchestrator.healedBy_of_healedPlan {o : Orchestrator} {j : Job} {h : HealedPlan}
    (hp : o.healedPlan j = .ok h) : j.HealedBy h := by
  unfold healedPlan at hp
  split at hp
  · cases hp
  · cases hp
  · next d p hd _ => exact ⟨d, p, hd, hp⟩

namespace Call

/-- The plan that is stored in a call. -/
def stored? : Call → Option Plan
  | create _ part _ => some part
  | correct _ h => some h.plan
  | _ => none

/-- The plan that a job is handed for an attempt in a call. -/
def handed? (id : JobId) (attempt : Nat) : Call → Option Plan
  | create _ part j => if j.id = id ∧ attempt = 0 then some part else none
  | correct j h => if j.id = id ∧ attempt = j.attempt + 1 then some h.plan else none
  | _ => none

/-- A plan is handed to a job when the job is made or when its plan was corrected. -/
theorem handed?_eq_some_iff {id : JobId} {a : Nat} {c : Call} {p : Plan} :
    c.handed? id a = some p ↔
      (∃ s j, c = create s p j ∧ j.id = id ∧ a = 0) ∨
        ∃ j h, c = correct j h ∧ j.id = id ∧ a = j.attempt + 1 ∧ h.plan = p := by
  cases c with
  | create s part j =>
    simp only [handed?, Option.ite_none_right_eq_some, Option.some.injEq]
    constructor
    · rintro ⟨⟨hid, ha⟩, rfl⟩
      exact .inl ⟨s, j, rfl, hid, ha⟩
    · rintro (⟨_, _, h, hid, ha⟩ | ⟨_, _, h, -⟩) <;> cases h
      exact ⟨⟨hid, ha⟩, rfl⟩
  | correct j q =>
    simp only [handed?, Option.ite_none_right_eq_some, Option.some.injEq]
    constructor
    · rintro ⟨⟨hid, ha⟩, hp⟩
      exact .inr ⟨j, q, rfl, hid, ha, hp⟩
    · rintro (⟨_, _, h, -⟩ | ⟨_, _, h, hid, ha, hp⟩) <;> cases h
      exact ⟨⟨hid, ha⟩, hp⟩
  | _ => simp [handed?]

theorem stored?_of_handed? {id : JobId} {a : Nat} {c : Call} {p : Plan}
    (h : c.handed? id a = some p) : c.stored? = some p := by
  rcases handed?_eq_some_iff.mp h with ⟨s, j, rfl, -⟩ | ⟨j, q, rfl, -, -, rfl⟩ <;> rfl

theorem subject?_of_handed? {id : JobId} {a : Nat} {c : Call} {p : Plan}
    (h : c.handed? id a = some p) : c.subject? = some id := by
  rcases handed?_eq_some_iff.mp h with ⟨s, j, rfl, rfl, -⟩ | ⟨j, q, rfl, rfl, -⟩ <;> rfl

end Call

/-! ## The plan store -/

namespace Interleaving

/-- **The plan store shows the first plan** that was stored under a version. -/
theorem Reachable.get?_plans {w : Interleaving} (h : Reachable w) (r : PlanRef) :
    w.orchestrator.plans.get? r =
      (w.calls.filterMap Call.stored?).find? fun p => p.ref = r := by
  refine h.invariant (P := fun w => w.orchestrator.plans.get? r =
    (w.calls.filterMap Call.stored?).find? fun p => p.ref = r) ?_ ?_
  · rintro u ⟨config, adapters, host, ids, rfl⟩
    rfl
  · intro v w hv ih hs
    cases hs with
    | @serve o t t' c hm l r' calls =>
      -- a plan that is stored is the first under its version only if the store had none
      have stored : ∀ p : Plan, c.stored? = some p → (o.serve c).plans = o.plans.insert p →
          (o.serve c).plans.get? r =
            ((calls ++ [c]).filterMap Call.stored?).find? fun p => p.ref = r := by
        intro p hp ho
        rw [ho, PlanStore.get?_insert, ih, List.filterMap_append, List.find?_append]
        by_cases hr : p.ref = r <;> simp [hp, hr]
      cases c with
      | create s part j => exact stored part rfl rfl
      | correct j q => exact stored q.plan rfl rfl
      | _ =>
        rw [List.filterMap_append]
        show o.plans.get? r = List.find? _ (_ ++ [])
        rw [List.append_nil]
        exact ih

/-- Every plan is stored under its version. -/
theorem Reachable.ref_of_get?_plans {w : Interleaving} (h : Reachable w) {r : PlanRef} {p : Plan}
    (hp : w.orchestrator.plans.get? r = some p) : p.ref = r := by
  rw [h.get?_plans] at hp
  simpa using List.find?_some hp

/-! ## Plans that are handed to jobs -/

/-- The plans that a job was handed for an attempt. -/
def handedPlans (calls : List Call) (id : JobId) (attempt : Nat) : List Plan :=
  calls.filterMap (Call.handed? id attempt)

theorem handedPlans_append (calls : List Call) (c : Call) (id : JobId) (a : Nat) :
    handedPlans (calls ++ [c]) id a = handedPlans calls id a ++ (c.handed? id a).toList :=
  filterMap_append_singleton _ calls c

theorem handedPlans_append_of_none {calls : List Call} {c : Call} {id : JobId}
    (hc : ∀ a, c.handed? id a = none) (a : Nat) :
    handedPlans (calls ++ [c]) id a = handedPlans calls id a := by
  rw [handedPlans_append, hc a, Option.toList_none, List.append_nil]

/-- **The job has one plan for its attempt**, under the version that it keeps, and none
yet for an attempt after it. -/
structure Provided (calls : List Call) (j : Job) : Prop where
  plan : ∃ p, handedPlans calls j.id j.attempt = [p] ∧ p.ref = j.plan
  later : ∀ a, j.attempt < a → handedPlans calls j.id a = []

/-- A call that hands the job nothing leaves it provided. -/
theorem Provided.append {calls : List Call} {i j : Job} (h : Provided calls i)
    (hid : j.id = i.id) (ha : j.attempt = i.attempt) (hp : j.plan = i.plan) {c : Call}
    (hc : ∀ a, c.handed? i.id a = none) : Provided (calls ++ [c]) j := by
  obtain ⟨⟨p, hplan, href⟩, hlater⟩ := h
  refine ⟨⟨p, ?_, href.trans hp.symm⟩, ?_⟩
  · rw [hid, ha, handedPlans_append_of_none hc]
    exact hplan
  · intro a hlt
    rw [hid, handedPlans_append_of_none hc]
    exact hlater a (ha ▸ hlt)

end Interleaving

/-- **What a routine knows of the plans of its job**, up to the time when the job is given
away or has ended. -/
def Routine.Provided (calls : List Call) : Routine → Prop
  | adding _ j | opening _ j | starting _ j | fetching _ j | working _ j
  | correcting _ j | storing _ j _ => Interleaving.Provided calls j
  | handing _ j h =>
    Interleaving.handedPlans calls j.id (j.attempt + 1) = [h.plan] ∧
      ∀ a, j.attempt + 1 < a → Interleaving.handedPlans calls j.id a = []
  | _ => True

/-- A call that hands the job of a routine nothing leaves the routine provided. -/
theorem Routine.Provided.append {calls : List Call} {t : Routine} (h : t.Provided calls)
    {c : Call} (hc : ∀ id, t.owns id = true → ∀ a, c.handed? id a = none) :
    t.Provided (calls ++ [c]) := by
  cases t with
  | handing n j p =>
    have same := @Interleaving.handedPlans_append_of_none calls _ _ (hc j.id (decide_eq_true rfl))
    refine ⟨(same _).trans h.1, ?_⟩
    intro a ha
    exact (same a).trans (h.2 a ha)
  | adding _ j | opening _ j | starting _ j | fetching _ j | working _ j | correcting _ j
  | storing _ j _ =>
    exact Interleaving.Provided.append h rfl rfl rfl (hc j.id (decide_eq_true rfl))
  | _ => trivial

namespace Interleaving

/-- A job that is made is handed its plan, and none before. -/
theorem provided_create {calls : List Call} {s : Submission} {part : Plan} {j : Job}
    (hfresh : ∀ c ∈ calls, ∀ a, c.handed? j.id a = none) (ha : j.attempt = 0)
    (hp : j.plan = part.ref) : Provided (calls ++ [.create s part j]) j := by
  have hnone : ∀ a, handedPlans calls j.id a = [] :=
    fun a => List.filterMap_eq_nil_iff.mpr fun c hc => hfresh c hc a
  refine ⟨⟨part, ?_, hp.symm⟩, ?_⟩
  · rw [handedPlans_append, hnone]
    simp [Call.handed?, ha]
  · intro a hlt
    rw [handedPlans_append, hnone]
    simp only [Call.handed?, true_and]
    rw [if_neg (by omega)]
    rfl

/-- The correction of a plan is handed to its job for the next attempt. -/
theorem provided_correct {calls : List Call} {j : Job} {n : QueueName} {h : HealedPlan}
    (hp : Provided calls j) : Routine.Provided (calls ++ [.correct j h]) (.handing n j h) := by
  refine ⟨?_, ?_⟩
  · rw [handedPlans_append, hp.later _ (Nat.lt_succ_self _)]
    simp [Call.handed?]
  · intro a hlt
    rw [handedPlans_append, hp.later a (by omega)]
    simp only [Call.handed?, true_and]
    rw [if_neg (by omega)]
    rfl

/-- The healed job keeps the version of the correction. -/
theorem provided_requeue {calls : List Call} {j healed : Job} {n : QueueName} {h : HealedPlan}
    (hp : Routine.Provided calls (.handing n j h))
    (hj : j.requeueForHealing? h.plan.ref = some healed) : Provided calls healed := by
  obtain ⟨-, rfl⟩ := (Job.requeueForHealing?_eq_some_iff j _ healed).mp hj
  exact ⟨⟨h.plan, hp.1, rfl⟩, hp.2⟩

/-- **Every job that is not given away or ended is provided with a plan.** -/
structure AllProvided (w : Interleaving) : Prop where
  tasks : ∀ t ∈ w.tasks, t.Provided w.calls
  contents : ∀ n, ∀ j ∈ (w.orchestrator.queue n).contents, Provided w.calls j

end Interleaving

/-- A job is handed no plan in a call of a routine that neither has it nor makes it. -/
theorem Moves.handed?_eq_none {o : Orchestrator} {t t' : Option Routine} {c : Call}
    {id : JobId} (hm : Moves o t c t') (ht : ∀ x, t = some x → ¬ x.owns id = true)
    (hc : ¬ c.creates id = true) (a : Nat) : c.handed? id a = none := by
  refine Option.eq_none_iff_forall_ne_some.mpr ?_
  intro p hp
  rcases Call.handed?_eq_some_iff.mp hp with ⟨s, j, rfl, hid, -⟩ | ⟨j, h, rfl, hid, -⟩
  · exact hc (decide_eq_true hid)
  · cases hm with
    | store => exact ht _ rfl (decide_eq_true hid)

/-- Every call takes a provided routine to a provided one. -/
theorem Moves.provided {o : Orchestrator} {t t' : Option Routine} {c : Call} {calls : List Call}
    (hm : Moves o t c t') (ht : ∀ x, t = some x → x.Provided calls)
    (hc : ∀ n, ∀ j ∈ (o.queue n).contents, Interleaving.Provided calls j)
    (hfresh : ∀ id, c.creates id = true → ∀ d ∈ calls, ∀ a, d.handed? id a = none) :
    ∀ y, t' = some y → y.Provided (calls ++ [c]) := by
  have next : ∀ {x : Routine}, x.Provided (calls ++ [c]) →
      ∀ y, some x = some y → y.Provided (calls ++ [c]) := by
    intro x hx y hy
    exact Option.some.inj hy ▸ hx
  -- a job that keeps its plan stays provided
  have kept : ∀ {i j : Job}, Interleaving.Provided calls i → j.id = i.id →
      j.attempt = i.attempt → j.plan = i.plan → (∀ a, c.handed? i.id a = none) →
      Interleaving.Provided (calls ++ [c]) j :=
    fun h hid ha hp hn => h.append hid ha hp hn
  cases hm with
  | accept | announce =>
    intro y hy
    rw [Intake.eq_submitting hy]
    trivial
  | @create s environment n part parts =>
    exact next (Interleaving.provided_create (hfresh _ (decide_eq_true rfl)) rfl rfl)
  | @take n token j hj =>
    have hmem := Orchestrator.mem_contents_of_take hj
    exact next (kept (hc n j hmem) rfl rfl rfl fun _ => rfl)
  | @openAttempt n j =>
    exact next (kept (ht _ rfl) (o.id_start j) (o.attempt_start j) (o.plan_start j) fun _ => rfl)
  | @begin n j => exact next (kept (i := j) (ht _ rfl) rfl rfl rfl fun _ => rfl)
  | @fetch n j => exact next (kept (i := j) (ht _ rfl) rfl rfl rfl fun _ => rfl)
  | @log n j line => exact next (kept (i := j) (ht _ rfl) rfl rfl rfl fun _ => rfl)
  | @mend n j h hp => exact next (kept (i := j) (ht _ rfl) rfl rfl rfl fun _ => rfl)
  | @fail n j v _ =>
    exact next (kept (i := j) (ht _ rfl) (Orchestrator.id_judged j v)
      (Orchestrator.attempt_judged j v) (Orchestrator.plan_judged j v) fun _ => rfl)
  | store => exact next (Interleaving.provided_correct (ht _ rfl))
  | decline | requeue | complete | miss | poll | administer | remove | surroundings =>
    exact fun _ hy => nomatch hy
  | _ => exact next trivial

/-- A job that a queue gets is provided. -/
theorem Moves.provided_of_add {o : Orchestrator} {t t' : Option Routine} {n : QueueName}
    {j : Job} {calls : List Call} (hm : Moves o t (.add n j) t')
    (ht : ∀ x, t = some x → x.Provided calls) :
    Interleaving.Provided (calls ++ [.add n j]) j := by
  cases hm with
  | add => exact Interleaving.Provided.append (ht _ rfl) rfl rfl rfl fun _ => rfl
  | @hand n i h _ _ hj _ =>
    exact (Interleaving.provided_requeue (ht _ rfl) hj).append rfl rfl rfl fun _ => rfl

namespace Interleaving

theorem AllProvided.step {v w : Interleaving} (h : v.AllProvided) (hk : v.Known)
    (hcv : ∀ id, v.custody id ≤ 1) (hw : w.Distinct) (hs : Step v w) : w.AllProvided := by
  obtain ⟨c, hc⟩ := hs.calls_eq
  have hfresh : ∀ id, c.creates id = true → ¬ v.orchestrator.ids.HasDrawn id.uuid :=
    fun _ => hs.not_hasDrawn_of_creates hc hw
  cases hs with
  | @serve o t t' d hm l r calls =>
    obtain rfl : d = c := by simpa using List.append_cancel_left hc
    obtain ⟨htasks, hcontents⟩ := h
    have ht : ∀ x, t = some x → x.Provided calls :=
      fun x hx => htasks x (mem_tasks_iff.mpr (.inl hx))
    -- nobody but the routine that makes the call has the job that is handed a plan
    have others : ∀ y ∈ l ++ r, y.Provided (calls ++ [d]) := by
      intro y hy
      have hmem : y ∈ l ++ t.toList ++ r := mem_tasks_iff.mpr (.inr hy)
      refine (htasks y hmem).append ?_
      intro id hown
      refine hm.handed?_eq_none ?_ fun hcr => hfresh id hcr (hk.hasDrawn_of_owns hmem hown)
      rintro x rfl hxo
      exact (sole_owner (hcv id) rfl hxo).1 y hy hown
    refine ⟨?_, ?_⟩
    · intro y hy
      rcases mem_tasks_iff.mp hy with hy | hy
      · refine hm.provided ht hcontents ?_ y hy
        intro id hcr e he a
        refine Option.eq_none_iff_forall_ne_some.mpr ?_
        intro p hp
        exact hfresh id hcr (hk.calls e he id (Call.subject?_of_handed? hp))
      · exact others y hy
    · intro n j hj
      rcases hm.mem_contents hj with rfl | hold
      · exact hm.provided_of_add ht
      · refine (hcontents n j hold).append rfl rfl rfl ?_
        refine hm.handed?_eq_none ?_ fun hcr => hfresh j.id hcr (hk.contents n j hold)
        rintro x rfl hxo
        exact (sole_owner (hcv j.id) rfl hxo).2.1 n j hold rfl

theorem Reachable.allProvided {w : Interleaving} (h : Reachable w) (hd : w.Distinct) :
    w.AllProvided := by
  refine h.invariant_of_distinct hd ?_ fun v w hv hw ih hs =>
    ih.step hv.known (hv.custody_le_one (hs.distinct hw)) hw hs
  rintro u ⟨config, adapters, host, ids, rfl⟩
  refine ⟨(fun _ ht => nomatch ht), ?_⟩
  intro n j hj
  cases n <;> cases hj

end Interleaving

/-! ## Where plans come from -/

/-- A job that is made is for a part of its submission, and a correction that is stored
for a job is a correction on the evidence of that job. -/
def Call.Sourced : Call → Prop
  | create s part _ => s.plan.HasPart part
  | correct j h => j.HealedBy h
  | _ => True

/-- **The parts and corrections of a routine are those of its submission or job.** -/
def Routine.Sourced : Routine → Prop
  | submitting r | adding r _ | listing r _ | announcing r _ =>
    ∀ p ∈ r.parts, r.submission.plan.HasPart p.2
  | storing _ j h => j.HealedBy h
  | _ => True

theorem Orchestrator.hasPart_of_mem_partsOf {o : Orchestrator} {p : Plan} :
    ∀ part ∈ (o.partsOf p).2, p.HasPart part.2 := by
  intro part hp
  refine ⟨o.ids.draw.1, o.ids.draw.2.draw.1, ?_⟩
  rcases List.mem_append.mp hp with h | h
  · obtain ⟨q, hq, rfl⟩ := Option.map_eq_some_iff.mp (Option.mem_toList.mp h)
    exact .inl hq
  · obtain ⟨q, hq, rfl⟩ := Option.map_eq_some_iff.mp (Option.mem_toList.mp h)
    exact .inr hq

/-- Every call hands out what its routine has rightly. -/
theorem Moves.sourced {o : Orchestrator} {t t' : Option Routine} {c : Call}
    (hm : Moves o t c t') (ht : ∀ x, t = some x → x.Sourced) :
    c.Sourced ∧ ∀ y, t' = some y → y.Sourced := by
  have next : ∀ {x : Routine}, x.Sourced → ∀ y, some x = some y → y.Sourced := by
    intro x hx y hy
    exact Option.some.inj hy ▸ hx
  have rest : ∀ {r : Intake}, (∀ p ∈ r.parts, r.submission.plan.HasPart p.2) →
      ∀ y, r.routine? = some y → y.Sourced := by
    intro r hr y hy
    rw [Intake.eq_submitting hy]
    exact hr
  cases hm with
  | accept => exact ⟨trivial, rest Orchestrator.hasPart_of_mem_partsOf⟩
  | @create s environment n part parts =>
    have hp : ∀ p ∈ (n, part) :: parts, s.plan.HasPart p.2 := ht _ rfl
    exact ⟨hp _ (List.mem_cons_self ..), next fun p h => hp p (List.mem_cons_of_mem _ h)⟩
  | @add r j hall _ =>
    have hr : ∀ p ∈ r.parts, r.submission.plan.HasPart p.2 := ht _ rfl
    exact ⟨trivial, next hr⟩
  | @list r j =>
    have hr : ∀ p ∈ r.parts, r.submission.plan.HasPart p.2 := ht _ rfl
    exact ⟨trivial, next hr⟩
  | announce => exact ⟨trivial, rest (ht _ rfl)⟩
  | mend hp => exact ⟨trivial, next (Orchestrator.healedBy_of_healedPlan hp)⟩
  | store => exact ⟨ht _ rfl, next trivial⟩
  | decline | requeue | complete | miss | poll | administer | remove | surroundings =>
    exact ⟨trivial, fun _ hy => nomatch hy⟩
  | _ => exact ⟨trivial, next trivial⟩

namespace Interleaving

theorem Reachable.sourced {w : Interleaving} (h : Reachable w) :
    (∀ t ∈ w.tasks, t.Sourced) ∧ ∀ c ∈ w.calls, c.Sourced := by
  refine h.invariant (P := fun w => (∀ t ∈ w.tasks, t.Sourced) ∧ ∀ c ∈ w.calls, c.Sourced)
    ?_ ?_
  · rintro u ⟨config, adapters, host, ids, rfl⟩
    exact ⟨(fun _ ht => nomatch ht), (fun _ hc => nomatch hc)⟩
  · rintro v w - ⟨htasks, hcalls⟩ hs
    cases hs with
    | @serve o t t' c hm l r calls =>
      obtain ⟨hc, ht'⟩ := hm.sourced fun x hx => htasks x (mem_tasks_iff.mpr (.inl hx))
      refine ⟨?_, ?_⟩
      · intro x hx
        rcases mem_tasks_iff.mp hx with hx | hx
        · exact ht' x hx
        · exact htasks x (mem_tasks_iff.mpr (.inr hx))
      · intro d hd
        rcases List.mem_append.mp hd with hd | hd
        · exact hcalls d hd
        · exact List.mem_singleton.mp hd ▸ hc

/-- **The plan is the one that a job is to run in an attempt**: in the first a part of the
plan that was submitted for it, and in the next the correction made for it after it failed. -/
inductive MeantFor (calls : List Call) (id : JobId) : Nat → Plan → Prop where
  | part {s p j} (hc : .create s p j ∈ calls) (hj : j.id = id) (hp : s.plan.HasPart p) :
    MeantFor calls id 0 p
  | correction {j h} (hc : .correct j h ∈ calls) (hj : j.id = id) (hh : j.HealedBy h) :
    MeantFor calls id (j.attempt + 1) h.plan

/-- A job is handed no plan but the one that it is to run. -/
theorem meantFor_of_mem_handedPlans {calls : List Call} {id : JobId} {a : Nat} {p : Plan}
    (hp : p ∈ handedPlans calls id a) (hs : ∀ c ∈ calls, c.Sourced) : MeantFor calls id a p := by
  obtain ⟨c, hc, hh⟩ := List.mem_filterMap.mp hp
  rcases Call.handed?_eq_some_iff.mp hh with ⟨s, j, rfl, hid, rfl⟩ | ⟨j, h, rfl, hid, rfl, rfl⟩
  · exact .part hc hid (hs _ hc)
  · exact .correction hc hid (hs _ hc)

/-! ## The plan that a job finds -/

/-- **A job runs its own plan exactly if that was the first plan stored under its
version.**  For its attempt it was handed one plan, the one meant for it, and it keeps the
version of that plan; it finds a plan in any case. -/
theorem Reachable.fetched_iff_first {w : Interleaving} (h : Reachable w) (hd : w.Distinct)
    {before after : List Call} {j : Job} {answer : Option Plan}
    (hc : w.calls = before ++ .fetch j answer :: after) :
    ∃ p, handedPlans before j.id j.attempt = [p] ∧ p.ref = j.plan ∧
      MeantFor before j.id j.attempt p ∧ answer.isSome = true ∧
      (answer = some p ↔
        (before.filterMap Call.stored?).find? (fun q => q.ref = p.ref) = some p) := by
  obtain ⟨u, v, hu, rfl, hs, hvc, hvw⟩ := h.split_at hc
  have hud := hs.distinct (hvw.distinct hd)
  -- what is known just before the lookup
  have hprovided := hu.allProvided hud
  have hsource := hu.sourced.2
  have hstore := hu.get?_plans j.plan
  cases hs with
  | @serve o t t' c hm l r calls =>
    obtain rfl : c = .fetch j answer := by simpa using List.append_cancel_left hvc
    cases hm with
    | @fetch n =>
      obtain ⟨p, hp, href⟩ :=
        (show Provided calls j from hprovided.tasks (.fetching n j) (by simp)).plan
      have hmem : p ∈ handedPlans calls j.id j.attempt := by
        rw [hp]
        exact List.mem_singleton_self p
      refine ⟨p, hp, href, meantFor_of_mem_handedPlans hmem hsource, ?_, ?_⟩
      · -- what a job was handed was stored under the version that it keeps
        rw [hstore, List.find?_isSome]
        obtain ⟨c, hc, hh⟩ := List.mem_filterMap.mp hmem
        exact ⟨p, List.mem_filterMap.mpr ⟨c, hc, Call.stored?_of_handed? hh⟩,
          decide_eq_true href⟩
      · rw [hstore, href]

/-! ## The correction of another job -/

/-- The job whose plan is looked up next, if that is all that is under way. -/
def nextFetch? (w : Interleaving) : Option Job :=
  match w.tasks with
  | [.fetching _ j] => some j
  | _ => none

theorem calls_of_nextFetch? {w : Interleaving} {j : Job} (h : w.nextFetch? = some j) :
    (w.turn (.go 0)).calls = w.calls ++ [.fetch j (w.orchestrator.plans.get? j.plan)] := by
  obtain ⟨o, tasks, calls⟩ := w
  unfold nextFetch? at h
  split at h
  · next n i ht =>
    cases h
    cases ht
    rfl
  · cases h

end Interleaving

namespace Sample

/-- The turns of a submission with one job. -/
def queueing (s : Submission) : List Turn := [.submit s, .go 0, .go 0, .go 0, .go 0]

/-- The turns of a worker whose job fails and is handed over for healing. -/
def failing : List Turn :=
  [.take .run, .go 0, .go 0, .go 0, .judge 0 notFound, .go 0, .go 0, .go 0, .go 0, .go 0,
    .go 0, .go 0]

/-- The turns of a worker that begins the second attempt at a job. -/
def retrying : List Turn := [.take .healing, .go 0, .go 0]

/-- The turns of a worker that looks the plan up and brings the job to its end. -/
def passing : List Turn := [.go 0, .judge 0 .passed, .go 0, .go 0, .go 0]

/-- One plan was submitted for two applications, which give the field different names.  Both
jobs have failed and the first is about to look its correction up. -/
def firstRetry : Interleaving := start.follow
  (queueing (submission .statement "email") ++ queueing (submission .statement "mail") ++
    failing ++ failing ++ retrying)

/-- The second job is about to look its correction up. -/
def secondRetry : Interleaving := firstRetry.follow (passing ++ retrying)

theorem steps_secondRetry : Interleaving.Steps start (secondRetry.turn (.go 0)) :=
  ((start.steps_follow _).trans (firstRetry.steps_follow _)).trans (secondRetry.steps_turn _)

theorem steps_firstRetry : Interleaving.Steps start (firstRetry.turn (.go 0)) :=
  (start.steps_follow _).trans (firstRetry.steps_turn _)

end Sample

namespace Interleaving

/-- **A job runs the correction of another job.**  Its plan was corrected for its own
application, but that version of the plan was taken. -/
theorem foreign_correction_fetched :
    (Sample.secondRetry.turn (.go 0)).Reachable ∧ (Sample.secondRetry.turn (.go 0)).Distinct ∧
      ∃ j, (Sample.secondRetry.turn (.go 0)).calls =
          Sample.secondRetry.calls ++ [.fetch j (some (Sample.correction "email"))] ∧
        handedPlans Sample.secondRetry.calls j.id j.attempt = [Sample.correction "mail"] ∧
        Sample.correction "email" ≠ Sample.correction "mail" := by
  refine ⟨Sample.reachable_start.steps Sample.steps_secondRetry,
    Sample.distinct_of_drawn_le Sample.steps_secondRetry (by decide +kernel), ?_⟩
  obtain ⟨j, hj⟩ := Option.isSome_iff_exists.mp
    (by decide +kernel : Sample.secondRetry.nextFetch?.isSome = true)
  have hplan : Sample.secondRetry.nextFetch?.bind
      (fun j => Sample.secondRetry.orchestrator.plans.get? j.plan) =
        some (Sample.correction "email") := by decide +kernel
  have hhanded : Sample.secondRetry.nextFetch?.map
      (fun j => handedPlans Sample.secondRetry.calls j.id j.attempt) =
        some [Sample.correction "mail"] := by decide +kernel
  rw [hj, Option.bind_some] at hplan
  rw [hj, Option.map_some] at hhanded
  refine ⟨j, ?_, Option.some.inj hhanded, by decide +kernel⟩
  rw [calls_of_nextFetch? hj, hplan]

/-- The job whose correction was stored first runs its own. -/
theorem own_correction_fetched :
    (Sample.firstRetry.turn (.go 0)).Reachable ∧ (Sample.firstRetry.turn (.go 0)).Distinct ∧
      ∃ j, (Sample.firstRetry.turn (.go 0)).calls =
          Sample.firstRetry.calls ++ [.fetch j (some (Sample.correction "email"))] ∧
        handedPlans Sample.firstRetry.calls j.id j.attempt = [Sample.correction "email"] ∧
        MeantFor Sample.firstRetry.calls j.id j.attempt (Sample.correction "email") := by
  have hr : (Sample.firstRetry.turn (.go 0)).Reachable :=
    Sample.reachable_start.steps Sample.steps_firstRetry
  have hd : (Sample.firstRetry.turn (.go 0)).Distinct :=
    Sample.distinct_of_drawn_le Sample.steps_firstRetry (by decide +kernel)
  obtain ⟨j, hj⟩ := Option.isSome_iff_exists.mp
    (by decide +kernel : Sample.firstRetry.nextFetch?.isSome = true)
  have hhanded : Sample.firstRetry.nextFetch?.map
      (fun j => handedPlans Sample.firstRetry.calls j.id j.attempt) =
        some [Sample.correction "email"] := by decide +kernel
  have hfirst : (Sample.firstRetry.calls.filterMap Call.stored?).find?
      (fun q => q.ref = (Sample.correction "email").ref) = some (Sample.correction "email") := by
    decide +kernel
  obtain ⟨p, hp, -, hmeant, -, hown⟩ := hr.fetched_iff_first hd (calls_of_nextFetch? hj)
  rw [hj, Option.map_some, Option.some.injEq, hp, List.cons.injEq] at hhanded
  obtain ⟨rfl, -⟩ := hhanded
  refine ⟨hr, hd, j, ?_, hp, hmeant⟩
  rw [calls_of_nextFetch? hj, hown.mpr hfirst]

end Interleaving

end Testplan
