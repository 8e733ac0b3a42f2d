import Testplan.Proofs.Records
import Testplan.Proofs.Uninterrupted
/-!
# How an attempt ends

At the end of an attempt the job is handed over to the queue for healing (`HandedOver`) or
it has ended (`Concluded`).  It is handed over exactly if its first attempt failed for
want of an element, what is known about the application corrects the plan that it ran
(`HealsTo`), and the queue for healing is open (`Orchestrator.finish_outcome`).  An attempt
breaks off exactly if the correction overflows the counter of versions
(`Orchestrator.strands_iff_overflow`).
-/
namespace Testplan

namespace Orchestrator

/-! ## Histories of jobs -/

/-- What was told of a job so far. -/
def history (o : Orchestrator) (id : JobId) : List JobEvent :=
  o.events.filterMap fun e => if e.1 = id then some e.2 else none

theorem history_congr {o₁ o : Orchestrator} (h : o₁.events = o.events) (id : JobId) :
    o₁.history id = o.history id := by
  unfold history
  rw [h]

theorem history_report (o : Orchestrator) (i : JobId) (e : JobEvent) (id : JobId) :
    (o.report i e).history id = if i = id then o.history id ++ [e] else o.history id := by
  unfold history report
  rw [List.filterMap_append]
  by_cases hi : i = id <;> simp [hi]

theorem history_report_self (o : Orchestrator) (id : JobId) (e : JobEvent) :
    (o.report id e).history id = o.history id ++ [e] := by
  rw [history_report, if_pos rfl]

theorem history_report_of_ne (o : Orchestrator) {i id : JobId} (e : JobEvent) (h : id ≠ i) :
    (o.report i e).history id = o.history id := by
  rw [history_report, if_neg h.symm]

end Orchestrator

/-! ## The two outcomes -/

/-- **The failure of a job can be healed**: its first attempt failed for want of an element,
and the plan that it ran is corrected on the evidence of that failure. -/
def Orchestrator.HealsTo (o : Orchestrator) (discovery : Option Discovery) (j : Job) (v : Verdict)
    (h : HealedPlan) : Prop :=
  ∃ f d p, v.status j.logTail = .failed f ∧ f.kind = .selectorNotFound ∧ j.attempt = 0 ∧
    discovery = some d ∧ o.plans.get? j.plan = some p ∧ p.heal d f.message = .ok h

/-- **The job was handed over** from its queue to the queue for healing. -/
structure HandedOver (o : Orchestrator) (n : QueueName) (j : Job) (h : HealedPlan)
    (o' : Orchestrator) : Prop where
  told : o'.history j.id =
    o.history j.id ++ [.healing h.plan.ref h.changes, .queued .healing 1]
  waits : ∃ healed : Job, healed.id = j.id ∧ healed.Waits .healing ∧ healed.plan = h.plan.ref ∧
    healed.discovery = j.discovery ∧ o'.board.get? j.id = some healed ∧
    (o'.queue .healing).contents.Perm (healed :: (o.queue .healing).contents)
  released : j.id ∉ (o'.queue n).active
  unfinished : (o'.queue n).finished = (o.queue n).finished
  other_queues : ∀ m, m ≠ .healing → (o'.queue m).contents = (o.queue m).contents
  other_jobs : ∀ i, i ≠ j.id → o'.history i = o.history i

/-- **The job has ended** in the queue that it ran on. -/
structure Concluded (o : Orchestrator) (n : QueueName) (j : Job) (o' : Orchestrator) : Prop where
  ended : ∃ e : Job, e.id = j.id ∧ e.Ended n ∧
    o'.history j.id = o.history j.id ++ [.finished n e.status] ∧
    o'.board.get? j.id = some e ∧ (o'.queue n).finished = (o.queue n).finished ++ [(o.hall.now, e)]
  released : j.id ∉ (o'.queue n).active
  queues : ∀ m, (o'.queue m).contents = (o.queue m).contents
  other_jobs : ∀ i, i ≠ j.id → o'.history i = o.history i

namespace Orchestrator

theorem concluded_conclude (o : Orchestrator) {n : QueueName} {j : Job} (hj : j.Ended n) :
    Concluded o n j (o.conclude n j) := by
  have hqueue : ∀ m, (o.conclude n j).queue m =
      if m = n then (o.queue n).complete o.hall.now j else o.queue m :=
    fun m => queue_modify ((o.record j).report j.id (.finished j.queue j.status)) n m _
  refine ⟨⟨j, rfl, hj, ?_, ?_, ?_⟩, ?_, ?_, ?_⟩
  · show ((o.record j).report j.id (.finished j.queue j.status)).history j.id = _
    rw [history_report_self, hj.1.queue]
    rfl
  · show (o.board.record j).get? j.id = some j
    rw [JobBoard.get?_record, if_pos rfl]
  · rw [hqueue, if_pos rfl]
    rfl
  · rw [hqueue, if_pos rfl, JobQueue.mem_active_complete]
    exact fun h => h.2 rfl
  · intro m
    rw [hqueue]
    split
    · next hm => rw [hm]; rfl
    · rfl
  · intro i hi
    show ((o.record j).report j.id (.finished j.queue j.status)).history i = _
    rw [history_report_of_ne _ _ hi]
    rfl

theorem handedOver_of_handOff? {o o' : Orchestrator} {n : QueueName} {j : Job} {h : HealedPlan}
    (hj : j.MayHeal n) (hh : o.handOff? n j h = some o') : HandedOver o n j h o' := by
  obtain ⟨healed, hall, hr, ha, rfl⟩ := handOff?_eq_some_iff.mp hh
  have hwaits := Job.waits_of_requeueForHealing? hr
  have hn := hj.ne_healing
  -- the queue for healing has the job before its own queue gives it up
  obtain ⟨q, hq, hadd⟩ := o.queue_add ha
  rw [serve_add ha] at hadd
  have hqueue : ∀ m, ((({ o with hall := hall.modify n fun q => q.release j.id }.record
      healed).report j.id (.healing h.plan.ref h.changes)).report j.id
      (.queued healed.queue healed.attempt)).queue m =
      if m = n then (o.queue n).release j.id else if m = .healing then q else o.queue m := by
    intro m
    refine (queue_modify { o with hall } n m fun q => q.release j.id).trans ?_
    rw [hadd, hadd, if_neg hn]
  have hid : healed.id = j.id ∧ healed.plan = h.plan.ref ∧ healed.discovery = j.discovery := by
    obtain ⟨-, rfl⟩ := (Job.requeueForHealing?_eq_some_iff j _ healed).mp hr
    exact ⟨rfl, rfl, rfl⟩
  refine ⟨?_, ⟨healed, hid.1, hwaits, hid.2.1, hid.2.2, ?_, ?_⟩, ?_, ?_, ?_, ?_⟩
  · rw [history_report_self, history_report_self, hwaits.1.queue, hwaits.1.attempt,
      List.append_assoc]
    rfl
  · show (o.board.record healed).get? j.id = some healed
    rw [JobBoard.get?_record, if_pos hid.1.symm]
  · rw [hqueue, if_neg hn.symm, if_pos rfl]
    exact JobQueue.contents_of_add? hq
  · rw [hqueue, if_pos rfl, JobQueue.mem_active_release]
    exact fun h => h.2 rfl
  · rw [hqueue, if_pos rfl]
    rfl
  · intro m hm
    rw [hqueue]
    split
    · next hm => rw [hm]; rfl
    · rfl
  · intro i hi
    rw [history_report_of_ne _ _ hi, history_report_of_ne _ _ hi]
    rfl

/-- A job that ran may be healed, and this is not refused, exactly if its first attempt failed
for want of an element and its plan is healed on the evidence of that failure. -/
theorem exists_heal_iff (o : Orchestrator) {n : QueueName} {j : Job} (hj : j.Runs n)
    (v : Verdict) {r : HealResult} (hr : ∀ e, r ≠ .error e) :
    (∃ f d p, v.status j.logTail = .failed f ∧ f.kind = .selectorNotFound ∧ j.attempt = 0 ∧
      j.discovery = some d ∧ o.plans.get? j.plan = some p ∧ p.heal d f.message = r) ↔
      (judged j v).isHealable = true ∧ o.healedPlan (judged j v) = r := by
  rw [judged_eq hj.2, Job.isHealable_iff]
  constructor
  · rintro ⟨f, d, p, hs, hk, ha, hd, hp, hh⟩
    refine ⟨⟨⟨f, hs, hk⟩, ha, ?_⟩, ?_⟩
    · show j.queue ≠ .healing
      rw [hj.1.queue, ← QueueName.attempt_eq_zero_iff, ← hj.1.attempt]
      exact ha
    · simp only [healedPlan, Job.failure?, hd, hp, hs]
      exact hh
  · rintro ⟨⟨⟨f, hs, hk⟩, ha, -⟩, hh⟩
    unfold healedPlan at hh
    split at hh
    · exact absurd hh.symm (hr _)
    · exact absurd hh.symm (hr _)
    · next d p hd hp =>
      refine ⟨f, d, p, hs, hk, ha, hd, hp, ?_⟩
      have hs' : v.status j.logTail = .failed f := hs
      simpa only [Job.failure?, hs', Option.map_some, Option.getD_some] using hh

/-- A job that ran may be healed and its plan be corrected exactly if its failure can be
healed. -/
theorem healsTo_iff (o : Orchestrator) {n : QueueName} {j : Job} (hj : j.Runs n) (v : Verdict)
    (h : HealedPlan) : o.HealsTo j.discovery j v h ↔
      (judged j v).isHealable = true ∧ o.healedPlan (judged j v) = .ok h :=
  o.exists_heal_iff hj v (r := .ok h) nofun

/-- **An attempt breaks off** exactly if it is the first and failed for want of an element, and
the counter of versions overflows when its plan is healed. -/
theorem strands_iff_overflow (o : Orchestrator) {n : QueueName} {j : Job} (hj : j.Runs n)
    (v : Verdict) : o.strands j v = true ↔
      ∃ f d p, v.status j.logTail = .failed f ∧ f.kind = .selectorNotFound ∧ j.attempt = 0 ∧
        j.discovery = some d ∧ o.plans.get? j.plan = some p ∧ p.heal d f.message = .overflow := by
  rw [o.exists_heal_iff hj v (r := .overflow) nofun]
  exact strands_iff

/-- A hand-over fails exactly if the queue for healing is closed. -/
theorem handOff?_eq_none_iff (o : Orchestrator) {n : QueueName} {j : Job} (hj : j.MayHeal n)
    (h : HealedPlan) : o.handOff? n j h = none ↔ (o.queue .healing).closed = true := by
  obtain ⟨healed, hr⟩ : ∃ healed, j.requeueForHealing? h.plan.ref = some healed :=
    ⟨_, (Job.requeueForHealing?_eq_some_iff j h.plan.ref _).mpr ⟨hj.2, rfl⟩⟩
  constructor
  · intro hnone
    rw [queue, ← QueueHall.add?_eq_none_iff o.hall .healing healed]
    refine Option.eq_none_iff_forall_ne_some.mpr ?_
    intro hall ha
    have := (handOff?_eq_some_iff (n := n)).mpr ⟨healed, hall, hr, ha, rfl⟩
    rw [hnone] at this
    cases this
  · intro hc
    refine Option.eq_none_iff_forall_ne_some.mpr ?_
    intro o' hh
    obtain ⟨healed, hall, -, ha, -⟩ := handOff?_eq_some_iff.mp hh
    rw [(QueueHall.add?_eq_none_iff o.hall .healing healed).mpr hc] at ha
    cases ha

end Orchestrator

section
variable {o₁ o o' : Orchestrator} {n : QueueName} {e j : Job}

/-- What ended a job ended it for whoever knows its events and queues. -/
theorem Concluded.congr (h : Concluded o₁ n e o') (hid : e.id = j.id)
    (hevents : o₁.events = o.events) (hhall : o₁.hall = o.hall) : Concluded o n j o' := by
  have told := Orchestrator.history_congr hevents
  have same : ∀ m, o₁.queue m = o.queue m := fun m => by
    unfold Orchestrator.queue
    rw [hhall]
  obtain ⟨⟨i, hi, hended, htold, hboard, hfinished⟩, hreleased, hqueues, hothers⟩ := h
  rw [hid, told] at htold
  rw [hid] at hi hboard hreleased hothers
  rw [same, hhall] at hfinished
  exact ⟨⟨i, hi, hended, htold, hboard, hfinished⟩, hreleased,
    fun m => (hqueues m).trans (congrArg _ (same m)), fun k hk => (hothers k hk).trans (told k)⟩

/-- What handed a job over did so for whoever knows its events and queues. -/
theorem HandedOver.congr {h : HealedPlan} (hh : HandedOver o₁ n e h o') (hid : e.id = j.id)
    (hd : e.discovery = j.discovery) (hevents : o₁.events = o.events) (hhall : o₁.hall = o.hall) :
    HandedOver o n j h o' := by
  have told := Orchestrator.history_congr hevents
  have same : ∀ m, o₁.queue m = o.queue m := fun m => by
    unfold Orchestrator.queue
    rw [hhall]
  obtain ⟨htold, ⟨healed, hi, hw, hp, hhd, hboard, hcontents⟩, hreleased, hfinished, hqueues,
    hothers⟩ := hh
  rw [hid, told] at htold
  rw [hid] at hi hboard hreleased hothers
  rw [same] at hcontents hfinished
  exact ⟨htold, ⟨healed, hi, hw, hp, hhd.trans hd, hboard, hcontents⟩, hreleased, hfinished,
    fun m hm => (hqueues m hm).trans (congrArg _ (same m)),
    fun k hk => (hothers k hk).trans (told k)⟩

end

/-- **How an attempt ends** that does not break off: the job is handed over if its failure can
be healed and the queue for healing takes it, and otherwise it has ended. -/
theorem Orchestrator.finish_outcome (o : Orchestrator) {n : QueueName} {j : Job} (hj : j.Runs n)
    {v : Verdict} (hs : o.strands j v = false) :
    (∃ h, o.HealsTo j.discovery j v h ∧ (o.queue .healing).closed = false ∧
      HandedOver o n j h (o.finish n j v)) ∨
    ((¬ ∃ h, o.HealsTo j.discovery j v h ∧ (o.queue .healing).closed = false) ∧
      Concluded o n j (o.finish n j v)) := by
  obtain ⟨host, hhost⟩ := o.tidied_eq j
  have hevents : (o.tidied j).events = o.events := by rw [hhost]
  have hhall : (o.tidied j).hall = o.hall := by rw [hhost]
  -- whatever is decided now is decided on the plans and queues that there were before
  have hended := ended_judged hj v
  rw [finish_eq, healedPlan_tidied]
  cases hjudged : (judged j v).isHealable with
  | false =>
    refine .inr ⟨?_, ((o.tidied j).concluded_conclude hended).congr (id_judged j v) hevents hhall⟩
    rintro ⟨h, hh, -⟩
    have := ((o.healsTo_iff hj v h).mp hh).1
    rw [hjudged] at this
    cases this
  | true =>
    -- the job may be healed, and it is a matter of its plan and of the queue
    have hmay : (judged j v).MayHeal n := ⟨belongsTo_judged hj v, hjudged⟩
    cases hp : o.healedPlan (judged j v) with
    | error e =>
      refine .inr ⟨?_, ((o.tidied j).concluded_conclude (ended_withRemark hended e)).congr
        ((id_withRemark _ e).trans (id_judged j v)) hevents hhall⟩
      rintro ⟨h, hh, -⟩
      have := ((o.healsTo_iff hj v h).mp hh).2
      rw [hp] at this
      cases this
    | ok h =>
      have hheals := (o.healsTo_iff hj v h).mpr ⟨hjudged, hp⟩
      have hclosed : ((o.tidied j).serve (.correct (judged j v) h)).handOff? n (judged j v) h =
          none ↔ (o.queue .healing).closed = true := by
        rw [handOff?_eq_none_iff _ hmay, hhost]
        exact Iff.rfl
      simp only [if_true]
      cases hh : ((o.tidied j).serve (.correct (judged j v) h)).handOff? n (judged j v) h with
      | none =>
        refine .inr ⟨?_, (concluded_conclude _ hended).congr (id_judged j v) hevents hhall⟩
        rintro ⟨h, -, hopen⟩
        rw [hclosed.mp hh] at hopen
        cases hopen
      | some o' =>
        have hopen : (o.queue .healing).closed = false := by
          rw [← Bool.not_eq_true, ← hclosed, hh]
          exact nofun
        have hdiscovery : (judged j v).discovery = j.discovery := by rw [judged_eq hj.2]
        have hover : HandedOver o n j h o' :=
          (handedOver_of_handOff? hmay hh).congr (id_judged j v) hdiscovery hevents hhall
        exact .inl ⟨h, hheals, hopen, hover⟩
    | overflow =>
      rw [strands_iff.mpr ⟨hjudged, hp⟩] at hs
      cases hs

end Testplan
