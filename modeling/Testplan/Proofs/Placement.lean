import Testplan.Proofs.Interleaving
/-!
# Where jobs stand

A job that waits in a queue was queued for that queue, and its attempt is the one that
the queue is for: the first attempt in the queues for ordinary runs and for security, the
second in the queue for healing.  A routine that attends to a job finds it in the state
that its own progress implies (`Routine.Proper`).  Both hold in every interleaving
(`Interleaving.Reachable.orderly`).

No call but `add` brings a job into a queue and no call but `take` hands one out
(`Moves.contents`); only the administration of a queue loses jobs.
-/
namespace Testplan

/-- The attempt that a queue is for. -/
def QueueName.attempt : QueueName → Nat
  | healing => 1
  | run | security => 0

theorem QueueName.attempt_eq_zero_iff (n : QueueName) : n.attempt = 0 ↔ n ≠ .healing := by
  cases n <;> simp [attempt]

theorem QueueName.attempt_le_one (n : QueueName) : n.attempt ≤ 1 := by
  cases n <;> simp [attempt]

namespace Job

/-- The job belongs to a queue and is at the attempt that the queue is for. -/
structure BelongsTo (j : Job) (n : QueueName) : Prop where
  queue : j.queue = n
  attempt : j.attempt = n.attempt

/-- The job waits in a queue. -/
def Waits (j : Job) (n : QueueName) : Prop := j.BelongsTo n ∧ j.status = .queued

/-- The job was taken from a queue and runs. -/
def Runs (j : Job) (n : QueueName) : Prop := j.BelongsTo n ∧ j.status = .running

/-- The job ran in a queue and failed so that it may be healed. -/
def MayHeal (j : Job) (n : QueueName) : Prop := j.BelongsTo n ∧ j.isHealable = true

/-- The job ended in a queue. -/
def Ended (j : Job) (n : QueueName) : Prop := j.BelongsTo n ∧ j.status.isTerminal = true

/-- A job may be healed only after its first attempt, which no healing queue makes. -/
theorem isHealable_iff (j : Job) : j.isHealable = true ↔
    (∃ f, j.status = .failed f ∧ f.kind = .selectorNotFound) ∧ j.attempt = 0 ∧
      j.queue ≠ .healing := by
  unfold isHealable failure?
  cases hs : j.status with
  | failed f => simp [FailureKind.isHealable, and_assoc]
  | _ => simp

theorem MayHeal.ne_healing {j : Job} {n : QueueName} (h : j.MayHeal n) : n ≠ .healing := by
  have := ((isHealable_iff j).mp h.2).2.2
  rw [h.1.queue] at this
  exact this

theorem MayHeal.ended {j : Job} {n : QueueName} (h : j.MayHeal n) : j.Ended n := by
  obtain ⟨⟨f, hf, -⟩, -⟩ := (isHealable_iff j).mp h.2
  exact ⟨h.1, by rw [hf]; rfl⟩

/-- The job that is queued for healing. -/
theorem requeueForHealing?_eq_some_iff (j : Job) (r : PlanRef) (healed : Job) :
    j.requeueForHealing? r = some healed ↔ j.isHealable = true ∧
      healed = { j with
        status := .queued, plan := r, queue := .healing, attempt := j.attempt + 1 } := by
  unfold requeueForHealing? transition?
  by_cases hj : j.isHealable = true
  · obtain ⟨⟨f, hf, -⟩, -⟩ := (isHealable_iff j).mp hj
    simp [hj, hf, JobStatus.canBecome, eq_comm]
  · simp [hj]

theorem waits_of_requeueForHealing? {j healed : Job} {r : PlanRef}
    (h : j.requeueForHealing? r = some healed) : healed.Waits .healing := by
  obtain ⟨hj, rfl⟩ := (requeueForHealing?_eq_some_iff j r healed).mp h
  obtain ⟨-, ha, -⟩ := (isHealable_iff j).mp hj
  refine ⟨⟨rfl, ?_⟩, rfl⟩
  show j.attempt + 1 = 1
  omega

end Job

/-- An attempt ends in success or failure. -/
theorem Verdict.isTerminal_status (tail : LogTail) (v : Verdict) :
    (v.status tail).isTerminal = true := by
  cases v <;> rfl

namespace Orchestrator

theorem start_eq (o : Orchestrator) (j : Job) (h : j.status = .queued) :
    (o.start j).2 = { j with status := .running, logTail := .empty o.config.logTailLines } := by
  simp [start, Job.transition?, JobStatus.canBecome, h]

@[simp] theorem id_start (o : Orchestrator) (j : Job) : (o.start j).2.id = j.id := by
  show ((j.transition? .running).getD j).id = j.id
  unfold Job.transition?
  split <;> rfl

@[simp] theorem attempt_start (o : Orchestrator) (j : Job) : (o.start j).2.attempt = j.attempt := by
  show ((j.transition? .running).getD j).attempt = j.attempt
  unfold Job.transition?
  split <;> rfl

@[simp] theorem plan_start (o : Orchestrator) (j : Job) : (o.start j).2.plan = j.plan := by
  show ((j.transition? .running).getD j).plan = j.plan
  unfold Job.transition?
  split <;> rfl

theorem runs_start (o : Orchestrator) {j : Job} {n : QueueName} (h : j.Waits n) :
    (o.start j).2.Runs n := by
  rw [start_eq o j h.2]
  exact ⟨⟨h.1.queue, h.1.attempt⟩, rfl⟩

theorem judged_eq {j : Job} (h : j.status = .running) (v : Verdict) :
    judged j v = { j with status := v.status j.logTail } := by
  unfold judged Job.transition?
  rw [h]
  cases v <;> rfl

@[simp] theorem id_judged (j : Job) (v : Verdict) : (judged j v).id = j.id := by
  unfold judged Job.transition?
  split <;> rfl

@[simp] theorem attempt_judged (j : Job) (v : Verdict) : (judged j v).attempt = j.attempt := by
  unfold judged Job.transition?
  split <;> rfl

@[simp] theorem plan_judged (j : Job) (v : Verdict) : (judged j v).plan = j.plan := by
  unfold judged Job.transition?
  split <;> rfl

theorem belongsTo_judged {j : Job} {n : QueueName} (h : j.Runs n) (v : Verdict) :
    (judged j v).BelongsTo n := by
  rw [judged_eq h.2]
  exact ⟨h.1.queue, h.1.attempt⟩

theorem ended_judged {j : Job} {n : QueueName} (h : j.Runs n) (v : Verdict) :
    (judged j v).Ended n := by
  refine ⟨belongsTo_judged h v, ?_⟩
  rw [judged_eq h.2]
  exact v.isTerminal_status j.logTail

/-- A remark changes nothing but the message of a failure. -/
theorem withRemark_eq (j : Job) (e : HealError) :
    ∃ s, withRemark j e = { j with status := s } ∧ s.isTerminal = j.status.isTerminal := by
  unfold withRemark
  split
  · next f hf => exact ⟨_, rfl, by rw [hf]; rfl⟩
  · exact ⟨j.status, rfl, rfl⟩

@[simp] theorem id_withRemark (j : Job) (e : HealError) : (withRemark j e).id = j.id := by
  obtain ⟨s, hs, -⟩ := withRemark_eq j e
  rw [hs]

@[simp] theorem attempt_withRemark (j : Job) (e : HealError) :
    (withRemark j e).attempt = j.attempt := by
  obtain ⟨s, hs, -⟩ := withRemark_eq j e
  rw [hs]

theorem ended_withRemark {j : Job} {n : QueueName} (h : j.Ended n) (e : HealError) :
    (withRemark j e).Ended n := by
  obtain ⟨s, hs, ht⟩ := withRemark_eq j e
  rw [hs]
  exact ⟨⟨h.1.queue, h.1.attempt⟩, ht.trans h.2⟩

end Orchestrator

/-! ## The contents of the queues -/

namespace Call

/-- The jobs that a call brings into a queue. -/
def joined (m : QueueName) : Call → List Job
  | add n j => if m = n then [j] else []
  | _ => []

theorem mem_joined_iff {m : QueueName} {c : Call} {j : Job} : j ∈ c.joined m ↔ c = add m j := by
  cases c with
  | add n i =>
    by_cases hm : m = n
    · subst hm
      rw [joined, if_pos rfl, List.mem_singleton, add.injEq, eq_comm]
      exact ⟨fun h => ⟨rfl, h⟩, fun h => h.2⟩
    · rw [joined, if_neg hm, add.injEq]
      exact ⟨nofun, fun h => absurd h.1.symm hm⟩
  | _ => exact ⟨nofun, nofun⟩

/-- The jobs that a queue hands out in a call. -/
def left (m : QueueName) : Call → List Job
  | take n _ j => if m = n then [j] else []
  | _ => []

theorem mem_left_iff {m : QueueName} {c : Call} {j : Job} :
    j ∈ c.left m ↔ ∃ token, c = take m token j := by
  cases c with
  | take n token i =>
    by_cases hm : m = n
    · subst hm
      rw [left, if_pos rfl, List.mem_singleton]
      constructor
      · rintro rfl
        exact ⟨token, rfl⟩
      · rintro ⟨_, h⟩
        cases h
        rfl
    · rw [left, if_neg hm]
      refine ⟨nofun, ?_⟩
      rintro ⟨_, h⟩
      cases h
      exact absurd rfl hm
  | _ => exact ⟨nofun, nofun⟩

end Call

theorem Administration.contents_apply (now : Time) (q : JobQueue) (a : Administration) :
    (a.apply now q).contents.Sublist q.contents := by
  cases a with
  | drain force => exact q.contents_drain force
  | _ => exact List.Sublist.refl _

theorem Administration.active_apply (now : Time) (q : JobQueue) (a : Administration) :
    (a.apply now q).active = q.active := by
  cases a <;> rfl

namespace Orchestrator

/-- A call that changes one queue leaves the others. -/
theorem queue_modify (o : Orchestrator) (n m : QueueName) (f : JobQueue → JobQueue) :
    { o with hall := o.hall.modify n f }.queue m = if m = n then f (o.queue n) else o.queue m :=
  QueueSet.get_set _ n m _

theorem queue_release (o : Orchestrator) (n m : QueueName) (id : JobId) :
    (o.serve (.release n id)).queue m = if m = n then (o.queue n).release id else o.queue m :=
  o.queue_modify n m _

theorem queue_complete (o : Orchestrator) (n m : QueueName) (j : Job) :
    (o.serve (.complete n j)).queue m =
      if m = n then (o.queue n).complete o.hall.now j else o.queue m :=
  o.queue_modify n m _

theorem queue_administer (o : Orchestrator) (n m : QueueName) (a : Administration) :
    (o.serve (.administer n a)).queue m =
      if m = n then a.apply o.hall.now (o.queue n) else o.queue m :=
  o.queue_modify n m _

theorem queue_ask (o : Orchestrator) (n m : QueueName) (token : Nat) :
    (o.serve (.ask n token)).queue m =
      if m = n then ((o.queue n).next o.hall.now (token ∈ o.hall.cancelled)).1
      else o.queue m :=
  QueueSet.get_set _ n m _

theorem queue_take (o : Orchestrator) (n m : QueueName) (token : Nat) (j : Job) :
    (o.serve (.take n token j)).queue m =
      if m = n then ((o.queue n).next o.hall.now (token ∈ o.hall.cancelled)).1
      else o.queue m :=
  o.queue_ask n m token

theorem queue_add (o : Orchestrator) {n : QueueName} {j : Job} {hall : QueueHall}
    (ha : o.hall.add? n j = some hall) :
    ∃ q, (o.queue n).add? o.hall.now j = some q ∧
      ∀ m, (o.serve (.add n j)).queue m = if m = n then q else o.queue m := by
  obtain ⟨q, hq, hs⟩ := QueueHall.queues_of_add? ha
  refine ⟨q, hq, ?_⟩
  intro m
  show ((o.hall.add? n j).getD o.hall).queues.get m = _
  rw [ha, Option.getD_some, hs]
  exact QueueSet.get_set _ n m q

/-- The queues do not notice a call to another party. -/
theorem queue_serve (o : Orchestrator) (c : Call) (m : QueueName)
    (hc : match c with
      | .add .. | .take .. | .ask .. | .release .. | .complete .. | .administer .. => False
      | _ => True) : (o.serve c).queue m = o.queue m := by
  cases c <;> first | rfl | exact hc.elim

end Orchestrator

/-- What a queue hands out was in its contents. -/
theorem Orchestrator.contents_take {o : Orchestrator} {n : QueueName} {token : Nat} {j : Job}
    (ht : (o.hall.ask n token).2 = .job j) :
    (o.queue n).contents.Perm (j :: ((o.serve (.take n token j)).queue n).contents) ∧
      (∀ id, id ∈ ((o.serve (.take n token j)).queue n).active ↔
        id = j.id ∨ id ∈ (o.queue n).active) := by
  have hn : (o.queue n).next o.hall.now (token ∈ o.hall.cancelled) =
      (((o.queue n).next o.hall.now (token ∈ o.hall.cancelled)).1, .job j) :=
    Prod.ext rfl ht
  obtain ⟨hc, ha, -⟩ := JobQueue.contents_of_next hn
  rw [o.queue_take, if_pos rfl]
  exact ⟨hc, ha⟩

theorem Orchestrator.mem_contents_of_take {o : Orchestrator} {n : QueueName} {token : Nat}
    {j : Job} (ht : (o.hall.ask n token).2 = .job j) : j ∈ (o.queue n).contents :=
  (contents_take ht).1.mem_iff.mpr (List.mem_cons_self ..)

/-- Asking in vain changes neither contents nor activity. -/
theorem Orchestrator.contents_ask {o : Orchestrator} {n : QueueName} {token : Nat}
    (ht : ∀ j, (o.hall.ask n token).2 ≠ .job j) :
    ((o.serve (.ask n token)).queue n).contents.Perm (o.queue n).contents ∧
      ((o.serve (.ask n token)).queue n).active = (o.queue n).active := by
  obtain ⟨hc, ha, -⟩ := JobQueue.contents_next_of_no_job ht
  rw [o.queue_ask, if_pos rfl]
  exact ⟨hc, ha⟩

/-- **Queues lose and gain jobs only by calls that say so.**  What was in a queue or
joins it is handed out, dropped by its administration, or still there. -/
theorem Moves.contents {o : Orchestrator} {t t' : Option Routine} {c : Call}
    (h : Moves o t c t') (m : QueueName) :
    ∃ dropped, (dropped ++ c.left m ++ ((o.serve c).queue m).contents).Perm
      (c.joined m ++ (o.queue m).contents) ∧ (dropped = [] ∨ ∃ a, c = .administer m a) := by
  have same : ∀ {q : JobQueue} {p : Prop}, q.contents.Perm (o.queue m).contents →
      ∃ dropped, (dropped ++ [] ++ q.contents).Perm ([] ++ (o.queue m).contents) ∧
        (dropped = [] ∨ p) := fun hq => ⟨[], hq, .inl rfl⟩
  -- submissions and workers add jobs
  have added : ∀ {n : QueueName} {j : Job} {hall : QueueHall} {p : Prop},
      o.hall.add? n j = some hall →
      ∃ dropped, (dropped ++ (Call.add n j).left m ++
        ((o.serve (.add n j)).queue m).contents).Perm
          ((Call.add n j).joined m ++ (o.queue m).contents) ∧ (dropped = [] ∨ p) := by
    intro n j hall p ha
    obtain ⟨q, hq, hs⟩ := o.queue_add ha
    refine ⟨[], ?_, .inl rfl⟩
    rw [hs m]
    by_cases hm : m = n
    · subst hm
      simpa [Call.left, Call.joined] using JobQueue.contents_of_add? hq
    · simp [Call.left, Call.joined, hm]
  cases h with
  | add ha => exact added ha
  | hand _ ha => exact added ha
  | @take n token j ht =>
    refine ⟨[], ?_, .inl rfl⟩
    by_cases hm : m = n
    · subst hm
      simpa [Call.left, Call.joined] using (Orchestrator.contents_take ht).1.symm
    · rw [o.queue_take, if_neg hm]
      simp [Call.left, Call.joined, hm]
  | @miss n token ht =>
    by_cases hm : m = n
    · subst hm
      exact same (Orchestrator.contents_ask ht).1
    · rw [o.queue_ask, if_neg hm]
      exact same (List.Perm.refl _)
  | @release n h healed =>
    rw [o.queue_release]
    split
    · next hm =>
      subst hm
      exact same (List.Perm.refl _)
    · exact same (List.Perm.refl _)
  | @complete n j =>
    rw [o.queue_complete]
    split
    · next hm =>
      subst hm
      exact same (List.Perm.refl _)
    · exact same (List.Perm.refl _)
  | @administer n a =>
    rw [o.queue_administer]
    split
    · next hm =>
      subst hm
      -- what is drained or cleaned away is dropped
      obtain ⟨dropped, hd⟩ := (a.contents_apply o.hall.now (o.queue m)).exists_perm_append
      refine ⟨dropped, ?_, .inr ⟨a, rfl⟩⟩
      show (dropped ++ [] ++ (a.apply o.hall.now (o.queue m)).contents).Perm _
      rw [List.append_nil]
      exact List.perm_append_comm.trans hd.symm
    · exact same (List.Perm.refl _)
  | _ => exact same (List.Perm.refl _)

/-- Only a call that adds a job brings it into a queue. -/
theorem Moves.mem_contents {o : Orchestrator} {t t' : Option Routine} {c : Call}
    (h : Moves o t c t') {m : QueueName} {j : Job} (hj : j ∈ ((o.serve c).queue m).contents) :
    c = .add m j ∨ j ∈ (o.queue m).contents := by
  obtain ⟨dropped, hp, -⟩ := h.contents m
  rcases List.mem_append.mp (hp.mem_iff.mp (List.mem_append_right _ hj)) with hin | hold
  · exact .inl (Call.mem_joined_iff.mp hin)
  · exact .inr hold

/-! ## Routines and their jobs -/

/-- **The state of a job is the one that the progress of its routine implies.** -/
def Routine.Proper : Routine → Prop
  | submitting r => ∀ p ∈ r.parts, p.1 ≠ .healing
  | adding r j | listing r j | announcing r j =>
    (∀ p ∈ r.parts, p.1 ≠ .healing) ∧ j.Waits j.queue ∧ j.queue ≠ .healing
  | opening n j => j.Waits n
  | starting n j | fetching n j | working n j => j.Runs n
  | correcting n j | storing n j _ | handing n j _ => j.MayHeal n
  | releasing n _ healed => healed.Waits .healing ∧ n ≠ .healing
  | relisting _ healed | telling _ healed | requeueing healed => healed.Waits .healing
  | concluding n j | finishing n j | completing n j => j.Ended n

/-- The parts of a plan go to the queues for ordinary runs and for security. -/
theorem Orchestrator.partsOf_ne_healing (o : Orchestrator) (p : Plan) :
    ∀ part ∈ (o.partsOf p).2, part.1 ≠ .healing := by
  intro part hp
  rcases List.mem_append.mp hp with h | h <;>
  · obtain ⟨q, -, rfl⟩ := Option.map_eq_some_iff.mp (Option.mem_toList.mp h)
    simp

theorem Intake.proper_routine? {r : Intake} (h : ∀ p ∈ r.parts, p.1 ≠ .healing) :
    ∀ t, r.routine? = some t → t.Proper := by
  intro t ht
  rw [eq_submitting ht]
  exact h

/-- Every call takes a proper routine to a proper one. -/
theorem Moves.proper {o : Orchestrator} {t t' : Option Routine} {c : Call}
    (h : Moves o t c t') (hc : ∀ n, ∀ j ∈ (o.queue n).contents, j.Waits n)
    (ht : ∀ x, t = some x → x.Proper) : ∀ x, t' = some x → x.Proper := by
  have next : ∀ {x : Routine}, x.Proper → ∀ y, some x = some y → y.Proper := by
    intro x hx y hy
    exact Option.some.inj hy ▸ hx
  cases h with
  | @accept s _ environment => exact Intake.proper_routine? (o.partsOf_ne_healing s.plan)
  | @create s environment n part parts =>
    have hp : ∀ p ∈ (n, part) :: parts, p.1 ≠ .healing := ht _ rfl
    have hn : n ≠ .healing := hp _ (List.mem_cons_self ..)
    refine next ⟨fun p h => hp p (List.mem_cons_of_mem _ h), ⟨⟨rfl, ?_⟩, rfl⟩, hn⟩
    exact ((QueueName.attempt_eq_zero_iff n).mpr hn).symm
  | announce => exact Intake.proper_routine? (ht _ rfl).1
  | @take n _ j hj =>
    exact next (hc n j (Orchestrator.mem_contents_of_take hj))
  | openAttempt => exact next (o.runs_start (ht _ rfl))
  | @log n j _ =>
    obtain ⟨⟨hq, ha⟩, hs⟩ : j.Runs n := ht _ rfl
    exact next ⟨⟨hq, ha⟩, hs⟩
  | @fail n j v hj => exact next ⟨Orchestrator.belongsTo_judged (ht _ rfl) v, hj⟩
  | @settle n j v hj => exact next (Orchestrator.ended_judged (ht _ rfl) v)
  | @despair n j e _ =>
    exact next (Orchestrator.ended_withRemark (Job.MayHeal.ended (ht _ rfl)) e)
  | @hand n j h healed hall hj _ =>
    exact next ⟨Job.waits_of_requeueForHealing? hj, Job.MayHeal.ne_healing (ht _ rfl)⟩
  | reject => exact next (Job.MayHeal.ended (ht _ rfl))
  | release =>
    have hp := ht _ rfl
    exact next hp.1
  | decline | requeue | complete | miss | poll | administer | remove | surroundings =>
    exact fun _ hx => nomatch hx
  -- the other calls leave the job as it is
  | _ =>
    have hp := ht _ rfl
    exact next hp

/-- A job that a call brings into a queue waits there. -/
theorem Moves.waits_of_add {o : Orchestrator} {t t' : Option Routine} {n : QueueName} {j : Job}
    (h : Moves o t (.add n j) t') (ht : ∀ x, t = some x → x.Proper) : j.Waits n := by
  cases h with
  | add =>
    have hp := ht _ rfl
    exact hp.2.1
  | hand hj _ => exact Job.waits_of_requeueForHealing? hj

namespace Interleaving

/-- **All jobs stand where they belong.** -/
structure Orderly (w : Interleaving) : Prop where
  tasks : ∀ t ∈ w.tasks, t.Proper
  contents : ∀ n, ∀ j ∈ (w.orchestrator.queue n).contents, j.Waits n

theorem Orderly.proper {o : Orchestrator} {l r : List Routine} {t : Option Routine}
    {calls : List Call} (h : Orderly ⟨o, l ++ t.toList ++ r, calls⟩) :
    ∀ x, t = some x → x.Proper := by
  intro x hx
  exact h.tasks x (mem_tasks_iff.mpr (.inl hx))

theorem Orderly.step {v w : Interleaving} (h : v.Orderly) (hs : Step v w) : w.Orderly := by
  cases hs with
  | @serve o t t' c hm l r calls =>
    have ht := h.proper
    obtain ⟨htasks, hcontents⟩ := h
    refine ⟨?_, ?_⟩
    · intro x hx
      rcases mem_tasks_iff.mp hx with hx | hx
      · exact hm.proper hcontents ht x hx
      · exact htasks x (mem_tasks_iff.mpr (.inr hx))
    · intro n j hin
      rcases hm.mem_contents hin with rfl | hold
      · exact hm.waits_of_add ht
      · exact hcontents n j hold

theorem Reachable.orderly {w : Interleaving} (h : Reachable w) : w.Orderly := by
  refine h.invariant ?_ fun v w _ hv hs => hv.step hs
  rintro u ⟨config, adapters, host, ids, rfl⟩
  refine ⟨(fun _ ht => nomatch ht), ?_⟩
  intro n j hj
  cases n <;> cases hj

end Interleaving

end Testplan
