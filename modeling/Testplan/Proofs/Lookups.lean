import Testplan.Proofs.PlanCustody
/-!
# What is looked up is found

A job carries the version of its plan and the name of its framework, and both are looked
up long after the job was made: the plan when an attempt begins and again when the plan is
to be corrected, the framework when its tests are to run.

Nothing that a job refers to is missing (`Interleaving.Reachable.lookups_succeed`).  A
framework was registered before its submission was accepted, and no call changes the
registry.  A plan is stored before there is a job that refers to it, the parts of a
submission by the call that makes their jobs and a correction by the call before the
healed job is added, and the store keeps what it has.  So an attempt always runs a stored
plan with a registered framework, and a correction always starts from a stored plan.
-/
namespace Testplan

namespace Orchestrator

/-- The plan store has a plan of the version. -/
def Stores (o : Orchestrator) (r : PlanRef) : Prop := ∃ p, o.plans.get? r = some p

/-- The framework is registered. -/
def Registers (o : Orchestrator) (framework : String) : Prop :=
  ∃ a, o.adapters.find framework = .ok a

/-- **What the job refers to is there**: a plan of its version and its framework. -/
structure Finds (o : Orchestrator) (j : Job) : Prop where
  plan : o.Stores j.plan
  framework : o.Registers j.framework

variable {o : Orchestrator}

/-! ## What calls keep -/

theorem adapters_serve (o : Orchestrator) (c : Call) : (o.serve c).adapters = o.adapters := by
  cases c <;> rfl

/-- **A stored plan never changes.** -/
theorem get?_plans_serve {r : PlanRef} {p : Plan} (h : o.plans.get? r = some p) (c : Call) :
    (o.serve c).plans.get? r = some p := by
  have inserted (q : Plan) : (o.plans.insert q).get? r = some p := by
    rw [PlanStore.get?_insert, h, Option.some_or]
  cases c with
  | create s part j => exact inserted part
  | correct j q => exact inserted q.plan
  | _ => exact h

theorem Stores.serve {r : PlanRef} (h : o.Stores r) (c : Call) : (o.serve c).Stores r := by
  obtain ⟨p, hp⟩ := h
  exact ⟨p, get?_plans_serve hp c⟩

theorem Registers.serve {framework : String} (h : o.Registers framework) (c : Call) :
    (o.serve c).Registers framework := by
  unfold Registers
  rw [o.adapters_serve c]
  exact h

theorem Finds.serve {j : Job} (h : o.Finds j) (c : Call) : (o.serve c).Finds j :=
  ⟨h.plan.serve c, h.framework.serve c⟩

/-- A plan that was just stored is there, be it this one or an earlier one of its version. -/
theorem stores_of_insert {o' : Orchestrator} (p : Plan) (h : o'.plans = o.plans.insert p) :
    o'.Stores p.ref := by
  unfold Stores
  rw [h, PlanStore.get?_insert]
  cases o.plans.get? p.ref with
  | some q => exact ⟨q, rfl⟩
  | none => exact ⟨p, by simp⟩

/-- Only a call that records a job changes what the board shows, unless it takes a job
off. -/
theorem get?_board_serve {c : Call} {id : JobId} {j : Job}
    (h : (o.serve c).board.get? id = some j) : c = .record j ∨ o.board.get? id = some j := by
  cases c with
  | record i =>
    rw [show (o.serve (.record i)).board = o.board.record i from rfl, JobBoard.get?_record] at h
    split at h
    · cases h
      exact .inl rfl
    · exact .inr h
  | remove i =>
    rw [show (o.serve (.remove i)).board = o.board.remove i from rfl, JobBoard.get?_remove] at h
    split at h
    · cases h
    · exact .inr h
  | _ => exact .inr h

/-! ## What a lookup decides -/

/-- **The tests of a job run** if what it refers to is there: neither lookup ends the
attempt. -/
theorem Finds.course_eq {j : Job} (h : o.Finds j) :
    ∃ p a, o.plans.get? j.plan = some p ∧ o.adapters.find j.framework = .ok a ∧
      o.course j = a.course o.config.jobTimeoutSecs o.host p j.environment
        (o.config.attemptDirectory j.id j.attempt) := by
  obtain ⟨⟨p, hp⟩, a, ha⟩ := h
  refine ⟨p, a, hp, ha, ?_⟩
  unfold course
  rw [hp, ha]

/-- A correction is sought in the stored plan, unless the job came without discovery. -/
theorem Finds.healedPlan_eq {j : Job} (h : o.Finds j) :
    (j.discovery = none ∧ o.healedPlan j = .error .missingDiscovery) ∨
      ∃ d p, j.discovery = some d ∧ o.plans.get? j.plan = some p ∧
        o.healedPlan j = p.heal d ((j.failure?.map JobFailure.message).getD "") := by
  obtain ⟨⟨p, hp⟩, -⟩ := h
  unfold healedPlan
  cases hd : j.discovery with
  | none => exact .inl ⟨rfl, rfl⟩
  | some d => exact .inr ⟨d, p, rfl, hp, by rw [hp]⟩

end Orchestrator

/-! ## What routines rely on -/

/-- **What a routine will look up is there**, for its job, for the jobs that its
submission still gets, and for the job that it hands over with a correction. -/
def Routine.Founded (o : Orchestrator) : Routine → Prop
  | submitting r => o.Registers r.submission.framework
  | adding r j | listing r j | announcing r j =>
    o.Registers r.submission.framework ∧ o.Finds j
  | handing _ j h => o.Finds j ∧ o.Stores h.plan.ref
  | opening _ j | starting _ j | fetching _ j | working _ j => o.Finds j
  | correcting _ j | storing _ j _ => o.Finds j
  | releasing _ _ j | relisting _ j | telling _ j | requeueing j => o.Finds j
  | concluding _ j | finishing _ j | completing _ j => o.Finds j

namespace Routine
variable {o : Orchestrator} {t : Routine}

theorem Founded.serve (h : t.Founded o) (c : Call) : t.Founded (o.serve c) := by
  cases t with
  | submitting r => exact Orchestrator.Registers.serve h c
  | adding r j | listing r j | announcing r j => exact ⟨h.1.serve c, h.2.serve c⟩
  | handing n j p => exact ⟨h.1.serve c, h.2.serve c⟩
  | _ => exact Orchestrator.Finds.serve h c

/-- Who has a seat for a job attends to it. -/
theorem job?_of_seat? {n : QueueName} {id : JobId} (h : t.seat? = some (n, id)) :
    ∃ j, t.job? = some j ∧ j.id = id := by
  have same : ∀ {m : QueueName} {j : Job}, some (m, j.id) = some (n, id) → j.id = id :=
    fun he => (Prod.mk.inj (Option.some.inj he)).2
  cases t with
  | submitting | adding | listing | announcing | relisting | telling | requeueing => cases h
  | _ => exact ⟨_, rfl, same h⟩

theorem Founded.finds (h : t.Founded o) {j : Job} (hj : t.job? = some j) : o.Finds j := by
  cases t with
  | submitting r => cases hj
  | adding r i | listing r i | announcing r i =>
    obtain rfl := Option.some.inj hj
    exact h.2
  | handing n i p =>
    obtain rfl := Option.some.inj hj
    exact h.1
  | _ =>
    obtain rfl := Option.some.inj hj
    exact h

end Routine

namespace Orchestrator
variable {o : Orchestrator}

theorem Finds.congr {i j : Job} (h : o.Finds i) (hp : j.plan = i.plan)
    (hf : j.framework = i.framework) : o.Finds j := by
  obtain ⟨hplan, hframework⟩ := h
  exact ⟨hp ▸ hplan, hf ▸ hframework⟩

theorem Finds.start {j : Job} (h : o.Finds j) : o.Finds (o.start j).2 := by
  refine h.congr (o.plan_start j) ?_
  show ((j.transition? .running).getD j).framework = j.framework
  unfold Job.transition?
  split <;> rfl

theorem Finds.judged {j : Job} (h : o.Finds j) (v : Verdict) : o.Finds (judged j v) := by
  refine h.congr (plan_judged j v) ?_
  unfold Orchestrator.judged Job.transition?
  split <;> rfl

theorem Finds.withRemark {j : Job} (h : o.Finds j) (e : HealError) :
    o.Finds (withRemark j e) := by
  obtain ⟨s, hs, -⟩ := withRemark_eq j e
  rw [hs]
  exact h.congr rfl rfl

/-- The healed job refers to its correction and keeps its framework. -/
theorem Finds.requeue {j healed : Job} {r : PlanRef} (h : o.Finds j) (hr : o.Stores r)
    (hj : j.requeueForHealing? r = some healed) : o.Finds healed := by
  obtain ⟨-, rfl⟩ := (Job.requeueForHealing?_eq_some_iff j r healed).mp hj
  exact ⟨hr, h.framework⟩

end Orchestrator

section Moves
variable {o : Orchestrator} {t t' : Option Routine} {c : Call}

/-- Every call takes a founded routine to a founded one. -/
theorem Moves.founded (h : Moves o t c t')
    (hc : ∀ n, ∀ j ∈ (o.queue n).contents, o.Finds j) (ht : ∀ x, t = some x → x.Founded o) :
    ∀ y, t' = some y → y.Founded (o.serve c) := by
  have next : ∀ {x : Routine}, x.Founded (o.serve c) →
      ∀ y, some x = some y → y.Founded (o.serve c) := by
    intro x hx y hy
    exact Option.some.inj hy ▸ hx
  -- what the routine had found before the call is still there
  have kept : ∀ x, t = some x → x.Founded (o.serve c) := fun x hx => (ht x hx).serve c
  cases h with
  | accept ha _ =>
    intro y hy
    rw [Intake.eq_submitting hy]
    exact ⟨_, ha⟩
  | @create s environment n part parts =>
    have hs : (o.serve (.create s part (o.newJob s environment n part))).Registers s.framework :=
      kept _ rfl
    exact next ⟨hs, Orchestrator.stores_of_insert part rfl, hs⟩
  | announce =>
    intro y hy
    rw [Intake.eq_submitting hy]
    exact (kept _ rfl).1
  | take htaken =>
    have hj := hc _ _ (Orchestrator.mem_contents_of_take htaken)
    exact next (hj.serve _)
  | openAttempt =>
    have hj : o.Finds _ := ht _ rfl
    exact next (hj.start.serve _)
  | @log n j line =>
    have hj : o.Finds j := ht _ rfl
    have hlogged : o.Finds (o.log j line).2 := hj.congr rfl rfl
    exact next (hlogged.serve _)
  | fail _ =>
    have hj : o.Finds _ := ht _ rfl
    exact next ((hj.judged _).serve _)
  | settle _ =>
    have hj : o.Finds _ := ht _ rfl
    exact next ((hj.judged _).serve _)
  | despair _ =>
    have hj : o.Finds _ := ht _ rfl
    exact next ((hj.withRemark _).serve _)
  | store => exact next ⟨kept _ rfl, Orchestrator.stores_of_insert _ rfl⟩
  | hand hj _ =>
    obtain ⟨hfinds, hstores⟩ := ht _ rfl
    exact next ((hfinds.requeue hstores hj).serve _)
  | reject _ => exact next (kept _ rfl).1
  | decline | requeue | complete | miss | poll | administer | remove | surroundings =>
    exact fun _ hy => nomatch hy
  -- the other calls leave the job as it is
  | _ =>
    have hfounded := kept _ rfl
    exact next hfounded

/-- What a job that a queue gets refers to is there. -/
theorem Moves.finds_of_add {n : QueueName} {j : Job} (h : Moves o t (.add n j) t')
    (ht : ∀ x, t = some x → x.Founded o) : o.Finds j := by
  cases h with
  | add _ => exact (ht _ rfl).2
  | hand hj _ =>
    obtain ⟨hfinds, hstores⟩ := ht _ rfl
    exact hfinds.requeue hstores hj

/-- What a job that is put on the board refers to is there. -/
theorem Moves.finds_of_record {j : Job} (h : Moves o t (.record j) t')
    (ht : ∀ x, t = some x → x.Founded o) : o.Finds j := by
  cases h with
  | list => exact (ht _ rfl).2
  | openAttempt =>
    have hj : o.Finds _ := ht _ rfl
    exact hj.start
  | relist => exact ht _ rfl
  | conclude => exact ht _ rfl

end Moves

namespace Interleaving

/-- **What is referred to is there**, by routines, in the queues and on the board. -/
structure AllFounded (w : Interleaving) : Prop where
  tasks : ∀ t ∈ w.tasks, t.Founded w.orchestrator
  contents : ∀ n, ∀ j ∈ (w.orchestrator.queue n).contents, w.orchestrator.Finds j
  board : ∀ id j, w.orchestrator.board.get? id = some j → w.orchestrator.Finds j

theorem AllFounded.step {v w : Interleaving} (h : v.AllFounded) (hs : Step v w) :
    w.AllFounded := by
  cases hs with
  | @serve o t t' c hm l r calls =>
    obtain ⟨htasks, hcontents, hboard⟩ := h
    have ht : ∀ x, t = some x → x.Founded o :=
      fun x hx => htasks x (mem_tasks_iff.mpr (.inl hx))
    refine ⟨?_, ?_, ?_⟩
    · intro x hx
      rcases mem_tasks_iff.mp hx with hx | hx
      · exact hm.founded hcontents ht x hx
      · exact (htasks x (mem_tasks_iff.mpr (.inr hx))).serve c
    · intro n j hj
      rcases hm.mem_contents hj with rfl | hold
      · exact (hm.finds_of_add ht).serve (.add n j)
      · exact (hcontents n j hold).serve c
    · intro id j hj
      rcases Orchestrator.get?_board_serve hj with rfl | hold
      · exact (hm.finds_of_record ht).serve (.record j)
      · exact (hboard id j hold).serve c

theorem Reachable.allFounded {w : Interleaving} (h : Reachable w) : w.AllFounded := by
  refine h.invariant ?_ fun v w _ hv hs => hv.step hs
  rintro u ⟨config, adapters, host, ids, rfl⟩
  refine ⟨(fun _ ht => nomatch ht), ?_, (fun _ _ hj => nomatch hj)⟩
  intro n j hj
  cases n <;> cases hj

/-- A stored plan stays the same for good, and so does the registry. -/
theorem Steps.keep {v w : Interleaving} (h : Steps v w) :
    w.orchestrator.adapters = v.orchestrator.adapters ∧
      ∀ r p, v.orchestrator.plans.get? r = some p → w.orchestrator.plans.get? r = some p := by
  induction h with
  | refl => exact ⟨rfl, fun _ _ hp => hp⟩
  | tail _ hs ih =>
    obtain ⟨hadapters, hplans⟩ := ih
    cases hs with
    | @serve o t t' c hm l r calls =>
      refine ⟨(o.adapters_serve c).trans hadapters, ?_⟩
      intro r p hp
      exact Orchestrator.get?_plans_serve (hplans r p hp) c

/-! ## A standstill as a row of calls -/

/-- A row of calls that belong to no routine. -/
theorem steps_administration (tasks : List Routine) (row : List Call)
    (hrow : ∀ c ∈ row, (∃ n a, c = .administer n a) ∨ ∃ id, c = .remove id)
    (o : Orchestrator) (calls : List Call) :
    Steps ⟨o, tasks, calls⟩ ⟨row.foldl Orchestrator.serve o, tasks, calls ++ row⟩ := by
  induction row generalizing o calls with
  | nil =>
    rw [List.append_nil]
    exact .refl _
  | cons c rest ih =>
    have hm : Moves o none c none := by
      rcases hrow c List.mem_cons_self with ⟨n, a, rfl⟩ | ⟨id, rfl⟩
      · exact .administer
      · exact .remove
    have hs : Step ⟨o, tasks, calls⟩ ⟨o.serve c, tasks, calls ++ [c]⟩ := by
      simpa using Step.serve hm tasks [] calls
    have hrest := ih (fun d hd => hrow d (List.mem_cons_of_mem _ hd)) (o.serve c) (calls ++ [c])
    rw [List.append_assoc] at hrest
    exact ((Steps.refl _).tail hs).trans hrest

/-- The calls that bring a queue to a standstill. -/
def haltOneCalls (n : QueueName) : List Call :=
  [.administer n .pause, .administer n (.drain true), .administer n (.clean 0 0 .completed),
    .administer n (.clean 0 0 .failed)]

/-- The calls that bring all queues to a standstill and take the jobs that they held off
the board. -/
def haltCalls (o : Orchestrator) : List Call :=
  haltOneCalls .run ++ haltOneCalls .healing ++ haltOneCalls .security ++
    o.hall.halt.2.map .remove

theorem foldl_haltOneCalls (o : Orchestrator) (n : QueueName) :
    (haltOneCalls n).foldl Orchestrator.serve o =
      { o with hall := o.hall.modify n fun q => (QueueSet.haltOne q o.hall.now).1 } := by
  cases n <;> rfl

theorem foldl_remove (o : Orchestrator) (gone : List JobId) :
    (gone.map Call.remove).foldl Orchestrator.serve o =
      { o with board := gone.foldl JobBoard.remove o.board } := by
  induction gone generalizing o with
  | nil => rfl
  | cons id rest ih => exact ih (o.serve (.remove id))

/-- **A standstill is a row of calls**, which others may follow. -/
theorem steps_halt (w : Interleaving) :
    Steps w ⟨w.orchestrator.halt.1, w.tasks, w.calls ++ haltCalls w.orchestrator⟩ := by
  obtain ⟨o, tasks, calls⟩ := w
  have hhalt : (haltCalls o).foldl Orchestrator.serve o = o.halt.1 := by
    unfold haltCalls
    rw [List.foldl_append, List.foldl_append, List.foldl_append, foldl_haltOneCalls,
      foldl_haltOneCalls, foldl_haltOneCalls, foldl_remove]
    rfl
  show Steps _ ⟨o.halt.1, tasks, calls ++ haltCalls o⟩
  rw [← hhalt]
  refine steps_administration tasks (haltCalls o) ?_ o calls
  have one : ∀ {n : QueueName} {c : Call}, c ∈ haltOneCalls n → ∃ m a, c = .administer m a := by
    intro n c hc
    simp only [haltOneCalls, List.mem_cons, List.not_mem_nil, or_false] at hc
    rcases hc with rfl | rfl | rfl | rfl <;> exact ⟨n, _, rfl⟩
  intro c hc
  simp only [haltCalls, List.mem_append, List.mem_map] at hc
  rcases hc with ((hc | hc) | hc) | ⟨id, -, rfl⟩
  · exact .inl (one hc)
  · exact .inl (one hc)
  · exact .inl (one hc)
  · exact .inr ⟨id, rfl⟩

/-! ## The lookups of jobs -/

/-- **Plans and frameworks are always found.**  Whoever submits, works, heals and
administers, up to a standstill and after it, what a job refers to is there if the job
waits in a queue or will do so, is active, is on the board or is attended to.  So its tests
run with its plan and its framework, and its correction starts from its plan; and what is
stored and registered stays. -/
theorem Reachable.lookups_succeed {w : Interleaving} (h : Reachable w) :
    (∀ n, ∀ j, j ∈ (w.orchestrator.queue n).waiting ∨
        (∃ ready, (ready, j) ∈ (w.orchestrator.queue n).delayed) → w.orchestrator.Finds j) ∧
      (∀ n, ∀ id ∈ (w.orchestrator.queue n).active, ∃ t ∈ w.tasks, ∃ j,
        t.seat? = some (n, id) ∧ t.job? = some j ∧ j.id = id ∧ w.orchestrator.Finds j) ∧
      (∀ j ∈ w.orchestrator.board.toList, w.orchestrator.Finds j) ∧
      (∀ t ∈ w.tasks, ∀ j, t.job? = some j →
        (∃ p a, w.orchestrator.plans.get? j.plan = some p ∧
          w.orchestrator.adapters.find j.framework = .ok a ∧
          w.orchestrator.course j = a.course w.orchestrator.config.jobTimeoutSecs
            w.orchestrator.host p j.environment
            (w.orchestrator.config.attemptDirectory j.id j.attempt)) ∧
        ((j.discovery = none ∧ w.orchestrator.healedPlan j = .error .missingDiscovery) ∨
          ∃ d p, j.discovery = some d ∧ w.orchestrator.plans.get? j.plan = some p ∧
            w.orchestrator.healedPlan j =
              p.heal d ((j.failure?.map JobFailure.message).getD ""))) ∧
      (∀ v, Steps w v → v.orchestrator.adapters = w.orchestrator.adapters ∧
        ∀ r p, w.orchestrator.plans.get? r = some p → v.orchestrator.plans.get? r = some p) ∧
      Steps w ⟨w.orchestrator.halt.1, w.tasks, w.calls ++ haltCalls w.orchestrator⟩ := by
  obtain ⟨htasks, hcontents, hboard⟩ := h.allFounded
  refine ⟨?_, ?_, ?_, ?_, fun v hv => hv.keep, w.steps_halt⟩
  · rintro n j (hj | ⟨ready, hj⟩)
    · exact hcontents n j (List.mem_append_left _ hj)
    · exact hcontents n j (List.mem_append_right _ (List.mem_map.mpr ⟨_, hj, rfl⟩))
  · intro n id hid
    obtain ⟨t, ht, hseat⟩ := h.attended n id hid
    obtain ⟨j, hj, hjid⟩ := Routine.job?_of_seat? hseat
    exact ⟨t, ht, j, hseat, hj, hjid, (htasks t ht).finds hj⟩
  · intro j hj
    obtain ⟨id, hid⟩ := JobBoard.get?_of_mem_toList hj
    exact hboard id j hid
  · intro t ht j hj
    have hfinds := (htasks t ht).finds hj
    exact ⟨hfinds.course_eq, hfinds.healedPlan_eq⟩

theorem tasks_of_nextFetch? {w : Interleaving} {j : Job} (h : w.nextFetch? = some j) :
    ∃ n, w.tasks = [.fetching n j] := by
  unfold nextFetch? at h
  split at h
  · next n i ht =>
    cases h
    exact ⟨n, ht⟩
  · cases h

/-- Two jobs of one plan have failed and were healed, and one is about to be run again. -/
theorem lookups_succeed_firstRetry :
    Sample.firstRetry.Reachable ∧ ∃ j, Sample.firstRetry.nextFetch? = some j ∧
      Sample.firstRetry.orchestrator.Finds j ∧
      ∃ a : Adapter, Sample.firstRetry.orchestrator.course j =
        a.course Sample.firstRetry.orchestrator.config.jobTimeoutSecs
          Sample.firstRetry.orchestrator.host (Sample.correction "email") j.environment
          (Sample.firstRetry.orchestrator.config.attemptDirectory j.id j.attempt) := by
  have hr : Sample.firstRetry.Reachable := Sample.reachable_start.follow _
  refine ⟨hr, ?_⟩
  obtain ⟨j, hj⟩ := Option.isSome_iff_exists.mp
    (by decide +kernel : Sample.firstRetry.nextFetch?.isSome = true)
  have hplan : Sample.firstRetry.nextFetch?.bind
      (fun j => Sample.firstRetry.orchestrator.plans.get? j.plan) =
        some (Sample.correction "email") := by decide +kernel
  rw [hj, Option.bind_some] at hplan
  obtain ⟨n, hn⟩ := tasks_of_nextFetch? hj
  obtain ⟨-, -, -, hlookups, -, -⟩ := hr.lookups_succeed
  obtain ⟨⟨p, a, hp, ha, hcourse⟩, -⟩ := hlookups (.fetching n j) (by rw [hn]; simp) j rfl
  obtain rfl := Option.some.inj (hp.symm.trans hplan)
  exact ⟨j, hj, ⟨⟨_, hp⟩, a, ha⟩, a, hcourse⟩

end Interleaving

end Testplan
