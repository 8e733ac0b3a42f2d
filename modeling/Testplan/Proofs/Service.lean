import Testplan.Proofs.JobLife
import Testplan.WorkerPool
/-!
# Running until all is idle

A **service** is an orchestrator that is run time after time.  A run begins with a crew of
workers, who ask their queues, attend to the jobs that they get, and leave when they are
told that no job will come any more.  Meanwhile a monitor looks whether all queues are idle
and then stops the workers; somebody else may interrupt them at any moment.  A worker whose
attempt breaks off leaves at once, and its job is stranded.  The run returns when all have
left, and after an interruption it brings the queues to a standstill (`Service.returned`).

One `Service.Step` is what a task does between two waits, and the tasks take their steps in
any order.  Waiting is not said here: a worker who waits may ask again at any moment, for
a reason or for none, so whatever wakes the workers is covered.  Queues may be paused,
resumed and cleaned at any time; they are not closed, nobody else drains them, and nothing
is submitted during a run.  The monitor does not wait between the queues that it looks at,
so its look at all of them is one step (`Service.Step.look`).

Every service is a shift (`Service.Reachable.shift`), so what holds of all shifts holds
of it.
-/
namespace Testplan

/-! ## What an operation leaves alone -/

/-- Where somebody waits, and with which token. -/
def Waiter.seat (w : Waiter) : Nat × QueueName × Nat := (w.who, w.queue, w.token)

/-- No queue is opened or closed, no token is cancelled and none taken into use, and those
who wait keep their seats. -/
structure QueueHall.SameService (h h' : QueueHall) : Prop where
  token : h'.token = h.token
  cancelled : h'.cancelled = h.cancelled
  closed : ∀ n, (h'.queues.get n).closed = (h.queues.get n).closed
  seats : h'.parked.map Waiter.seat = h.parked.map Waiter.seat

namespace QueueHall

variable {h h' h'' : QueueHall}

theorem SameService.refl (h : QueueHall) : h.SameService h := ⟨rfl, rfl, fun _ => rfl, rfl⟩

theorem SameService.trans (a : h.SameService h') (b : h'.SameService h'') : h.SameService h'' :=
  ⟨b.token.trans a.token, b.cancelled.trans a.cancelled,
    fun n => (b.closed n).trans (a.closed n), b.seats.trans a.seats⟩

theorem sameService_set (h : QueueHall) {n : QueueName} {q : JobQueue}
    (hq : q.closed = (h.queues.get n).closed) :
    h.SameService { h with queues := h.queues.set n q } := by
  refine ⟨rfl, rfl, fun m => ?_, rfl⟩
  show ((h.queues.set n q).get m).closed = _
  rw [QueueSet.get_set]
  split
  · next hm => rw [hm, hq]
  · rfl

theorem sameService_ask (h : QueueHall) (n : QueueName) (token : Nat) :
    h.SameService (h.ask n token).1 :=
  h.sameService_set (JobQueue.closed_next _ _ _)

theorem sameService_add {n : QueueName} {j : Job} (ha : h.add? n j = some h') :
    h.SameService h' := by
  unfold add? at ha
  obtain ⟨q, hq, rfl⟩ := Option.map_eq_some_iff.mp ha
  have hclosed : q.closed = (h.queues.get n).closed := by
    unfold JobQueue.add? at hq
    split at hq
    · cases hq
    · split at hq <;> cases hq <;> rfl
  refine ⟨rfl, rfl, (h.sameService_set hclosed).closed, ?_⟩
  show (h.parked.map fun w => if w.queue = n then { w with signalled := true } else w).map
    Waiter.seat = h.parked.map Waiter.seat
  rw [List.map_map]
  refine List.map_congr_left fun w _ => ?_
  show Waiter.seat (if w.queue = n then { w with signalled := true } else w) = w.seat
  split <;> rfl

end QueueHall

namespace Orchestrator

/-- An attempt that ends puts its job on the board and leaves the service as it is. -/
theorem finish_leaves {o : Orchestrator} (n : QueueName) {j : Job} {v : Verdict}
    (hs : o.strands j v = false) :
    (o.finish n j v).ids = o.ids ∧ o.hall.SameService (o.finish n j v).hall ∧
      ∃ e : Job, e.id = j.id ∧ (o.finish n j v).board = o.board.record e := by
  -- both outcomes keep the identifiers, the tokens and the doors
  have concluded : ∀ (o₁ : Orchestrator) {e : Job}, o₁.ids = o.ids → o₁.hall = o.hall →
      o₁.board = o.board → e.id = j.id →
      (o₁.conclude n e).ids = o.ids ∧ o.hall.SameService (o₁.conclude n e).hall ∧
        ∃ i : Job, i.id = j.id ∧ (o₁.conclude n e).board = o.board.record i := by
    intro o₁ e hids hhall hboard he
    refine ⟨hids, ?_, e, he, ?_⟩
    · rw [← hhall]
      exact o₁.hall.sameService_set rfl
    · rw [← hboard]
      rfl
  obtain ⟨host, hhost⟩ := o.tidied_eq j
  rw [finish_eq, healedPlan_tidied, hhost]
  split
  · next hheal =>
    split
    · exact concluded { o with host } rfl rfl rfl (by rw [id_withRemark, id_judged])
    · next h hp =>
      cases hh : ({ o with host }.serve (.correct (judged j v) h)).handOff? n (judged j v) h with
      | none =>
        exact concluded ({ o with host }.serve (.correct (judged j v) h)) rfl rfl rfl
          (id_judged j v)
      | some o' =>
        obtain ⟨healed, hall, hj, ha, rfl⟩ := handOff?_eq_some_iff.mp hh
        have hsame : o.hall.SameService hall := QueueHall.sameService_add ha
        exact ⟨rfl, hsame.trans (hall.sameService_set rfl), healed,
          (id_requeue hj).trans (id_judged j v), rfl⟩
    · next hover =>
      rw [strands_iff.mpr ⟨hheal, hover⟩] at hs
      cases hs
  · exact concluded { o with host } rfl rfl rfl (id_judged j v)

/-- Whether or not an attempt breaks off, its end leaves the service as it is. -/
theorem sameService_finish (o : Orchestrator) (n : QueueName) (j : Job) (v : Verdict) :
    (o.finish n j v).ids = o.ids ∧ o.hall.SameService (o.finish n j v).hall := by
  cases hs : o.strands j v with
  | false =>
    obtain ⟨hids, hsame, -⟩ := finish_leaves n hs
    exact ⟨hids, hsame⟩
  | true =>
    obtain ⟨host, hhost⟩ := o.tidied_eq j
    rw [finish_of_strands hs, hhost]
    exact ⟨rfl, .refl _⟩

/-- A submission leaves the service as it is. -/
theorem sameService_submit (o : Orchestrator) (s : Submission)
    (hd : (o.submit s).1.ids.Distinct) : o.hall.SameService (o.submit s).1.hall := by
  refine @Shift.submit_invariant (fun w => o.hall.SameService w.orchestrator.hall) [] s
    (fun h => h) (fun _ h => h) ?_ o [] (.refl _) hd
  intro o₁ rs environment n part hall hn ha hd h
  have hhall : (o₁.enlisted s environment n part).hall = hall := by
    unfold enlisted
    dsimp only
    rw [serve_add (o := o₁.serve (.create s part _)) ha]
    rfl
  show o.hall.SameService (o₁.enlisted s environment n part).hall
  rw [hhall]
  exact h.trans (QueueHall.sameService_add ha)

end Orchestrator

/-! ## Runs -/

/-- What a worker does. -/
inductive Duty where
  | asking
  | taken (j : Job)
  /-- The attempt has begun and the tests run. -/
  | begun (j : Job)
  /-- The worker was told that no job will come any more. -/
  | off
  /-- The attempt broke off. -/
  | stranded (j : Job)

/-- Who does this does nothing more. -/
def Duty.hasLeft : Duty → Bool
  | off | stranded _ => true
  | asking | taken _ | begun _ => false

/-- A worker of a queue. -/
structure Attendant where
  queue : QueueName
  duty : Duty := .asking

/-- The job in the hands of a worker. -/
def Attendant.assignment? (a : Attendant) : Option Assignment :=
  match a.duty with
  | .taken j => some (.taken a.queue j)
  | .begun j => some (.begun a.queue j)
  | .stranded j => some (.stranded a.queue j)
  | .asking | .off => none

/-- The jobs in the hands of workers. -/
def Service.assignments (as : List Attendant) : List Assignment :=
  as.filterMap Attendant.assignment?

/-- The administration of a queue that neither closes it nor takes out jobs. -/
def Administration.keepsJobs : Administration → Bool
  | pause | resume | clean .. => true
  | close | drain _ => false

/-- **An orchestrator that is run time after time.** -/
structure Service where
  orchestrator : Orchestrator
  attendants : List Attendant := []
  running : Bool := false
  /-- Somebody has stopped the workers of the last run. -/
  interrupted : Bool := false
  requests : List (JobId × Submission) := []
  /-- The jobs that were dropped by interrupted runs. -/
  dropped : List JobId := []
  /-- The jobs whose attempts broke off in earlier runs. -/
  stranded : List Assignment := []

namespace Service

/-- All identifiers that were drawn differ from each other. -/
def Distinct (v : Service) : Prop := v.orchestrator.ids.Distinct

/-- The workers are told to stop. -/
def isStopping (v : Service) : Prop := v.orchestrator.hall.token ∈ v.orchestrator.hall.cancelled

/-- The jobs that are dropped when the run returns. -/
def gone (v : Service) : List JobId := if v.interrupted then v.orchestrator.hall.halt.2 else []

/-- **The service after a run has returned.**  Nobody waits any more. -/
def returned (v : Service) : Service :=
  let o := { v.orchestrator with hall := { v.orchestrator.hall with parked := [] } }
  { v with
    orchestrator := if v.interrupted then o.halt.1 else o
    attendants := []
    running := false
    dropped := v.dropped ++ v.gone
    stranded := assignments v.attendants ++ v.stranded }

/-- **What a task does between two waits.** -/
inductive Step : Service → Service → Prop where
  | submit {o b rs ds ss} (s : Submission) :
      Step ⟨o, [], false, b, rs, ds, ss⟩
        ⟨(o.submit s).1, [], false, b, rs ++ o.requests s, ds, ss⟩
  /-- Every queue has workers. -/
  | begin {o b rs ds ss} (crew : List QueueName) (hc : ∀ n, n ∈ crew) :
      Step ⟨o, [], false, b, rs, ds, ss⟩
        ⟨{ o with hall := o.hall.renew }, crew.map fun n => { queue := n }, true, false, rs, ds,
          ss⟩
  | take {o l r b rs ds ss n j} (ht : (o.hall.ask n o.hall.token).2 = .job j) :
      Step ⟨o, l ++ ⟨n, .asking⟩ :: r, true, b, rs, ds, ss⟩
        ⟨{ o with hall := (o.hall.ask n o.hall.token).1 }, l ++ ⟨n, .taken j⟩ :: r, true, b, rs, ds,
          ss⟩
  | wait {o l r b rs ds ss n deadline} (ht : (o.hall.ask n o.hall.token).2 = .wait deadline) :
      Step ⟨o, l ++ ⟨n, .asking⟩ :: r, true, b, rs, ds, ss⟩
        ⟨{ o with hall := (o.hall.ask n o.hall.token).1 }, l ++ ⟨n, .asking⟩ :: r, true, b, rs, ds,
          ss⟩
  | leave {o l r b rs ds ss n} (ht : (o.hall.ask n o.hall.token).2 = .ended) :
      Step ⟨o, l ++ ⟨n, .asking⟩ :: r, true, b, rs, ds, ss⟩
        ⟨{ o with hall := (o.hall.ask n o.hall.token).1 }, l ++ ⟨n, .off⟩ :: r, true, b, rs, ds,
          ss⟩
  | start {o l r b rs ds ss n j} :
      Step ⟨o, l ++ ⟨n, .taken j⟩ :: r, true, b, rs, ds, ss⟩
        ⟨(o.start j).1, l ++ ⟨n, .begun (o.start j).2⟩ :: r, true, b, rs, ds, ss⟩
  | log {o l r b rs ds ss n j} (line : String) :
      Step ⟨o, l ++ ⟨n, .begun j⟩ :: r, true, b, rs, ds, ss⟩
        ⟨(o.log j line).1, l ++ ⟨n, .begun (o.log j line).2⟩ :: r, true, b, rs, ds, ss⟩
  | finish {o l r b rs ds ss n j v} (hs : o.strands j v = false) :
      Step ⟨o, l ++ ⟨n, .begun j⟩ :: r, true, b, rs, ds, ss⟩
        ⟨o.finish n j v, l ++ ⟨n, .asking⟩ :: r, true, b, rs, ds, ss⟩
  | strand {o l r b rs ds ss n j v} (hs : o.strands j v = true) :
      Step ⟨o, l ++ ⟨n, .begun j⟩ :: r, true, b, rs, ds, ss⟩
        ⟨o.finish n j v, l ++ ⟨n, .stranded (Orchestrator.judged j v)⟩ :: r, true, b, rs, ds, ss⟩
  /-- The monitor finds all queues idle. -/
  | look {o as b rs ds ss} (hi : o.hall.queues.allIdle = true) :
      Step ⟨o, as, true, b, rs, ds, ss⟩
        ⟨{ o with hall := o.hall.cancel }, as, true, b, rs, ds, ss⟩
  | interrupt {o as b rs ds ss} :
      Step ⟨o, as, true, b, rs, ds, ss⟩
        ⟨{ o with hall := o.hall.cancel }, as, true, true, rs, ds, ss⟩
  | returns {o as b rs ds ss} (hleft : ∀ a ∈ as, a.duty.hasLeft = true) :
      Step ⟨o, as, true, b, rs, ds, ss⟩ (returned ⟨o, as, true, b, rs, ds, ss⟩)
  | administer {o as t b rs ds ss} (n : QueueName) (a : Administration) (ha : a.keepsJobs = true) :
      Step ⟨o, as, t, b, rs, ds, ss⟩
        ⟨{ o with hall := o.hall.modify n fun q => a.apply o.hall.now q }, as, t, b, rs, ds, ss⟩
  /-- Time passes, the files on the host change, and during a run others are parked at the
  queues. -/
  | pass {o as t b rs ds ss} (host : Host) (now : Time) (parked : List Waiter)
      (hp : t = false → parked = []) :
      Step ⟨o, as, t, b, rs, ds, ss⟩
        ⟨{ o with host, hall := { o.hall with now, parked } }, as, t, b, rs, ds, ss⟩

/-- **The services that come about.** -/
inductive Reachable : Service → Prop where
  | first (config : Configuration) (adapters : AdapterRegistry) (host : Host) (ids : IdSource) :
      Reachable { orchestrator := .ofConfiguration config adapters host ids }
  | step {v w : Service} (h : Reachable v) (hs : Step v w) : Reachable w

/-- **The course of a run**, from the service that it begins with. -/
inductive Run (v : Service) : Service → Prop where
  | begin {w : Service} (hs : Step v w) (hv : v.running = false) (hw : w.running = true) : Run v w
  | step {w x : Service} (h : Run v w) (hs : Step w x) (hx : x.running = true) : Run v x

theorem Run.running {v w : Service} (h : Run v w) : w.running = true := by
  cases h with
  | begin _ _ hw => exact hw
  | step _ _ hx => exact hx

theorem Run.reachable {v w : Service} (h : Run v w) (hv : Reachable v) : Reachable w := by
  induction h with
  | begin hs => exact .step hv hs
  | step _ hs _ ih => exact .step ih hs

/-- In a run nothing is submitted and no identifier is drawn. -/
theorem Step.same_requests {v w : Service} (hs : Step v w) (hw : w.running = true) :
    w.requests = v.requests ∧ w.dropped = v.dropped ∧ w.stranded = v.stranded ∧
      w.orchestrator.ids = v.orchestrator.ids := by
  cases hs with
  | submit => cases hw
  | returns => cases hw
  | @finish o l r b rs ds ss n j v => exact ⟨rfl, rfl, rfl, (o.sameService_finish n j v).1⟩
  | @strand o l r b rs ds ss n j v => exact ⟨rfl, rfl, rfl, (o.sameService_finish n j v).1⟩
  | _ => exact ⟨rfl, rfl, rfl, rfl⟩

theorem Run.same_requests {v w : Service} (h : Run v w) :
    w.requests = v.requests ∧ w.dropped = v.dropped ∧ w.stranded = v.stranded ∧
      w.orchestrator.ids = v.orchestrator.ids := by
  induction h with
  | begin hs _ hw => exact hs.same_requests hw
  | step _ hs hx ih =>
    obtain ⟨hrequests, hdropped, hstranded, hids⟩ := hs.same_requests hx
    exact ⟨hrequests.trans ih.1, hdropped.trans ih.2.1, hstranded.trans ih.2.2.1,
      hids.trans ih.2.2.2⟩

theorem Run.distinct {v w : Service} (h : Run v w) (hv : v.Distinct) : w.Distinct := by
  unfold Distinct
  rw [h.same_requests.2.2.2]
  exact hv

/-! ## Services as shifts -/

/-- The shift of a service.  A stranded job stays in the hands of the worker that is gone. -/
def shift (v : Service) : Shift :=
  ⟨v.orchestrator, assignments v.attendants ++ v.stranded, v.requests⟩

theorem assignments_split (l r : List Attendant) (a : Attendant) :
    assignments (l ++ a :: r) = assignments l ++ a.assignment?.toList ++ assignments r := by
  unfold assignments
  rw [List.filterMap_append, List.filterMap_cons, List.append_assoc]
  cases a.assignment? <;> rfl

theorem assignments_crew (crew : List QueueName) :
    assignments (crew.map fun n => { queue := n }) = [] := by
  refine List.filterMap_eq_nil_iff.mpr fun a ha => ?_
  obtain ⟨n, -, rfl⟩ := List.mem_map.mp ha
  rfl

end Service

/-! ## A standstill as a number of operations -/

theorem QueueHall.modify_modify (h : QueueHall) (n : QueueName) (f g : JobQueue → JobQueue) :
    (h.modify n f).modify n g = h.modify n fun q => g (f q) := by
  cases n <;> rfl

namespace Shift

variable {o : Orchestrator} {as : List Assignment} {rs : List (JobId × Submission)}

/-- One queue is brought to a standstill. -/
theorem Reachable.haltOne (h : Reachable ⟨o, as, rs⟩) (n : QueueName) :
    Reachable ⟨{ o with hall := o.hall.modify n fun q => (QueueSet.haltOne q o.hall.now).1 },
      as, rs⟩ := by
  have h := (((h.step (.administer n .pause)).step (.administer n (.drain true))).step
    (.administer n (.clean 0 0 .completed))).step (.administer n (.clean 0 0 .failed))
  simp only [QueueHall.modify_modify] at h
  exact h

theorem Reachable.removeAll (h : Reachable ⟨o, as, rs⟩) (ids : List JobId) :
    Reachable ⟨{ o with board := ids.foldl JobBoard.remove o.board }, as, rs⟩ := by
  induction ids generalizing o with
  | nil => exact h
  | cons id rest ih => exact ih (h.step (.remove id))

theorem Reachable.halt (h : Reachable ⟨o, as, rs⟩) : Reachable ⟨o.halt.1, as, rs⟩ :=
  (((h.haltOne .run).haltOne .healing).haltOne .security).removeAll o.hall.halt.2

end Shift

namespace Service

theorem Step.shift {v w : Service} (hs : Step v w) (hv : v.shift.Reachable) :
    w.shift.Reachable := by
  -- the workers beside the one that takes the step keep their jobs
  unfold Service.shift at hv ⊢
  cases hs with
  | submit s => exact hv.step (.submit s)
  | @begin o b rs ds ss crew hc =>
    rw [assignments_crew]
    exact hv.step (.surroundings o.host o.hall.renew)
  | take ht =>
    simp only [assignments_split, Attendant.assignment?, Option.toList_none, Option.toList_some,
      List.append_nil, List.append_assoc] at hv ⊢
    exact hv.step (.take ht)
  | wait ht => exact hv.step (.miss fun j hj => by rw [ht] at hj; cases hj)
  | leave ht =>
    simp only [assignments_split, Attendant.assignment?, Option.toList_none] at hv ⊢
    exact hv.step (.miss fun j hj => by rw [ht] at hj; cases hj)
  | start =>
    simp only [assignments_split, Attendant.assignment?, Option.toList_some,
      List.append_assoc] at hv ⊢
    exact hv.step .start
  | log line =>
    simp only [assignments_split, Attendant.assignment?, Option.toList_some,
      List.append_assoc] at hv ⊢
    exact hv.step (.log line)
  | finish hstays =>
    simp only [assignments_split, Attendant.assignment?, Option.toList_none, Option.toList_some,
      List.append_nil, List.append_assoc] at hv ⊢
    exact hv.step (.finish hstays)
  | strand hstrands =>
    simp only [assignments_split, Attendant.assignment?, Option.toList_some,
      List.append_assoc] at hv ⊢
    exact hv.step (.strand hstrands)
  | @look o => exact hv.step (.surroundings o.host o.hall.cancel)
  | @interrupt o => exact hv.step (.surroundings o.host o.hall.cancel)
  | @returns o as b rs ds ss hleft =>
    have hgone := hv.step (.surroundings o.host { o.hall with parked := [] })
    cases b with
    | false => exact hgone
    | true => exact hgone.halt
  | administer n a ha => exact hv.step (.administer n a)
  | @pass o as t b rs ds ss host now parked hp =>
    exact hv.step (.surroundings host { o.hall with now, parked })

/-- **Every service is a shift.** -/
theorem Reachable.shift {v : Service} (h : Reachable v) : v.shift.Reachable := by
  induction h with
  | first config adapters host ids => exact .first config adapters host ids
  | step _ hs ih => exact hs.shift ih

end Service

end Testplan
