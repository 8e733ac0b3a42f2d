import Mathlib.Data.List.Sort
import Testplan.Proofs.QueueLedger
/-!
# Cleaning and standstill

To **clean** a queue is to forget finished jobs of one sort that ended long enough ago.
The records are gone through in the order in which the jobs ended, up to the one at which
the limit is reached: before it those that can be forgotten are, and from there on all
are kept (`JobQueue.clean_spec`).

A **standstill** empties the three queues of everything but the jobs that are running
(`QueueSetRun.halt_spec`).  It forgets what succeeded and what failed, so no record is left
if every job that was completed had ended, and it gives the jobs that it drops in the
order in which they came, queue by queue.
-/
namespace Testplan

namespace JobQueue

/-! ## Cleaning -/

variable {α : Type}

theorem dropFirst_none (p : α → Bool) (l : List α) :
    dropFirst p none l = l.filter fun a => !p a := by
  induction l with
  | nil => rfl
  | cons a rest ih =>
    by_cases ha : p a = true
    · simp [dropFirst, ha, ih]
    · simp [dropFirst, ha, ih]

/-- With a limit of zero nothing is dropped. -/
theorem dropFirst_zero (p : α → Bool) (l : List α) : dropFirst p (some 0) l = l := by
  induction l with
  | nil => rfl
  | cons a rest ih => simp [dropFirst, ih]

/-- **Up to some place the elements that satisfy `p` are dropped, and from there on none
is**; those that are dropped are the first ones, as many as the limit allows. -/
theorem dropFirst_some (p : α → Bool) (limit : Nat) (l : List α) :
    ∃ before after, l = before ++ after ∧ before.filter p = (l.filter p).take limit ∧
      dropFirst p (some limit) l = (before.filter fun a => !p a) ++ after := by
  induction l generalizing limit with
  | nil => exact ⟨[], [], rfl, by simp, rfl⟩
  | cons a rest ih =>
    by_cases ha : p a = true
    · cases limit with
      | zero => exact ⟨[], a :: rest, rfl, by simp, by simp [dropFirst_zero]⟩
      | succ n =>
        obtain ⟨before, after, hsplit, hdropped, hkept⟩ := ih n
        refine ⟨a :: before, after, by rw [hsplit, List.cons_append], ?_, ?_⟩
        · rw [List.filter_cons_of_pos ha, List.filter_cons_of_pos ha, hdropped,
            List.take_succ_cons]
        · simp [dropFirst, ha, hkept]
    · obtain ⟨before, after, hsplit, hdropped, hkept⟩ := ih limit
      refine ⟨a :: before, after, by rw [hsplit, List.cons_append], ?_, ?_⟩
      · rw [List.filter_cons_of_neg ha, List.filter_cons_of_neg ha, hdropped]
      · simp [dropFirst, ha, hkept]

/-- The record is of a job of the sort that ended at least `grace` ago. -/
def forgettable (now grace : Time) (status : CleanStatus) (d : Time × Job) : Bool :=
  grace ≤ now - d.1 && status.covers d.2.status

/-- **What cleaning does**: the first records that can be forgotten are, as many as the
limit allows, and their number is given; all other records stay, in their order, and so
does everything else of the queue. -/
theorem clean_spec (q : JobQueue) (now grace : Time) (limit : Nat) (status : CleanStatus) :
    ∃ before after, q.finished = before ++ after ∧
      before.filter (forgettable now grace status) =
        (if limit = 0 then q.finished.filter (forgettable now grace status)
          else (q.finished.filter (forgettable now grace status)).take limit) ∧
      q.clean now grace limit status =
        ({ q with
            finished := (before.filter fun d => !forgettable now grace status d) ++ after },
          (before.filter (forgettable now grace status)).length) := by
  have hspec : ∃ before after, q.finished = before ++ after ∧
      before.filter (forgettable now grace status) =
        (if limit = 0 then q.finished.filter (forgettable now grace status)
          else (q.finished.filter (forgettable now grace status)).take limit) ∧
      dropFirst (forgettable now grace status) (if limit = 0 then none else some limit) q.finished =
        (before.filter fun d => !forgettable now grace status d) ++ after := by
    by_cases hl : limit = 0
    · rw [if_pos hl, if_pos hl]
      exact ⟨q.finished, [], (List.append_nil _).symm, rfl, by rw [dropFirst_none, List.append_nil]⟩
    · rw [if_neg hl, if_neg hl]
      exact dropFirst_some _ limit q.finished
  obtain ⟨before, after, hsplit, hdropped, hkept⟩ := hspec
  refine ⟨before, after, hsplit, hdropped, ?_⟩
  have hcount : q.finished.length - ((before.filter fun d => !forgettable now grace status d) ++
      after).length = (before.filter (forgettable now grace status)).length := by
    have hparts := List.length_eq_length_filter_add (l := before) (forgettable now grace status)
    rw [hsplit, List.length_append, List.length_append]
    omega
  rw [← hcount, ← hkept]
  rfl

/-- Without grace and limit all jobs of the sort are forgotten. -/
theorem clean_all (q : JobQueue) (now : Time) (status : CleanStatus) :
    (q.clean now 0 0 status).1 =
      { q with finished := q.finished.filter fun d => !status.covers d.2.status } := by
  show { q with finished := dropFirst _ none q.finished } = _
  rw [dropFirst_none]
  simp

/-! ## One queue at a standstill -/

/-- All records are of jobs that have ended. -/
def Settled (q : JobQueue) : Prop := ∀ d ∈ q.finished, d.2.status.isTerminal = true

/-- The queue with nothing but its running jobs, which hands out nothing. -/
def stopped (q : JobQueue) : JobQueue :=
  { q with waiting := [], delayed := [], finished := [], paused := true }

theorem haltOne_eq {q : JobQueue} (h : q.Settled) (now : Time) :
    QueueSet.haltOne q now = (q.stopped, q.contents.map Job.id) := by
  have hnone : ((q.finished.filter fun d => !CleanStatus.completed.covers d.2.status).filter
      fun d => !CleanStatus.failed.covers d.2.status) = [] := by
    rw [List.filter_filter]
    refine List.filter_eq_nil_iff.mpr fun d hd => ?_
    -- what has ended has succeeded or failed
    have := h d hd
    cases hs : d.2.status <;> simp_all [CleanStatus.covers, JobStatus.isTerminal,
      JobStatus.isFailure]
  have hdropped : q.waiting.map Job.id ++ q.delayed.map (fun d => d.2.id) =
      q.contents.map Job.id := by
    simp [contents, Function.comp_def]
  unfold QueueSet.haltOne
  rw [← hdropped]
  refine Prod.ext ?_ rfl
  dsimp only
  rw [clean_all, clean_all]
  show ({ q.stopped with finished := (q.finished.filter _).filter _ } : JobQueue) = q.stopped
  rw [hnone]
  rfl

theorem settled_of_nil {q : JobQueue} (h : q.finished = []) : q.Settled := by
  intro d hd
  rw [h] at hd
  cases hd

theorem haltOne_stopped (q : JobQueue) (now : Time) :
    QueueSet.haltOne q.stopped now = (q.stopped, []) :=
  haltOne_eq (settled_of_nil rfl) now

end JobQueue

/-! ## Queues in which only ended jobs are completed -/

namespace QueueRun

/-- A call keeps all records those of ended jobs, if the job that it completes has ended. -/
theorem settled_call {r : QueueRun} (h : r.queue.Settled) {c : QueueCall}
    (hc : ∀ j, c = .complete j → j.status.isTerminal = true) : (r.call c).queue.Settled := by
  cases c with
  | add j =>
    simp only [call]
    cases ha : r.queue.add? r.now j with
    | none => exact h
    | some q =>
      intro d hd
      exact h d ((JobQueue.active_of_add? ha).2 ▸ hd)
  | next cancelled =>
    rcases r.call_next_cases cancelled with ⟨he, -⟩ | ⟨-, -, he | ⟨j, rest, active, -, -, he⟩⟩
    · rw [he]
      exact h
    · rw [he]
      exact h
    · rw [he]
      exact h
  | complete j =>
    intro d hd
    rcases List.mem_append.mp hd with hd | hd
    · exact h d hd
    · rw [List.mem_singleton.mp hd]
      exact hc j rfl
  | clean grace limit status =>
    obtain ⟨before, after, hsplit, -, he⟩ := r.queue.clean_spec r.now grace limit status
    simp only [call, he]
    -- cleaning brings in no record
    intro d hd
    refine h d ?_
    rw [hsplit]
    rcases List.mem_append.mp hd with hd | hd
    · exact List.mem_append_left _ (List.mem_of_mem_filter hd)
    · exact List.mem_append_right _ hd
  | _ => exact h

theorem settled_run {r : QueueRun} (h : r.queue.Settled) {calls : List QueueCall}
    (hc : ∀ j, .complete j ∈ calls → j.status.isTerminal = true) :
    (r.run calls).queue.Settled := by
  induction calls generalizing r with
  | nil => exact h
  | cons c rest ih =>
    refine ih (settled_call h ?_) fun j hj => hc j (List.mem_cons_of_mem _ hj)
    rintro j rfl
    exact hc j List.mem_cons_self

/-- What the queue has yet to hand out, as it was added. -/
def held (r : QueueRun) : List Occurrence := r.ledger.waiting ++ r.ledger.delayed

variable {r : QueueRun}

theorem Balanced.contents_eq (h : r.Balanced) : r.queue.contents = r.held.map Occurrence.job := by
  rw [JobQueue.contents, h.waiting, h.delayed, held]
  simp [Function.comp_def]

/-- **What is left in a queue stands in the order in which it was added.** -/
theorem Balanced.held_sublist (h : r.Balanced) : r.held.Sublist r.ledger.added := by
  have hadded : InOrder r.ledger.added := by
    have hrange := List.pairwise_lt_range (n := r.ledger.added.length)
    rw [← h.numbers, List.pairwise_map] at hrange
    exact hrange
  have hheld : InOrder r.held := h.order.sublist (List.sublist_append_right _ _)
  have hsub : r.held.Subperm r.ledger.added := by
    refine List.Subperm.trans ?_ h.conserved.subperm
    unfold held
    exact ((List.sublist_append_right _ r.held).trans (List.sublist_append_left _ _)).subperm
  have : Std.Antisymm fun a b : Occurrence => a.number < b.number :=
    ⟨fun a b hab hba => absurd hab (Nat.lt_asymm hba)⟩
  exact List.sublist_of_subperm_of_pairwise hsub hheld hadded

end QueueRun

/-! ## The three queues -/

theorem QueueSet.halt_eq_haltOne (s : QueueSet) (now : Time) : s.halt now =
    (⟨(haltOne s.run now).1, (haltOne s.healing now).1, (haltOne s.security now).1⟩,
      (haltOne s.run now).2 ++ (haltOne s.healing now).2 ++ (haltOne s.security now).2) := rfl

/-- **A call of one of the three queues**, or of all of them. -/
inductive QueueSetCall where
  | call (n : QueueName) (c : QueueCall)
  | halt

/-- What a queue is called for. -/
def QueueSetCall.calls (n : QueueName) : QueueSetCall → List QueueCall
  | call m c => if m = n then [c] else []
  | halt => [.pause, .drain true, .clean 0 0 .completed, .clean 0 0 .failed]

/-- **The three queues in use.** -/
def QueueSetRun := QueueName → QueueRun

namespace QueueSetRun

/-- Empty queues at some time. -/
def start (settings : QueuesSettings) (now : Time) : QueueSetRun :=
  fun n => .start n ((QueueSet.ofSettings settings).get n).settings now

/-- The queues after a call. -/
def call (s : QueueSetRun) (c : QueueSetCall) : QueueSetRun := fun n => (s n).run (c.calls n)

/-- **The queues after all the calls.** -/
def run (s : QueueSetRun) (calls : List QueueSetCall) : QueueSetRun := calls.foldl call s

/-- The queues alone. -/
def set (s : QueueSetRun) : QueueSet where
  run := (s .run).queue
  healing := (s .healing).queue
  security := (s .security).queue

theorem get_set (s : QueueSetRun) (n : QueueName) : s.set.get n = (s n).queue := by
  cases n <;> rfl

/-- A call of all queues brings them to a standstill. -/
theorem set_call_halt (s : QueueSetRun) (now : Time) :
    (s.call .halt).set = (s.set.halt now).1 := by
  have one (n : QueueName) :
      ((s.call .halt) n).queue = (QueueSet.haltOne (s n).queue now).1 := by
    show (JobQueue.clean (JobQueue.clean _ _ 0 0 .completed).1 _ 0 0 .failed).1 =
      (JobQueue.clean (JobQueue.clean _ _ 0 0 .completed).1 _ 0 0 .failed).1
    simp only [JobQueue.clean_all]
    rfl
  show QueueSet.mk _ _ _ = QueueSet.mk _ _ _
  rw [one, one, one]
  rfl

/-- Each queue runs by itself. -/
theorem run_apply (s : QueueSetRun) (calls : List QueueSetCall) (n : QueueName) :
    s.run calls n = (s n).run (calls.flatMap (QueueSetCall.calls n)) := by
  induction calls generalizing s with
  | nil => rfl
  | cons c rest ih =>
    rw [List.flatMap_cons]
    refine (ih (s.call c)).trans ?_
    simp only [QueueRun.run, call, List.foldl_append]

theorem mem_calls_complete {calls : List QueueSetCall} {n : QueueName} {j : Job}
    (h : .complete j ∈ calls.flatMap (QueueSetCall.calls n)) : .call n (.complete j) ∈ calls := by
  obtain ⟨c, hc, hj⟩ := List.mem_flatMap.mp h
  cases c with
  | call m d =>
    by_cases hm : m = n
    · subst hm
      rw [QueueSetCall.calls, if_pos rfl, List.mem_singleton] at hj
      exact hj ▸ hc
    · rw [QueueSetCall.calls, if_neg hm] at hj
      cases hj
  | halt => simp [QueueSetCall.calls] at hj

/-- The books of each queue are right. -/
theorem balanced_run (settings : QueuesSettings) (first : Time) (calls : List QueueSetCall)
    (n : QueueName) : ((start settings first).run calls n).Balanced := by
  rw [run_apply]
  exact (QueueRun.Balanced.start ..).run _

/-- If only ended jobs are completed, all records are of ended jobs. -/
theorem settled_run (settings : QueuesSettings) (first : Time) {calls : List QueueSetCall}
    (hends : ∀ n j, .call n (.complete j) ∈ calls → j.status.isTerminal = true) (n : QueueName) :
    ((start settings first).run calls n).queue.Settled := by
  rw [run_apply]
  refine QueueRun.settled_run (JobQueue.settled_of_nil rfl) ?_
  intro j hj
  exact hends n j (mem_calls_complete hj)

/-- The queues with nothing but their running jobs. -/
def stopped (s : QueueSetRun) : QueueSet where
  run := (s .run).queue.stopped
  healing := (s .healing).queue.stopped
  security := (s .security).queue.stopped

theorem get_stopped (s : QueueSetRun) (n : QueueName) :
    s.stopped.get n = (s.set.get n).stopped := by
  cases n <;> rfl

/-- A standstill stops the queues and gives what they held. -/
theorem halt_eq {s : QueueSetRun} (hb : ∀ n, (s n).Balanced) (hs : ∀ n, (s n).queue.Settled)
    (now : Time) : s.set.halt now =
      (s.stopped, QueueName.all.flatMap fun n => (s n).held.map fun o => o.job.id) := by
  have one (n : QueueName) : QueueSet.haltOne (s n).queue now =
      ((s n).queue.stopped, (s n).held.map fun o => o.job.id) := by
    rw [JobQueue.haltOne_eq (hs n), (hb n).contents_eq, List.map_map]
    rfl
  rw [QueueSet.halt_eq_haltOne]
  simp only [set, one]
  simp [QueueName.all, stopped]

/-- Queues that stand still are left as they are. -/
theorem halt_stopped (s : QueueSetRun) (now : Time) : s.stopped.halt now = (s.stopped, []) := by
  rw [QueueSet.halt_eq_haltOne]
  simp only [stopped, JobQueue.haltOne_stopped, List.append_nil]

/-- **A standstill empties the queues of everything but running jobs.**  After any calls of
the three queues by which only ended jobs were completed, it gives what was waiting and
then what was delayed, queue by queue and in the order in which it was added; the queues
are paused, and of their contents only the active jobs are left, as after the call of all
queues.  Once more it does nothing.  Cleaning, of which it makes use, forgets the first
records that are of the sort and old enough, as many as the limit allows, and leaves all else
as it was. -/
theorem halt_spec (settings : QueuesSettings) (first : Time) (calls : List QueueSetCall)
    (hends : ∀ n j, .call n (.complete j) ∈ calls → j.status.isTerminal = true) (now : Time) :
    let s := (start settings first).run calls
    let halted := (s.set.halt now).1
    -- what is given
    ((s.set.halt now).2 = QueueName.all.flatMap (fun n => (s n).held.map fun o => o.job.id) ∧
      ∀ n, (s n).held.Sublist (s n).ledger.added ∧
        (s.set.get n).waiting = (s n).ledger.waiting.map Occurrence.job ∧
        (s.set.get n).delayed.map Prod.snd = (s n).ledger.delayed.map Occurrence.job) ∧
    -- what is left
    ((s.call .halt).set = halted ∧ ∀ n, halted.get n = { s.set.get n with
      waiting := [], delayed := [], finished := [], paused := true }) ∧
    (∀ later, halted.halt later = (halted, [])) ∧
    -- what cleaning does
    ∀ (q : JobQueue) (now grace : Time) (limit : Nat) (status : CleanStatus),
      ∃ before after, q.finished = before ++ after ∧
        before.filter (JobQueue.forgettable now grace status) =
          (if limit = 0 then q.finished.filter (JobQueue.forgettable now grace status)
            else (q.finished.filter (JobQueue.forgettable now grace status)).take limit) ∧
        q.clean now grace limit status =
          ({ q with finished :=
              (before.filter fun d => !JobQueue.forgettable now grace status d) ++ after },
            (before.filter (JobQueue.forgettable now grace status)).length) := by
  intro s halted
  have hbalanced := balanced_run settings first calls
  have hhalt := halt_eq hbalanced (settled_run settings first hends) now
  have hhalted : halted = s.stopped := congrArg Prod.fst hhalt
  refine ⟨⟨congrArg Prod.snd hhalt, ?_⟩, ⟨s.set_call_halt now, ?_⟩, ?_, JobQueue.clean_spec⟩
  · intro n
    refine ⟨(hbalanced n).held_sublist, ?_, ?_⟩
    · rw [get_set, (hbalanced n).waiting]
    · rw [get_set, (hbalanced n).delayed, List.map_map]
      rfl
  · intro n
    rw [hhalted, get_stopped]
    rfl
  · intro later
    rw [hhalted]
    exact s.halt_stopped later

/-- A job with a number. -/
def numbered (number : Nat) (status : JobStatus) : Job where
  id := ⟨⟨BitVec.ofNat 128 number⟩⟩
  plan := default
  framework := "playwright-ts"
  queue := .run
  status := status

/-- One job has succeeded, two wait, and one is delayed in the queue for healing. -/
def busy : List QueueSetCall :=
  [.call .run (.add (numbered 1 .queued)), .call .run (.next false),
    .call .run (.complete (numbered 1 .succeeded)), .call .run (.add (numbered 2 .queued)),
    .call .healing (.add (numbered 3 .queued)), .call .run (.add (numbered 4 .queued))]

/-- The jobs of the first queue come before the one that was added between them. -/
theorem halt_spec_busy :
    (∀ n j, .call n (.complete j) ∈ busy → j.status.isTerminal = true) ∧
      let s := (start { healing := { delaySecs := 60 } } 0).run busy
      ((s .run).queue.finished.length = 1 ∧ (s .healing).queue.delayed.length = 1) ∧
      (s.set.halt 0).2 = [2, 4, 3].map (fun number => (numbered number .queued).id) ∧
      ((s.set.halt 0).1.get .run).finished = [] ∧
      (s.set.halt 0).1.halt 0 = ((s.set.halt 0).1, []) := by
  have hends : ∀ n j, QueueSetCall.call n (.complete j) ∈ busy → j.status.isTerminal = true := by
    intro n j hj
    simp only [busy, List.mem_cons, QueueSetCall.call.injEq, reduceCtorEq, QueueCall.complete.injEq,
      and_false, false_or, List.not_mem_nil, or_false] at hj
    rw [hj.2]
    rfl
  refine ⟨hends, ⟨by decide +kernel, by decide +kernel⟩, ?_⟩
  obtain ⟨⟨hgiven, -⟩, ⟨-, hleft⟩, hagain, -⟩ :=
    halt_spec { healing := { delaySecs := 60 } } 0 busy hends 0
  refine ⟨hgiven.trans (by decide +kernel), ?_, hagain 0⟩
  rw [hleft]

end QueueSetRun

end Testplan
