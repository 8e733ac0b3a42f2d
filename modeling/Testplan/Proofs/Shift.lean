import Testplan.Proofs.Custody
import Testplan.Proofs.Uninterrupted
/-!
# Shifts

Tasks give way to each other only where they wait.  A submission does not wait, and
neither does a worker between the end of the tests and the end of the attempt; in between,
while the tests run, other tasks may do anything.

A `Shift` is an orchestrator with the jobs that are in the hands of workers, and one
`Step` is one operation that nothing interrupts, in any order that the queues allow.
Tests print any lines and end with any verdict, and nothing bounds the number of workers.
A worker whose attempt breaks off is not seen again, and its job stays in its hands.
Meanwhile the queues may be administered, jobs taken off the board, and time may pass.

Every shift is an interleaving of calls (`Shift.Reachable.interleaving`), so what holds of
all interleavings holds of it.
-/
namespace Testplan

/-- **A job in the hands of a worker** of a queue. -/
inductive Assignment where
  | taken (n : QueueName) (j : Job)
  /-- The attempt has begun and the tests run. -/
  | begun (n : QueueName) (j : Job)
  /-- The attempt broke off. -/
  | stranded (n : QueueName) (j : Job)

namespace Assignment

/-- The job of an assignment. -/
def job : Assignment → Job
  | taken _ j | begun _ j | stranded _ j => j

/-- The queue that the job was taken from. -/
def queue : Assignment → QueueName
  | taken n _ | begun n _ | stranded n _ => n

/-- How far the routine of the worker has come. -/
def routine : Assignment → Routine
  | taken n j => .opening n j
  | begun n j => .working n j
  | stranded n j => .correcting n j

theorem owned?_routine (a : Assignment) : a.routine.owned? = some a.job := by
  cases a <;> rfl

end Assignment

/-- **An orchestrator with its workers**, and the jobs that were queued so far with the
submissions that they were made for. -/
structure Shift where
  orchestrator : Orchestrator
  assignments : List Assignment := []
  requests : List (JobId × Submission) := []

/-- The jobs that a submission queues: those that it announces. -/
def Orchestrator.requests (o : Orchestrator) (s : Submission) : List (JobId × Submission) :=
  ((o.submit s).1.events.drop o.events.length).map fun e => (e.1, s)

namespace Shift

/-- **One operation.** -/
inductive Step : Shift → Shift → Prop where
  | submit {o as rs} (s : Submission) : Step ⟨o, as, rs⟩ ⟨(o.submit s).1, as, rs ++ o.requests s⟩
  | take {o l r rs n token j} (ht : (o.hall.ask n token).2 = .job j) :
      Step ⟨o, l ++ r, rs⟩ ⟨{ o with hall := (o.hall.ask n token).1 }, l ++ .taken n j :: r, rs⟩
  | miss {o as rs n token} (ht : ∀ j, (o.hall.ask n token).2 ≠ .job j) :
      Step ⟨o, as, rs⟩ ⟨{ o with hall := (o.hall.ask n token).1 }, as, rs⟩
  | start {o l r rs n j} :
      Step ⟨o, l ++ .taken n j :: r, rs⟩ ⟨(o.start j).1, l ++ .begun n (o.start j).2 :: r, rs⟩
  | log {o l r rs n j} (line : String) :
      Step ⟨o, l ++ .begun n j :: r, rs⟩ ⟨(o.log j line).1, l ++ .begun n (o.log j line).2 :: r, rs⟩
  | finish {o l r rs n j v} (hs : o.strands j v = false) :
      Step ⟨o, l ++ .begun n j :: r, rs⟩ ⟨o.finish n j v, l ++ r, rs⟩
  | strand {o l r rs n j v} (hs : o.strands j v = true) :
      Step ⟨o, l ++ .begun n j :: r, rs⟩
        ⟨o.finish n j v, l ++ .stranded n (Orchestrator.judged j v) :: r, rs⟩
  | administer {o as rs} (n : QueueName) (a : Administration) :
      Step ⟨o, as, rs⟩ ⟨{ o with hall := o.hall.modify n fun q => a.apply o.hall.now q }, as, rs⟩
  | remove {o as rs} (id : JobId) : Step ⟨o, as, rs⟩ ⟨{ o with board := o.board.remove id }, as, rs⟩
  | surroundings {o as rs} (host : Host) (hall : QueueHall) :
      Step ⟨o, as, rs⟩ ⟨{ o with host, hall := { hall with queues := o.hall.queues } }, as, rs⟩

/-- **The shifts that come about.** -/
inductive Reachable : Shift → Prop where
  | first (config : Configuration) (adapters : AdapterRegistry) (host : Host) (ids : IdSource) :
      Reachable ⟨.ofConfiguration config adapters host ids, [], []⟩
  | step {v w : Shift} (h : Reachable v) (hs : Step v w) : Reachable w

/-- The interleaving with the routines of the workers. -/
def interleaving (w : Shift) (calls : List Call) : Interleaving :=
  ⟨w.orchestrator, w.assignments.map Assignment.routine, calls⟩

/-- **An operation is a number of calls in a row.** -/
theorem Step.steps {v w : Shift} (h : Step v w) (calls : List Call) :
    ∃ cs, Interleaving.Steps (v.interleaving calls) (w.interleaving (calls ++ cs)) := by
  -- an operation of a worker leaves the others where they are
  have worker : ∀ {o o' : Orchestrator} {t t' : Option Routine} {cs : List Call}
      (before : List Call) (l r : List Assignment), Performs o t cs o' t' →
      Interleaving.Steps
        ⟨o, l.map Assignment.routine ++ t.toList ++ r.map Assignment.routine, before⟩
        ⟨o', l.map Assignment.routine ++ t'.toList ++ r.map Assignment.routine, before ++ cs⟩ :=
    fun before l r hp => hp.steps _ _ before
  -- nor does what no worker does
  have beside : ∀ {o : Orchestrator} {c : Call} (as : List Assignment) (before : List Call),
      Moves o none c none → Interleaving.Steps ⟨o, as.map Assignment.routine, before⟩
        ⟨o.serve c, as.map Assignment.routine, before ++ [c]⟩ := by
    intro o c as before hm
    have := worker before as [] (.call hm .done)
    simpa using this
  -- the files of an attempt are taken off the host before its worker makes a call
  have tidied : ∀ {o : Orchestrator} (l r : List Assignment) (n : QueueName) (j : Job),
      ∃ host, Interleaving.Steps ⟨o, (l ++ .begun n j :: r).map Assignment.routine, calls⟩
        ⟨o.tidied j, (l ++ .begun n j :: r).map Assignment.routine,
          calls ++ [.surroundings host o.hall]⟩ := by
    intro o l r n j
    obtain ⟨host, hhost⟩ := o.tidied_eq j
    rw [hhost]
    exact ⟨host, beside _ calls (.surroundings : Moves o none (.surroundings host o.hall) none)⟩
  cases h with
  | @submit o as rs s =>
    obtain ⟨cs, hcs⟩ := o.performs_submit s
    refine ⟨cs, ?_⟩
    have := worker calls as [] hcs
    simpa [interleaving] using this
  | @take o l r rs n token j ht =>
    refine ⟨[.take n token j], ?_⟩
    have := worker calls l r (Orchestrator.performs_take ht)
    simpa [interleaving, Assignment.routine] using this
  | @miss o as rs n token ht => exact ⟨_, beside as calls (.miss ht)⟩
  | @start o l r rs n j =>
    have := worker calls l r (o.performs_start n j)
    exact ⟨_, by simpa [interleaving, Assignment.routine] using this⟩
  | @log o l r rs n j line =>
    have := worker calls l r (o.performs_log n j line)
    exact ⟨_, by simpa [interleaving, Assignment.routine] using this⟩
  | @finish o l r rs n j v hs =>
    obtain ⟨cs, hcs⟩ := o.performs_finish n hs
    obtain ⟨host, htidied⟩ := tidied l r n j
    have := worker (calls ++ [.surroundings host o.hall]) l r hcs
    refine ⟨.surroundings host o.hall :: cs, htidied.trans ?_⟩
    simpa [interleaving, Assignment.routine] using this
  | @strand o l r rs n j v hs =>
    obtain ⟨host, htidied⟩ := tidied l r n j
    have := worker (calls ++ [.surroundings host o.hall]) l r (o.performs_strand n hs)
    rw [o.finish_of_strands hs]
    refine ⟨[.surroundings host o.hall, .judge j v], htidied.trans ?_⟩
    simpa [interleaving, Assignment.routine] using this
  | @administer o as rs n a => exact ⟨_, beside as calls .administer⟩
  | @remove o as rs id => exact ⟨_, beside as calls .remove⟩
  | @surroundings o as rs host hall => exact ⟨_, beside as calls .surroundings⟩

/-- **Every shift is an interleaving.** -/
theorem Reachable.interleaving {w : Shift} (h : Reachable w) :
    ∃ calls, (w.interleaving calls).Reachable := by
  induction h with
  | first config adapters host ids =>
    exact ⟨[], Interleaving.reachable_ofConfiguration config adapters host ids⟩
  | step _ hs ih =>
    obtain ⟨calls, hc⟩ := ih
    obtain ⟨cs, hcs⟩ := hs.steps calls
    exact ⟨_, hc.steps hcs⟩

end Shift

end Testplan
