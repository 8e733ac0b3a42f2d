import Testplan.Configuration
import Testplan.Job
/-!
# Queues of jobs

A `JobQueue` hands out jobs in the order in which they were added.  A job of a queue
with a delay is **delayed** first and becomes **waiting** when its time has come and
somebody asks for a job.  A job that was handed out is **active** until it is completed,
which puts it among the **finished** ones, or released to another queue.

A paused queue hands out nothing; a closed one takes nothing in and hands out nothing
more.  Times are in milliseconds.
-/
namespace Testplan

/-- A point in time or a duration, in milliseconds. -/
abbrev Time := Nat

/-- Which finished jobs to forget. -/
inductive CleanStatus where
  | completed
  | failed
deriving DecidableEq, Repr

/-- The job belongs to the finished jobs of a sort. -/
def CleanStatus.covers (c : CleanStatus) (s : JobStatus) : Bool :=
  match c with
  | .completed => s = .succeeded
  | .failed => s.isFailure

/-- How many jobs a queue holds. -/
structure QueueCounts where
  waiting : Nat
  delayed : Nat
  active : Nat
  completed : Nat
  failed : Nat
  paused : Bool
deriving DecidableEq, Repr

/-- **A queue of jobs.** -/
structure JobQueue where
  name : QueueName
  settings : QueueSettings
  waiting : List Job := []
  /-- The jobs that cannot be taken yet, with the times from which they can. -/
  delayed : List (Time × Job) := []
  active : List JobId := []
  /-- The jobs that ended, with the times at which they did. -/
  finished : List (Time × Job) := []
  paused : Bool := false
  closed : Bool := false

/-- Why a plan could not be submitted. -/
inductive SubmitError where
  | config (error : ConfigError)
  | queueClosed (queue : QueueName)
deriving DecidableEq, Repr

/-- The wording of the error. -/
def SubmitError.message : SubmitError → String
  | config e => e.message
  | queueClosed q => q.name ++ " 큐가 이미 종료되었습니다."

/-- What asking for a job gives. -/
inductive Taking where
  /-- No job will come any more. -/
  | ended
  | job (j : Job)
  /-- No job now; it is worth asking again at the deadline. -/
  | wait (deadline : Time)

namespace JobQueue

/-- The delay of a queue. -/
def delay (q : JobQueue) : Time := q.settings.delaySecs * 1000

/-- Adds a job, unless the queue is closed. -/
def add? (q : JobQueue) (now : Time) (j : Job) : Option JobQueue :=
  if q.closed then none
  else if q.delay = 0 then some { q with waiting := q.waiting ++ [j] }
  else some { q with delayed := q.delayed ++ [(now + q.delay, j)] }

/-- Moves the delayed jobs whose time has come to the end of the waiting ones. -/
def promote (q : JobQueue) (now : Time) : JobQueue :=
  let inOrder := q.delayed.mergeSort fun a b => a.1 ≤ b.1
  let due := inOrder.takeWhile fun d => d.1 ≤ now
  { q with
    waiting := q.waiting ++ due.map Prod.snd
    delayed := inOrder.dropWhile fun d => d.1 ≤ now }

/-- How long to wait for a job if none is delayed: an hour. -/
def longestWait : Time := 3600 * 1000

/-- The time at which the first delayed job can be taken. -/
def deadline (q : JobQueue) (now : Time) : Time :=
  match q.delayed with
  | (ready, _) :: _ => ready
  | [] => now + longestWait

/-- Asks for a job. -/
def next (q : JobQueue) (now : Time) (cancelled : Bool) : JobQueue × Taking :=
  if cancelled || q.closed then (q, .ended)
  else
    let q := q.promote now
    match q.waiting with
    | j :: rest =>
      if q.paused then (q, .wait (q.deadline now))
      else ({ q with
        waiting := rest
        active := if j.id ∈ q.active then q.active else q.active ++ [j.id] }, .job j)
    | [] => (q, .wait (q.deadline now))

/-- Ends a job. -/
def complete (q : JobQueue) (now : Time) (j : Job) : JobQueue :=
  { q with active := q.active.filter (· ≠ j.id), finished := q.finished ++ [(now, j)] }

/-- Gives up a job that went to another queue. -/
def release (q : JobQueue) (id : JobId) : JobQueue :=
  { q with active := q.active.filter (· ≠ id) }

/-- Stops handing out jobs. -/
def pause (q : JobQueue) : JobQueue := { q with paused := true }

/-- Goes on handing out jobs. -/
def resume (q : JobQueue) : JobQueue := { q with paused := false }

/-- Ends the service of the queue. -/
def close (q : JobQueue) : JobQueue := { q with closed := true }

/-- The queue without its waiting jobs, and with `force` also without its delayed ones;
gives the jobs removed. -/
def drain (q : JobQueue) (force : Bool) : JobQueue × List JobId :=
  ({ q with waiting := [], delayed := if force then [] else q.delayed },
    q.waiting.map Job.id ++ if force then q.delayed.map fun d => d.2.id else [])

/-- A list without the first elements that satisfy `p`, at most `limit` of them. -/
def dropFirst {α : Type} (p : α → Bool) : Option Nat → List α → List α
  | _, [] => []
  | limit, a :: rest =>
    if limit ≠ some 0 && p a then dropFirst p (limit.map (· - 1)) rest
    else a :: dropFirst p limit rest

/-- Forgets finished jobs of a sort that ended at least `grace` ago, at most `limit` of
them; a limit of zero is none.  Gives their number. -/
def clean (q : JobQueue) (now grace : Time) (limit : Nat) (status : CleanStatus) :
    JobQueue × Nat :=
  let kept := dropFirst (fun d => grace ≤ now - d.1 && status.covers d.2.status)
    (if limit = 0 then none else some limit) q.finished
  ({ q with finished := kept }, q.finished.length - kept.length)

/-- How many jobs the queue holds; ended jobs that did not succeed count as failed. -/
def counts (q : JobQueue) : QueueCounts :=
  let completed := (q.finished.filter fun d => CleanStatus.completed.covers d.2.status).length
  { waiting := q.waiting.length
    delayed := q.delayed.length
    active := q.active.length
    completed
    failed := q.finished.length - completed
    paused := q.paused }

/-- Nothing is waiting, delayed or active. -/
def isIdle (q : JobQueue) : Bool :=
  q.waiting.isEmpty && q.delayed.isEmpty && q.active.isEmpty

end JobQueue

/-! ## The three queues -/

/-- **The queues for ordinary runs, for healing and for security.** -/
structure QueueSet where
  run : JobQueue
  healing : JobQueue
  security : JobQueue

namespace QueueSet

/-- Empty queues. -/
def ofSettings (s : QueuesSettings) : QueueSet where
  run := { name := .run, settings := s.run }
  healing := { name := .healing, settings := s.healing }
  security := { name := .security, settings := s.security }

/-- The queue with a name. -/
def get (s : QueueSet) : QueueName → JobQueue
  | .run => s.run
  | .healing => s.healing
  | .security => s.security

/-- Replaces the queue with a name. -/
def set (s : QueueSet) (n : QueueName) (q : JobQueue) : QueueSet :=
  match n with
  | .run => { s with run := q }
  | .healing => { s with healing := q }
  | .security => { s with security := q }

/-- Changes the queue with a name. -/
def modify (s : QueueSet) (n : QueueName) (f : JobQueue → JobQueue) : QueueSet :=
  s.set n (f (s.get n))

/-- All queues are idle. -/
def allIdle (s : QueueSet) : Bool := QueueName.all.all fun n => (s.get n).isIdle

/-- A queue that stands still: paused, without waiting and delayed jobs, and with
nothing finished.  Gives the jobs dropped. -/
def haltOne (q : JobQueue) (now : Time) : JobQueue × List JobId :=
  let (q, dropped) := q.pause.drain true
  ((((q.clean now 0 0 .completed).1).clean now 0 0 .failed).1, dropped)

/-- **Brings all queues to a standstill.**  Gives the jobs dropped, queue by queue. -/
def halt (s : QueueSet) (now : Time) : QueueSet × List JobId :=
  let (run, a) := haltOne s.run now
  let (healing, b) := haltOne s.healing now
  let (security, c) := haltOne s.security now
  ({ run, healing, security }, a ++ b ++ c)

end QueueSet

end Testplan
