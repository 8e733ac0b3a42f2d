import Testplan.JobQueue
/-!
# Waiting for jobs

Who asks a queue for a job and gets none may wait.  A **waiter** is parked with the
deadline that the queue gave, and asks again when the queue has news (`add?`, `resume`,
`close`), when its deadline has come, or when it is cancelled: it holds a token, and a
cancelled token ends every wait that holds it.

`QueueHall.settle` lets all waiters that can ask again do so, in the order in which they
were parked; who gets nothing is parked again, behind the others.
-/
namespace Testplan

/-- Somebody who waits for a job. -/
structure Waiter where
  who : Nat
  queue : QueueName
  token : Nat
  deadline : Time
  /-- The queue has had news since. -/
  signalled : Bool := false
deriving DecidableEq, Repr

/-- **The queues with those who wait at them**, in the order in which they were parked. -/
structure QueueHall where
  queues : QueueSet
  now : Time := 0
  parked : List Waiter := []
  /-- The token that is in use. -/
  token : Nat := 0
  cancelled : List Nat := []

namespace QueueHall

/-- Empty queues at time zero. -/
def ofSettings (s : QueuesSettings) : QueueHall := { queues := .ofSettings s }

/-- Changes a queue without news for those who wait. -/
def modify (h : QueueHall) (n : QueueName) (f : JobQueue → JobQueue) : QueueHall :=
  { h with queues := h.queues.modify n f }

/-- Signals news to all who wait at a queue. -/
def signal (h : QueueHall) (n : QueueName) : QueueHall :=
  { h with parked := h.parked.map fun w => if w.queue = n then { w with signalled := true } else w }

/-- Adds a job to a queue, unless it is closed. -/
def add? (h : QueueHall) (n : QueueName) (j : Job) : Option QueueHall :=
  ((h.queues.get n).add? h.now j).map fun q => { h with queues := h.queues.set n q }.signal n

/-- Lets a queue go on handing out jobs. -/
def resume (h : QueueHall) (n : QueueName) : QueueHall := (h.modify n JobQueue.resume).signal n

/-- Closes a queue. -/
def close (h : QueueHall) (n : QueueName) : QueueHall := (h.modify n JobQueue.close).signal n

/-- Cancels the token in use. -/
def cancel (h : QueueHall) : QueueHall := { h with cancelled := h.token :: h.cancelled }

/-- Takes a new token into use. -/
def renew (h : QueueHall) : QueueHall := { h with token := h.token + 1 }

/-- Asks a queue for a job, once. -/
def ask (h : QueueHall) (n : QueueName) (token : Nat) : QueueHall × Taking :=
  let (q, taking) := (h.queues.get n).next h.now (token ∈ h.cancelled)
  ({ h with queues := h.queues.set n q }, taking)

/-- The waiter can ask again. -/
def isRunnable (h : QueueHall) (w : Waiter) : Bool :=
  w.signalled || w.deadline ≤ h.now || w.token ∈ h.cancelled

/-- Asks for a job and waits if there is none.  Gives the outcome if the wait is over:
a job, or nothing if none will come any more. -/
def attend (h : QueueHall) (who : Nat) (n : QueueName) (token : Nat) :
    QueueHall × Option (Option Job) :=
  match h.ask n token with
  | (h, .ended) => (h, some none)
  | (h, .job j) => (h, some (some j))
  | (h, .wait deadline) =>
    ({ h with parked := h.parked ++ [{ who, queue := n, token, deadline }] }, none)

/-- Lets waiters ask again, one after the other. -/
def attendAll (h : QueueHall) : List Waiter → QueueHall × List (Nat × Option Job)
  | [] => (h, [])
  | w :: rest =>
    let (h, outcome) := h.attend w.who w.queue w.token
    let (h, outcomes) := h.attendAll rest
    (h, (outcome.map fun o => (w.who, o)).toList ++ outcomes)

/-- **Lets all who can ask again do so.**  Gives the waits that ended. -/
def settle (h : QueueHall) : QueueHall × List (Nat × Option Job) :=
  let (ready, others) := h.parked.partition h.isRunnable
  { h with parked := others }.attendAll ready

/-- Moves the clock forward. -/
def advance (h : QueueHall) (ms : Time) : QueueHall := { h with now := h.now + ms }

/-- Brings all queues to a standstill. -/
def halt (h : QueueHall) : QueueHall × List JobId :=
  let (queues, dropped) := h.queues.halt h.now
  ({ h with queues }, dropped)

end QueueHall

end Testplan
