import Testplan.Discovery
import Testplan.Environment
import Testplan.Failure
import Testplan.Plan
import Testplan.Roster
/-!
# Jobs

A **job** runs one plan with one framework.  It is created, queued, running, and then
succeeded or failed; `Job.transition` makes only these steps.  One way leads back: a
job that failed at its first attempt because a locator found no element may be queued
once more, in the queue for healing and with a corrected plan
(`Job.requeueForHealing`).

A job keeps the last lines of its log, up to a fixed number (`LogTail`).  The **board** shows
the latest recorded state of every job, in the order in which the jobs were first recorded.
-/
namespace Testplan

/-- The identity of a job; it stays the same through healing. -/
structure JobId where
  uuid : Uuid
deriving DecidableEq, Inhabited

/-- The three queues. -/
inductive QueueName where
  | run
  | healing
  | security
deriving DecidableEq, Repr, Inhabited

namespace QueueName

/-- The queues in their order. -/
def all : List QueueName := [run, healing, security]

/-- The name of a queue in reports. -/
def name : QueueName → String
  | run => "test-runs"
  | healing => "self-heal"
  | security => "security-scan"

/-- The queue with a name. -/
def ofName? (s : String) : Option QueueName := all.find? fun q => q.name = s

end QueueName

/-- Where a job stands. -/
inductive JobStatus where
  | created
  | queued
  | running
  | succeeded
  | failed (failure : JobFailure)
deriving DecidableEq, Repr

namespace JobStatus

/-- The job has ended. -/
def isTerminal : JobStatus → Bool
  | succeeded | failed _ => true
  | created | queued | running => false

/-- The job has failed. -/
def isFailure : JobStatus → Bool
  | failed _ => true
  | created | queued | running | succeeded => false

/-- The name of a status in reports. -/
def label : JobStatus → String
  | created => "created"
  | queued => "queued"
  | running => "running"
  | succeeded => "succeeded"
  | failed _ => "failed"

/-- The steps in the life of a job. -/
def canBecome : JobStatus → JobStatus → Bool
  | created, queued => true
  | queued, running => true
  | running, succeeded => true
  | running, failed _ => true
  | failed _, queued => true
  | _, _ => false

end JobStatus

/-! ## The tail of a log -/

/-- **The last lines of a log.** -/
structure LogTail where
  capacity : Nat
  lines : List String
  length_le : lines.length ≤ capacity
deriving DecidableEq

namespace LogTail

/-- No lines yet. -/
def empty (capacity : Nat) : LogTail := ⟨capacity, [], Nat.zero_le _⟩

instance : Inhabited LogTail := ⟨empty 0⟩

/-- Adds a line; the oldest gives way if there is no room. -/
def push (t : LogTail) (line : String) : LogTail where
  capacity := t.capacity
  lines := (t.lines ++ [line]).drop (t.lines.length + 1 - t.capacity)
  length_le := by
    have := t.length_le
    simp only [List.length_drop, List.length_append, List.length_cons, List.length_nil]
    omega

/-- Nothing is kept. -/
def isEmpty (t : LogTail) : Bool := t.lines.isEmpty

end LogTail

/-! ## Jobs -/

/-- **A job.** -/
structure Job where
  id : JobId
  plan : PlanRef
  framework : String
  queue : QueueName
  status : JobStatus := .created
  attempt : Nat := 0
  environment : Environment := {}
  /-- What is known about the application; without it nothing can be healed. -/
  discovery : Option Discovery := none
  logTail : LogTail := .empty 0
deriving DecidableEq

namespace Job

/-- Gives the job a new status if that is a step it can take. -/
def transition? (j : Job) (next : JobStatus) : Option Job :=
  if j.status.canBecome next then some { j with status := next } else none

/-- The failure of a job that has failed. -/
def failure? (j : Job) : Option JobFailure :=
  match j.status with
  | .failed f => some f
  | _ => none

/-- The job may be queued for healing: its first attempt failed for want of an element,
and not in the queue for healing. -/
def isHealable (j : Job) : Bool :=
  (j.failure?.any fun f => f.kind.isHealable) && j.attempt = 0 && j.queue ≠ .healing

/-- Queues the job for healing with a corrected plan. -/
def requeueForHealing? (j : Job) (plan : PlanRef) : Option Job :=
  if j.isHealable then
    (j.transition? .queued).map fun j =>
      { j with plan, queue := .healing, attempt := j.attempt + 1 }
  else none

end Job

/-! ## The board -/

/-- **The board.** -/
structure JobBoard where
  jobs : Roster JobId Job

namespace JobBoard

/-- No jobs. -/
def empty : JobBoard := ⟨.empty⟩

instance : Inhabited JobBoard := ⟨empty⟩

/-- Records the state of a job. -/
def record (b : JobBoard) (j : Job) : JobBoard := ⟨b.jobs.insert j.id j⟩

/-- Takes a job off the board. -/
def remove (b : JobBoard) (id : JobId) : JobBoard := ⟨b.jobs.erase id⟩

/-- The recorded state of a job. -/
def get? (b : JobBoard) (id : JobId) : Option Job := b.jobs.get? id

/-- All jobs, in the order in which they were first recorded. -/
def toList (b : JobBoard) : List Job := b.jobs.values

end JobBoard

end Testplan
