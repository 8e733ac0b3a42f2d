import Testplan.Orchestrator
import Testplan.PlanDocument
/-!
# Jobs as documents

How the states of jobs and queues, and what happens to them, are written as documents.
A status is written as its name, a failure as its parts.
-/
namespace Testplan

open Document

/-- An exit code: a whole number of 32 bits with a sign. -/
def asExitCode? : Document → Option Int
  | .int n => if -0x80000000 ≤ n ∧ n < 0x80000000 then some n else none
  | _ => none

/-- Something, or nothing. -/
def orNull {α : Type} (write : α → Document) : Option α → Document
  | some a => write a
  | none => .null

def JobFailure.toDocument (f : JobFailure) : Document :=
  .map <| always "kind" (.text f.kind.name) ++ always "message" (.text f.message) ++
    always "exit_code" (orNull .int f.exitCode)

def JobFailure.ofDocument? (d : Document) : Option JobFailure := do
  let ms ← d.members?
  return {
    kind := ← required? ms "kind" (asName? FailureKind.ofName?)
    message := ← optionalOr? ms "message" asText? ""
    exitCode := ← optional? ms "exit_code" asExitCode? }

def JobStatus.toDocument : JobStatus → Document
  | .failed f => f.toDocument
  | s => .text s.label

/-- The statuses that have no parts. -/
def JobStatus.plain : List JobStatus := [.created, .queued, .running, .succeeded]

def JobStatus.ofDocument? : Document → Option JobStatus
  | .text s => plain.find? fun t => t.label = s
  | d => (JobFailure.ofDocument? d).map .failed

def JobEvent.toDocument : JobEvent → Document
  | .queued q n => .list [.text "queued", .text q.name, natural n]
  | .started q n => .list [.text "started", .text q.name, natural n]
  | .log line => texts ["log", line]
  | .healing p changes =>
    .list [.text "healing", .text p.render, texts (changes.map HealedStep.message)]
  | .finished q s => .list [.text "finished", .text q.name, s.toDocument]

/-- The counts of a queue, and whether it is idle. -/
def JobQueue.countsDocument (q : JobQueue) : Document :=
  let c := q.counts
  .map <| always "waiting" (natural c.waiting) ++ always "delayed" (natural c.delayed) ++
    always "active" (natural c.active) ++ always "completed" (natural c.completed) ++
    always "failed" (natural c.failed) ++ always "paused" (.bool c.paused) ++
    always "idle" (.bool q.isIdle)

/-- The counts of all queues, and whether all are idle. -/
def QueueSet.countsDocument (s : QueueSet) : Document :=
  .map <| (QueueName.all.map fun n => (n.name, (s.get n).countsDocument)) ++
    always "all_idle" (.bool s.allIdle)

end Testplan
