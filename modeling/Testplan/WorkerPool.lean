import Testplan.Orchestrator
/-!
# Workers

Every queue has **workers**.  A worker asks its queue for a job, waits if there is none,
makes an attempt at the job it gets, and asks again, until it is told that no job will
come any more.  A monitor looks every 50 milliseconds whether all queues are idle, and
then stops the workers; somebody else may stop them earlier.  A stopped worker still
finishes its attempt.  A worker whose attempt breaks off does nothing more: its queue
remains active with a job that nobody works at.

A `WorkerPool` runs in **turns** (`WorkerPool.turn?`).  A turn is one action of one
worker, an answer to workers that wait, or, when nothing can be done now, a move of the
clock to the next moment at which something can.  A run is over when all workers have
left; a run in which nothing will ever happen again is over too.
-/
namespace Testplan

/-- What a worker does. -/
inductive Activity where
  | waiting
  /-- An attempt at a job; the rest of its course goes on at a point in time. -/
  | busy (job : Job) (rest : List RunnerStep) (verdict : Verdict) (due : Time)
  | stopped
  /-- The attempt at a job broke off. -/
  | stranded (job : Job)

/-- A worker that does this does nothing more. -/
def Activity.hasLeft : Activity → Bool
  | stopped | stranded _ => true
  | waiting | busy .. => false

/-- A worker of a queue. -/
structure Worker where
  queue : QueueName
  activity : Activity := .waiting

namespace Worker

/-- The point in time at which a busy worker goes on. -/
def due? (w : Worker) : Option Time :=
  match w.activity with
  | .busy _ _ _ due => some due
  | .waiting | .stopped | .stranded _ => none

/-- The worker can go on now. -/
def isDue (now : Time) (w : Worker) : Bool := w.due?.any fun due => due ≤ now

end Worker

/-- **The workers of an orchestrator at work.** -/
structure WorkerPool where
  orchestrator : Orchestrator
  workers : List Worker
  /-- The time at which the work began. -/
  beginning : Time
  /-- The time at which somebody stops the workers. -/
  interruption : Option Time
  /-- Somebody has stopped the workers. -/
  interrupted : Bool := false

namespace WorkerPool

/-- The time. -/
def now (p : WorkerPool) : Time := p.orchestrator.hall.now

/-- The workers have been told to stop. -/
def isStopping (p : WorkerPool) : Bool :=
  p.orchestrator.hall.token ∈ p.orchestrator.hall.cancelled

/-- Gives a worker something else to do. -/
def assign (p : WorkerPool) (index : Nat) (queue : QueueName) (a : Activity) : WorkerPool :=
  { p with workers := p.workers.set index { queue, activity := a } }

/-- A worker learns whether there is a job: it starts the attempt, or stops. -/
def answer (p : WorkerPool) (index : Nat) (queue : QueueName) : Option Job → WorkerPool
  | none => p.assign index queue .stopped
  | some j =>
    let (o, j) := p.orchestrator.start j
    let course := o.course j
    let o := { o with host := { o.host with files := course.files } }
    { p with orchestrator := o }.assign index queue
      (.busy j course.steps course.verdict o.hall.now)

/-- A worker asks its queue for a job. -/
def ask (p : WorkerPool) (index : Nat) (queue : QueueName) : WorkerPool :=
  let hall := p.orchestrator.hall
  let (hall, outcome) := hall.attend index queue hall.token
  let p := { p with orchestrator := { p.orchestrator with hall } }
  match outcome with
  | none => p.assign index queue .waiting
  | some job => p.answer index queue job

/-- Stops the workers. -/
def stop (p : WorkerPool) : WorkerPool :=
  { p with orchestrator := { p.orchestrator with hall := p.orchestrator.hall.cancel } }

/-! ## Turns -/

/-- The next action of a busy worker. -/
def act (p : WorkerPool) (index : Nat) (w : Worker) : WorkerPool :=
  match w.activity with
  | .waiting | .stopped | .stranded _ => p
  | .busy j [] verdict _ =>
    let finished := { p with orchestrator := p.orchestrator.finish w.queue j verdict }
    if p.orchestrator.strands j verdict then
      finished.assign index w.queue (.stranded (Orchestrator.judged j verdict))
    else finished.ask index w.queue
  | .busy j (.line s :: rest) verdict due =>
    let (o, j) := p.orchestrator.log j s
    { p with orchestrator := o }.assign index w.queue (.busy j rest verdict due)
  | .busy j (.pause ms :: rest) verdict due =>
    p.assign index w.queue (.busy j rest verdict (due + ms))

/-- Answers all workers that wait and can ask again. -/
def serve (p : WorkerPool) : WorkerPool :=
  let (hall, outcomes) := p.orchestrator.hall.settle
  outcomes.foldl (fun p (index, job) =>
      match p.workers[index]? with
      | some w => p.answer index w.queue job
      | none => p)
    { p with orchestrator := { p.orchestrator with hall } }

/-- How often the monitor looks. -/
def monitorPeriod : Time := 50

/-- The next time at which the monitor looks. -/
def nextLook (p : WorkerPool) : Time :=
  p.beginning + ((p.now - p.beginning) / monitorPeriod + 1) * monitorPeriod

/-- The points in time at which something can happen. -/
def moments (p : WorkerPool) : List Time :=
  p.workers.filterMap Worker.due? ++
    (QueueName.all.flatMap fun n => (p.orchestrator.hall.queues.get n).delayed.map Prod.fst) ++
    if p.isStopping then []
    else p.interruption.toList ++
      if p.orchestrator.hall.queues.allIdle then [p.nextLook] else []

/-- The next moment at which something can happen. -/
def nextMoment? (p : WorkerPool) : Option Time := (p.moments.filter (p.now < ·)).min?

/-- Moves the clock.  The workers are stopped if their time has come, or if the monitor
looks and all queues are idle. -/
def advanceTo (p : WorkerPool) (t : Time) : WorkerPool :=
  let looks := t = p.nextLook && p.orchestrator.hall.queues.allIdle
  let p := { p with orchestrator := { p.orchestrator with
    hall := p.orchestrator.hall.advance (t - p.now) } }
  if p.isStopping then p
  else if p.interruption.any (· ≤ t) then { p.stop with interrupted := true }
  else if looks then p.stop
  else p

/-- **A turn**; nothing if the run is over. -/
def turn? (p : WorkerPool) : Option WorkerPool :=
  let hall := p.orchestrator.hall
  match p.workers.zipIdx.find? fun (w, _) => w.isDue p.now with
  | some (w, index) => some (p.act index w)
  | none =>
    if hall.parked.any hall.isRunnable then some p.serve
    else if p.workers.all fun w => w.activity.hasLeft then none
    else p.nextMoment?.map p.advanceTo

/-- Runs until the run is over, for a number of turns at most. -/
def run : Nat → WorkerPool → WorkerPool
  | 0, p => p
  | limit + 1, p =>
    match p.turn? with
    | some p => run limit p
    | none => p

end WorkerPool

namespace Orchestrator

/-- The workers of all queues, queue by queue.  If there are more workers of a queue than
jobs, one is left to wait; further ones would wait beside it. -/
def crew (o : Orchestrator) : List Worker :=
  QueueName.all.flatMap fun n =>
    List.replicate (min (o.hall.queues.get n).settings.workers (o.board.toList.length + 1))
      { queue := n }

/-- The workers begin to ask for jobs.  The monitor looks for the first time when all have
asked. -/
def workers (o : Orchestrator) (interruption : Option Time) : WorkerPool :=
  let o := { o with hall := o.hall.renew }
  let p : WorkerPool := {
    orchestrator := o, workers := o.crew, beginning := o.hall.now
    interruption := interruption.map (o.hall.now + ·) }
  let p := if interruption = some 0 then { p.stop with interrupted := true } else p
  let p := o.crew.zipIdx.foldl (fun p (w, index) => p.ask index w.queue) p
  if p.orchestrator.hall.queues.allIdle then p.stop else p

/-- **Runs all jobs until all queues are idle**, for a number of turns at most.  After an
interruption, the queues come to a standstill. -/
def runUntilIdle (o : Orchestrator) (turns : Nat) (interruption : Option Time) :
    Orchestrator :=
  let p := (o.workers interruption).run turns
  let o := { p.orchestrator with hall := { p.orchestrator.hall with parked := [] } }
  if p.interrupted then o.halt.1 else o

end Orchestrator

/-- More turns than any run takes that is not meant to go on without end. -/
def turnLimit : Nat := 10000000

end Testplan
