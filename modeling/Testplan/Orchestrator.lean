import Testplan.Attempt
import Testplan.Healing
import Testplan.Waiting
/-!
# The orchestrator

An `Orchestrator` takes plans and brings the jobs that run them through the queues.  A
**submission** becomes one job, or two if its plan has both ordinary and security
scenarios (`submit`).  An attempt at a job is **begun**, **logs** lines, and is
**finished** with a verdict; then the job has ended, or it was handed to the queue for
healing with a corrected plan (`finish`).  If there is no version for the corrected plan,
the job is **stranded**: whoever makes the attempt breaks off, and nobody learns of it.

Each of these operations is one step that nothing else interrupts.  They may follow each
other in any order that the queues allow; everything else about a run, its order and its
time, is not said here.
-/
namespace Testplan

/-- What happens to a job. -/
inductive JobEvent where
  | queued (queue : QueueName) (attempt : Nat)
  | started (queue : QueueName) (attempt : Nat)
  | log (line : String)
  /-- The plan was corrected by the changes. -/
  | healing (plan : PlanRef) (changes : List HealedStep)
  | finished (queue : QueueName) (status : JobStatus)
deriving DecidableEq

/-- A source of identifiers, each of which is drawn once. -/
structure IdSource where
  name : Nat → Uuid
  drawn : Nat := 0

/-- Draws the next identifier. -/
def IdSource.draw (s : IdSource) : Uuid × IdSource :=
  (s.name s.drawn, { s with drawn := s.drawn + 1 })

/-- A request to run a plan with a framework. -/
structure Submission where
  plan : Plan
  framework : String
  /-- The environment, with its placeholders. -/
  environment : Environment := {}
  discovery : Option Discovery := none

/-- **The state of a run of plans.** -/
structure Orchestrator where
  config : Configuration
  adapters : AdapterRegistry
  host : Host
  ids : IdSource
  hall : QueueHall
  plans : PlanStore := .empty
  board : JobBoard := .empty
  /-- What happened to the jobs so far, in its order. -/
  events : List (JobId × JobEvent) := []

namespace Orchestrator

/-- An orchestrator to which nothing was submitted. -/
def ofConfiguration (config : Configuration) (adapters : AdapterRegistry) (host : Host)
    (ids : IdSource) : Orchestrator :=
  { config, adapters, host, ids, hall := .ofSettings config.queues }

/-- Reports what happens to a job. -/
def report (o : Orchestrator) (id : JobId) (e : JobEvent) : Orchestrator :=
  { o with events := o.events ++ [(id, e)] }

/-- Shows the state of a job on the board. -/
def record (o : Orchestrator) (j : Job) : Orchestrator :=
  { o with board := o.board.record j }

/-! ## Submissions -/

/-- Stores a part of a submitted plan and queues a job for it. -/
def enqueue (o : Orchestrator) (s : Submission) (environment : Environment)
    (queue : QueueName) (part : Plan) : Orchestrator × Except SubmitError JobId :=
  let (uuid, ids) := o.ids.draw
  let j : Job := {
    id := ⟨uuid⟩, plan := part.ref, framework := s.framework, queue, status := .queued,
    environment, discovery := s.discovery }
  let o := { o with plans := o.plans.insert part, ids }
  match o.hall.add? queue j with
  | none => (o, .error (.queueClosed queue))
  | some hall => (({ o with hall }.record j).report j.id (.queued queue j.attempt), .ok j.id)

/-- Queues jobs for the parts of a plan, one after the other, up to the first that its
queue does not take. -/
def enqueueAll (o : Orchestrator) (s : Submission) (environment : Environment) :
    List (QueueName × Plan) → Orchestrator × Except SubmitError (List JobId)
  | [] => (o, .ok [])
  | (queue, part) :: rest =>
    match o.enqueue s environment queue part with
    | (o, .error e) => (o, .error e)
    | (o, .ok id) =>
      let (o, outcome) := o.enqueueAll s environment rest
      (o, outcome.map (id :: ·))

/-- The parts of a plan with their queues, with freshly drawn identifiers. -/
def partsOf (o : Orchestrator) (p : Plan) : Orchestrator × List (QueueName × Plan) :=
  let (first, ids) := o.ids.draw
  let (second, ids) := ids.draw
  let (ordinary, security) := p.splitSecurity first second
  ({ o with ids },
    (ordinary.map fun part => (.run, part)).toList ++
      (security.map fun part => (.security, part)).toList)

/-- **Submits a plan.**  Gives the jobs that run its parts.  An unknown framework or a
missing value of the environment is refused before anything is queued. -/
def submit (o : Orchestrator) (s : Submission) :
    Orchestrator × Except SubmitError (List JobId) :=
  match o.adapters.find s.framework, s.environment.resolve o.host.process with
  | .error e, _ => (o, .error (.config e))
  | .ok _, .error e => (o, .error (.config e))
  | .ok _, .ok environment =>
    let (o, parts) := o.partsOf s.plan
    o.enqueueAll s environment parts

/-! ## Attempts -/

/-- **Begins an attempt** at a job. -/
def start (o : Orchestrator) (j : Job) : Orchestrator × Job :=
  let j := { (j.transition? .running).getD j with logTail := .empty o.config.logTailLines }
  ((o.record j).report j.id (.started j.queue j.attempt), j)

/-- **Logs a line** of an attempt. -/
def log (o : Orchestrator) (j : Job) (line : String) : Orchestrator × Job :=
  (o.report j.id (.log line), { j with logTail := j.logTail.push line })

/-- The course of the attempt at a job. -/
def course (o : Orchestrator) (j : Job) : Course :=
  match o.plans.get? j.plan, o.adapters.find j.framework with
  | none, _ =>
    .ended o.host (.failed {
      kind := .unknown, message := "플랜 " ++ j.plan.render ++ "을 찾을 수 없습니다" })
  | some _, .error e =>
    .ended o.host (.failed { kind := .unsupported, message := e.message })
  | some p, .ok adapter =>
    adapter.course o.config.jobTimeoutSecs o.host p j.environment
      (o.config.attemptDirectory j.id j.attempt)

/-! ## The end of an attempt -/

/-- The job whose attempt ended with a verdict. -/
def judged (j : Job) (v : Verdict) : Job := (j.transition? (v.status j.logTail)).getD j

/-- The orchestrator without the files of an attempt on its host, unless they are kept. -/
def tidied (o : Orchestrator) (j : Job) : Orchestrator :=
  if o.config.keepArtifacts then o else
    { o with host := { o.host with
        files := o.host.files.withoutAttempt o.host.cwd o.config j.id j.attempt } }

/-- The corrected plan for a job whose locator found no element. -/
def healedPlan (o : Orchestrator) (j : Job) : HealResult :=
  match j.discovery, o.plans.get? j.plan with
  | none, _ => .error .missingDiscovery
  | some _, none => .error .noEvidence
  | some d, some p => p.heal d ((j.failure?.map JobFailure.message).getD "")

/-- The job with a remark on its failure: it could not be healed. -/
def withRemark (j : Job) (e : HealError) : Job :=
  match j.status with
  | .failed f => { j with
      status := .failed { f with message := f.message ++ " (힐링 불가: " ++ e.message ++ ")" } }
  | _ => j

/-- Ends a job in the queue that it ran on. -/
def conclude (o : Orchestrator) (queue : QueueName) (j : Job) : Orchestrator :=
  let o := (o.record j).report j.id (.finished j.queue j.status)
  { o with hall := o.hall.modify queue fun q => q.complete o.hall.now j }

/-- Hands a job over to the queue for healing, with its corrected plan.  The queue that it
ran on gives it up only after the other has taken it; a closed queue takes nothing. -/
def handOff? (o : Orchestrator) (queue : QueueName) (j : Job) (h : HealedPlan) :
    Option Orchestrator := do
  let healed ← j.requeueForHealing? h.plan.ref
  let hall ← o.hall.add? .healing healed
  let o := { o with hall := hall.modify queue fun q => q.release j.id }
  return ((o.record healed).report j.id (.healing h.plan.ref h.changes)).report j.id
    (.queued healed.queue healed.attempt)

/-- **Finishes an attempt** at a job of a queue with a verdict.  An attempt that breaks off
leaves everything as it was, but for its files. -/
def finish (o : Orchestrator) (queue : QueueName) (j : Job) (v : Verdict) : Orchestrator :=
  let o := o.tidied j
  let j := judged j v
  if j.isHealable then
    match o.healedPlan j with
    | .error e => o.conclude queue (withRemark j e)
    | .ok h =>
      let o := { o with plans := o.plans.insert h.plan }
      (o.handOff? queue j h).getD (o.conclude queue j)
    | .overflow => o
  else o.conclude queue j

/-- An attempt at a job that ends with a verdict breaks off. -/
def strands (o : Orchestrator) (j : Job) (v : Verdict) : Bool :=
  (judged j v).isHealable && o.healedPlan (judged j v) matches .overflow

/-! ## Standstill -/

/-- **Brings all queues to a standstill.**  Jobs that never ran leave the board.  Gives
their number. -/
def halt (o : Orchestrator) : Orchestrator × Nat :=
  let (hall, dropped) := o.hall.halt
  ({ o with hall, board := dropped.foldl JobBoard.remove o.board }, dropped.length)

end Orchestrator

end Testplan
