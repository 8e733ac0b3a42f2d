import Testplan.Runner
import Testplan.Configuration
import Testplan.Diagnosis
import Testplan.Job
/-!
# Attempts

An **attempt** runs the tests of a plan once.  The plan is rendered and written into a
directory of the attempt, and the runner of the adapter runs what was written.  Before
anything runs, the log says which scenarios were left out.

`Adapter.course` gives the whole course of an attempt: what is logged, how long it takes,
and its **verdict**.  The tests have the same time for their preparation and their run
together; a run that takes longer is cut off (`withinTime`).

An exit code other than zero says only that the tests failed.  What failed is read off the
tail of the log, as the attempt left it (`Verdict.status`).
-/
namespace Testplan

/-- How an attempt ended. -/
inductive Verdict where
  | passed
  | failed (failure : JobFailure)
  /-- The tests ran and ended with a code other than zero. -/
  | exited (code : Int)
deriving DecidableEq, Repr

/-- **The course of an attempt.** -/
structure Course where
  steps : List RunnerStep
  verdict : Verdict
  /-- The files afterwards. -/
  files : FileTree

/-! ## Verdicts -/

/-- The failure that an exit code and the log amount to: the kind comes from the log, and
so does the message if a line of the log shows the cause. -/
def failureOf (code : Int) (tail : LogTail) : JobFailure :=
  let d := diagnose tail.lines
  { kind := d.kind
    message := (d.evidence.map Text.strip).getD ("종료 코드 " ++ toString code)
    exitCode := some code }

/-- The status of a job after an attempt. -/
def Verdict.status (tail : LogTail) : Verdict → JobStatus
  | .passed => .succeeded
  | .failed f => .failed f
  | .exited code => .failed (failureOf code tail)

/-! ## Time -/

/-- The steps that fit into a time, and whether all of them do.  A step that ends just
when the time is up still fits. -/
def withinTime (limit : Time) : List RunnerStep → List RunnerStep × Bool
  | [] => ([], true)
  | .line s :: rest =>
    let (steps, inTime) := withinTime limit rest
    (.line s :: steps, inTime)
  | .pause ms :: rest =>
    if limit < ms then ([.pause limit], false)
    else
      let (steps, inTime) := withinTime (limit - ms) rest
      (.pause ms :: steps, inTime)

/-- The failure of a run that took too long. -/
def timeoutFailure (secs : Nat) : JobFailure where
  kind := .timeout
  message := "작업 타임아웃 " ++ toString secs ++ "초 초과"

/-! ## The course of an attempt -/

/-- The failure of an adapter that cannot generate code. -/
def unsupportedFailure (adapter : String) : JobFailure where
  kind := .unsupported
  message := adapter ++ " 어댑터는 아직 코드 생성을 지원하지 않습니다"

/-- The failure of a plan all of whose scenarios were left out. -/
def nothingRendered (leftOut : Nat) : JobFailure where
  kind := .unknown
  message := "렌더링된 시나리오가 없습니다 (" ++ toString leftOut ++ "개 제외)"

/-- The line of the log about a scenario that was left out. -/
def exclusionLine (f : RenderFailure) : String := "렌더링 제외: " ++ f.message

/-- A course that ends before anything runs. -/
def Course.ended (h : Host) (verdict : Verdict) : Course :=
  { steps := [], verdict, files := h.files }

/-- The course of the run of a project that was written. -/
def Runner.course (r : Runner) (limitSecs : Nat) (h : Host) (directory : String)
    (env : Variables) : Course :=
  let stage := r.stages h directory env
  let (steps, inTime) := withinTime (limitSecs * 1000) stage.steps
  { steps
    files := stage.files
    verdict :=
      if !inTime then .failed (timeoutFailure limitSecs)
      else match stage.outcome with
        | .error e => .failed { kind := e.kind, message := e.message }
        | .ok 0 => .passed
        | .ok code => .exited code }

/-- **The course of an attempt** at a plan, in a directory of a host. -/
def Adapter.course (a : Adapter) (limitSecs : Nat) (h : Host) (p : Plan) (e : Environment)
    (directory : String) : Course :=
  let r := a.render p
  if r.status = .notImplemented then .ended h (.failed (unsupportedFailure a.id))
  else
    let notes := r.failures.map fun f => RunnerStep.line (exclusionLine f)
    let course : Course :=
      if r.manifest.count = 0 then
        .ended h (if r.failures.isEmpty then .passed
          else .failed (nothingRendered r.failures.length))
      else match h.files.writeProject h.cwd directory r.files r.manifest with
        | (files, some error) =>
          .ended { h with files }
            (.failed { kind := .processStart, message := error.report })
        | (files, none) =>
          a.runner.course limitSecs { h with files } directory (e.runnerVariables p.baseUrl)
    { course with steps := notes ++ course.steps }

/-! ## Directories of attempts -/

/-- The directory of a job. -/
def Configuration.jobDirectory (c : Configuration) (id : JobId) : String :=
  Path.join c.workRoot id.uuid.render

/-- The directory of an attempt. -/
def Configuration.attemptDirectory (c : Configuration) (id : JobId) (attempt : Nat) : String :=
  Path.join (c.jobDirectory id) ("attempt-" ++ toString attempt)

/-- The files without the directory of an attempt, and without the directory of its job if
that is empty then. -/
def FileTree.withoutAttempt (t : FileTree) (cwd : Place) (c : Configuration) (id : JobId)
    (attempt : Nat) : FileTree :=
  let t := match t.locate? cwd (c.attemptDirectory id attempt) with
    | some place => t.removeAll place
    | none => t
  match t.locate? cwd (c.jobDirectory id) with
  | some place => t.removeIfEmpty place
  | none => t

end Testplan
