import Testplan.Framework
import Testplan.ProcessOutput
import Testplan.ProjectWriting
/-!
# Running rendered projects

A **runner** runs the tests of a rendered project in two stages: it prepares the project,
then it runs the tests.  Each stage prints lines, takes its time, and ends with an exit
code or with an error.  An exit code other than zero is no error of the runner.

The runner of a framework starts the framework's program in the directory of the project,
and installs what the project needs before if asked to and if nothing is installed yet.
What a program does is no matter of the runner: the host brings along a `Launcher`, which
may be any function.

An **adapter** connects a framework: it renders plans and has a runner for what it
rendered.  Adapters are registered by their identifier and keep the order of their
registration; an adapter registered again is replaced.
-/
namespace Testplan

/-- **What starts programs**: from the files, the directory, the variables, the program and its
arguments it gives the run of the program and the files afterwards, and nothing if there is no
such program. -/
def Launcher : Type :=
  FileTree → Place → Variables → String → List String → Option (ProcessRun × FileTree)

/-- There are no programs. -/
def Launcher.none : Launcher := fun _ _ _ _ _ => Option.none

/-- Where programs run: a tree of files, the directory that relative paths start from,
the variables of the process, and what starts programs. -/
structure Host where
  files : FileTree := .empty
  cwd : Place := []
  process : Variables := .empty
  launcher : Launcher := .none

/-- Why tests could not be run. -/
inductive RunnerError where
  /-- There is no such directory. -/
  | workingDirectory (path : String)
  /-- The program could not be started. -/
  | spawn (program source : String)
  /-- The framework has no runner. -/
  | notImplemented (framework : String)
  /-- The preparation failed. -/
  | install (code : Int)
deriving DecidableEq, Repr

namespace RunnerError

/-- The wording of the error. -/
def message : RunnerError → String
  | workingDirectory path => "작업 디렉터리가 유효하지 않습니다: " ++ path
  | spawn program source => "프로세스 실행 실패: " ++ program ++ ": " ++ source
  | notImplemented framework => framework ++ " 러너는 아직 구현되지 않았습니다."
  | install code => "의존성 설치 실패 (종료 코드 " ++ toString code ++ ")"

/-- The kind of failure that the error is. -/
def kind : RunnerError → FailureKind
  | notImplemented _ => .unsupported
  | workingDirectory _ | spawn .. | install _ => .processStart

end RunnerError

/-- What a runner does while it runs. -/
inductive RunnerStep where
  | line (text : String)
  | pause (ms : Time)
deriving DecidableEq, Repr

/-- **A stage of a run.** -/
structure RunnerStage where
  steps : List RunnerStep
  outcome : Except RunnerError Int
  /-- The files afterwards. -/
  files : FileTree

/-- **A runner**: what it does in a directory of a host with given variables. -/
structure Runner where
  id : String
  install : Host → String → Variables → RunnerStage
  run : Host → String → Variables → RunnerStage

namespace RunnerStage

/-- A stage in which nothing happens. -/
def idle (h : Host) : RunnerStage := { steps := [], outcome := .ok 0, files := h.files }

/-- A stage that fails at once. -/
def failed (h : Host) (e : RunnerError) : RunnerStage :=
  { steps := [], outcome := .error e, files := h.files }

end RunnerStage

/-- Both stages of a run; the second is left out if the first fails. -/
def Runner.stages (r : Runner) (h : Host) (directory : String) (env : Variables) : RunnerStage :=
  let first := r.install h directory env
  match first.outcome with
  | .error _ => first
  | .ok _ =>
    let second := r.run { h with files := first.files } directory env
    { second with steps := first.steps ++ second.steps }

/-- The runner of a framework that has none. -/
def Runner.missing (framework : String) : Runner where
  id := framework
  install h _ _ := .idle h
  run h _ _ := .failed h (.notImplemented framework)

/-! ## Starting programs -/

/-- The lines and pauses of a process. -/
def stepsOf (events : List OutputEvent) : List RunnerStep :=
  events.filterMap fun
    | .line _ s => some (.line s)
    | .pause ms => some (.pause ms)
    | .exited _ => none

/-- Starts a program in a directory; `env` is laid over the variables of the process.
Starting takes a moment. -/
def Host.start (h : Host) (directory : String) (env : Variables) (program : String)
    (args : List String) : RunnerStage :=
  let environment := env.entries.foldl (fun t (k, v) => t.insert k v) h.process
  match (h.files.locate? h.cwd directory).bind fun place =>
      h.launcher h.files place environment program args with
  | none => .failed h (.spawn program SystemFault.notFound.text)
  | some (p, files) => { steps := .pause 1 :: stepsOf p.events, outcome := .ok p.code, files }

/-- A runner that starts a program. -/
structure CommandRunner where
  framework : String
  args : List String
  program : String := "npx"
  installs : Bool := false

namespace CommandRunner

/-- The directories in which the project may lie, below the directory of the run. -/
def candidates (r : CommandRunner) : List String :=
  [r.framework, Path.join "generated" r.framework, "."]

/-- The directory of the project. -/
def projectRoot (r : CommandRunner) (h : Host) (directory : String) :
    Except RunnerError String :=
  if h.files.isDirectoryPath h.cwd directory then
    .ok (h.files.artifactRoot h.cwd directory r.candidates)
  else .error (.workingDirectory directory)

/-- Installs what the project needs. -/
def installStage (r : CommandRunner) (h : Host) (directory : String) (env : Variables) :
    RunnerStage :=
  match r.projectRoot h directory with
  | .error e => .failed h e
  | .ok root =>
    if !r.installs || h.files.isDirectoryPath h.cwd (Path.join root "node_modules") then .idle h
    else
      let stage := h.start root env "npm" ["install", "--no-audit", "--no-fund"]
      match stage.outcome with
      | .ok 0 => stage
      | .ok code => { stage with outcome := .error (.install code) }
      | .error _ => stage

/-- Runs the tests. -/
def runStage (r : CommandRunner) (h : Host) (directory : String) (env : Variables) :
    RunnerStage :=
  match r.projectRoot h directory with
  | .error e => .failed h e
  | .ok root => h.start root env r.program r.args

/-- The runner. -/
def toRunner (r : CommandRunner) : Runner where
  id := r.framework
  install := r.installStage
  run := r.runStage

end CommandRunner

/-- The runner of a framework. -/
def Framework.runner (f : Framework) (s : RenderSettings) : Runner :=
  match f.runnerArgs? with
  | some args =>
    { framework := f.id, args, installs := s.installDependencies : CommandRunner }.toRunner
  | none => .missing f.id

/-! ## Adapters -/

/-- **What is connected to run plans.** -/
structure Adapter where
  id : String
  displayName : String
  render : Plan → Rendering
  runner : Runner

/-- The adapter of a framework. -/
def Framework.adapter (f : Framework) (s : RenderSettings) : Adapter where
  id := f.id
  displayName := f.displayName
  render := f.render s
  runner := f.runner s

/-- **The registered adapters.** -/
structure AdapterRegistry where
  adapters : Roster String Adapter

namespace AdapterRegistry

/-- Registers an adapter. -/
def register (r : AdapterRegistry) (a : Adapter) : AdapterRegistry :=
  ⟨r.adapters.insert a.id a⟩

/-- The registry of all frameworks. -/
def builtin (s : RenderSettings) : AdapterRegistry :=
  Framework.all.foldl (fun r f => r.register (f.adapter s)) ⟨.empty⟩

/-- The adapter with an identifier. -/
def find (r : AdapterRegistry) (id : String) : Except ConfigError Adapter :=
  match r.adapters.get? id with
  | some a => .ok a
  | none => .error (.unknownFramework id)

/-- All adapters, in the order of their registration. -/
def toList (r : AdapterRegistry) : List Adapter := r.adapters.values

end AdapterRegistry

end Testplan
