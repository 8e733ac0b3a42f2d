import Testplan.Runner
import Testplan.JobDocument
/-!
# Rehearsals

A **rehearsal** runs rendered projects without their framework.  It follows a list of
rules: the first rule that fits the files of the project says what is printed, how long
that takes, and how it ends.  A project that no rule fits is passed in silence.
-/
namespace Testplan

/-- **A rule of a rehearsal.** -/
structure RehearsalRule where
  /-- A text that some file of the project must contain. -/
  mark : String := ""
  installLines : List String := []
  installMs : Time := 0
  installCode : Int := 0
  /-- The names of the variables that are printed first. -/
  shown : List String := []
  lines : List String := []
  runMs : Time := 0
  /-- How the run ends: with an error or with an exit code. -/
  outcome : Except RunnerError Int := .ok 0

namespace RehearsalRule

open Document

/-- The names of the members of a rule as a document. -/
def members : List String :=
  ["if_contains", "install_lines", "install_sleep_ms", "install_exit", "print_env", "lines",
    "sleep_ms", "error", "exit"]

/-- The error that a rule names: one of two known ones, or what the system says about a
program that cannot be started. -/
def errorOf (id : String) : String → RunnerError
  | "not_implemented" => .notImplemented id
  | "working_directory" => .workingDirectory "gone"
  | source => .spawn "npx" source

/-- Reads a rule for the adapter `id`; it has no other members. -/
def ofDocument? (id : String) (d : Document) : Option RehearsalRule := do
  let ms ← d.members?
  if ms.any fun m => m.1 ∉ members then none
  let exit ← optionalOr? ms "exit" asExitCode? 0
  let error ← optional? ms "error" asText?
  return {
    mark := ← optionalOr? ms "if_contains" asText? ""
    installLines := ← optionalOr? ms "install_lines" (asList? asText?) []
    installMs := ← optionalOr? ms "install_sleep_ms" asNat64? 0
    installCode := ← optionalOr? ms "install_exit" asExitCode? 0
    shown := ← optionalOr? ms "print_env" (asList? asText?) []
    lines := ← optionalOr? ms "lines" (asList? asText?) []
    runMs := ← optionalOr? ms "sleep_ms" asNat64? 0
    outcome := match error with
      | some s => .error (errorOf id s)
      | none => .ok exit }

/-- The rule fits the files in a directory; the manifest does not count. -/
def fits (h : Host) (directory : String) (r : RehearsalRule) : Bool :=
  match h.files.locate? h.cwd directory with
  | none => false
  | some place => (h.files.filesBelow place).any fun (names, content) =>
      names ≠ [manifestPath] && Text.contains content r.mark

/-- The line about a variable. -/
def variableLine (env : Variables) (name : String) : String :=
  name ++ "=" ++ (env.get? name).getD "(unset)"

/-- Lines, and then a pause if there is one. -/
def stepsWith (lines : List String) (ms : Time) : List RunnerStep :=
  lines.map .line ++ if ms = 0 then [] else [.pause ms]

/-- The preparation. -/
def installStage (r : RehearsalRule) (h : Host) : RunnerStage where
  steps := stepsWith r.installLines r.installMs
  outcome := if r.installCode = 0 then .ok 0 else .error (.install r.installCode)
  files := h.files

/-- The run. -/
def runStage (r : RehearsalRule) (h : Host) (env : Variables) : RunnerStage where
  steps := stepsWith (r.shown.map (variableLine env) ++ r.lines) r.runMs
  outcome := r.outcome
  files := h.files

end RehearsalRule

/-- The runner that follows rules. -/
def rehearsalRunner (id : String) (rules : List RehearsalRule) : Runner where
  id
  install h directory _ :=
    ((rules.find? fun r => r.fits h directory).map fun r => r.installStage h).getD (.idle h)
  run h directory env :=
    ((rules.find? fun r => r.fits h directory).map fun r => r.runStage h env).getD (.idle h)

/-- **The adapter that renders as another and follows rules.** -/
def Adapter.rehearsal (a : Adapter) (id : String) (rules : List RehearsalRule) : Adapter where
  id
  displayName := id
  render := a.render
  runner := rehearsalRunner id rules

end Testplan
