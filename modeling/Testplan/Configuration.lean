import Testplan.Document
import Testplan.Environment
import Testplan.Rendering
/-!
# Configurations

A `Configuration` says how jobs are run: where their files go, how long they may
take, how much of their output is kept, and how many workers each queue has.  Every
entry has a default, at every level; a queue that is described only in part has one
worker and no delay in the other part.

Environments are read from documents here too, since both describe where and how
tests run.
-/
namespace Testplan

open Document

/-- The workers of a queue, and how long a job waits before it can be taken. -/
structure QueueSettings where
  concurrency : Nat := 1
  delaySecs : Nat := 0
deriving DecidableEq, Repr

/-- The number of workers: at least one. -/
def QueueSettings.workers (s : QueueSettings) : Nat := max s.concurrency 1

/-- The settings of the three queues. -/
structure QueuesSettings where
  run : QueueSettings := { concurrency := 2 }
  healing : QueueSettings := {}
  security : QueueSettings := {}
deriving DecidableEq, Repr

/-- **How jobs are run.** -/
structure Configuration where
  workRoot : String
  keepArtifacts : Bool := false
  jobTimeoutSecs : Nat := 900
  testTimeoutMs : Nat := 30000
  logTailLines : Nat := 200
  installDependencies : Bool := false
  reportFile : String := "report.json"
  queues : QueuesSettings := {}
deriving DecidableEq

/-- The default configuration; work goes below the directory for temporary files, which
a variable of the process may move. -/
def Configuration.default (process : Variables) : Configuration where
  workRoot := Path.join ((process.get? "TMPDIR").getD "/tmp") "testforge"

/-- What of a configuration enters rendered projects. -/
def Configuration.renderSettings (c : Configuration) : RenderSettings where
  testTimeoutMs := c.testTimeoutMs
  reportFile := c.reportFile
  installDependencies := c.installDependencies

/-! ## As documents -/

def QueueSettings.toDocument (s : QueueSettings) : Document :=
  .map <| always "concurrency" (natural s.concurrency) ++
    always "delay_secs" (natural s.delaySecs)

def QueueSettings.ofDocument? (d : Document) : Option QueueSettings := do
  let ms ← d.record? ["concurrency", "delay_secs"]
  return {
    concurrency := ← withDefault? ms "concurrency" asNat64? 1
    delaySecs := ← withDefault? ms "delay_secs" asNat64? 0 }

def QueuesSettings.toDocument (s : QueuesSettings) : Document :=
  .map <| always "run" s.run.toDocument ++ always "healing" s.healing.toDocument ++
    always "security" s.security.toDocument

def QueuesSettings.ofDocument? (d : Document) : Option QueuesSettings := do
  let ms ← d.record? ["run", "healing", "security"]
  let default : QueuesSettings := {}
  return {
    run := ← withDefault? ms "run" QueueSettings.ofDocument? default.run
    healing := ← withDefault? ms "healing" QueueSettings.ofDocument? default.healing
    security := ← withDefault? ms "security" QueueSettings.ofDocument? default.security }

def RenderSettings.toDocument (s : RenderSettings) : Document :=
  .map <| always "test_timeout_ms" (natural s.testTimeoutMs) ++
    always "report_file" (.text s.reportFile) ++
    always "install_dependencies" (.bool s.installDependencies)

def RenderSettings.ofDocument? (d : Document) : Option RenderSettings := do
  let ms ← d.record? ["test_timeout_ms", "report_file", "install_dependencies"]
  let default : RenderSettings := {}
  return {
    testTimeoutMs := ← optionalOr? ms "test_timeout_ms" asNat64? default.testTimeoutMs
    reportFile := ← optionalOr? ms "report_file" asText? default.reportFile
    installDependencies :=
      ← optionalOr? ms "install_dependencies" asBool? default.installDependencies }

def Configuration.toDocument (c : Configuration) : Document :=
  .map <| always "work_root" (.text c.workRoot) ++
    always "keep_artifacts" (.bool c.keepArtifacts) ++
    always "job_timeout_secs" (natural c.jobTimeoutSecs) ++
    always "test_timeout_ms" (natural c.testTimeoutMs) ++
    always "log_tail_lines" (natural c.logTailLines) ++
    always "install_dependencies" (.bool c.installDependencies) ++
    always "report_file" (.text c.reportFile) ++ always "queues" c.queues.toDocument

/-- Reads a configuration; `default` stands in for missing entries. -/
def Configuration.ofDocument? (default : Configuration) (d : Document) :
    Option Configuration := do
  let ms ← d.record? ["work_root", "keep_artifacts", "job_timeout_secs", "test_timeout_ms",
    "log_tail_lines", "install_dependencies", "report_file", "queues"]
  return {
    workRoot := ← withDefault? ms "work_root" asText? default.workRoot
    keepArtifacts := ← withDefault? ms "keep_artifacts" asBool? default.keepArtifacts
    jobTimeoutSecs := ← withDefault? ms "job_timeout_secs" asNat64? default.jobTimeoutSecs
    testTimeoutMs := ← withDefault? ms "test_timeout_ms" asNat64? default.testTimeoutMs
    logTailLines := ← withDefault? ms "log_tail_lines" asNat64? default.logTailLines
    installDependencies :=
      ← withDefault? ms "install_dependencies" asBool? default.installDependencies
    reportFile := ← withDefault? ms "report_file" asText? default.reportFile
    queues := ← withDefault? ms "queues" QueuesSettings.ofDocument? default.queues }

/-! ## Environments as documents -/

/-- Variables as a mapping of texts; of two values of one name the later counts. -/
def asVariables? (d : Document) : Option Variables := do
  let members ← d.members?
  let entries ← members.mapM fun (name, value) => do return (name, ← value.asText?)
  return .ofList entries

/-- Variables as a mapping. -/
def variablesDocument (vars : Variables) : Document :=
  .map (vars.entries.map fun (name, value) => (name, .text value))

def Credentials.toDocument (c : Credentials) : Document :=
  .map <| always "username" (.text c.username) ++ always "password" (.text c.password)

def Credentials.ofDocument? (d : Document) : Option Credentials := do
  let ms ← d.record? ["username", "password"]
  return {
    username := ← required? ms "username" asText?
    password := ← withDefault? ms "password" asText? "" }

def Environment.toDocument (e : Environment) : Document :=
  .map <| ifSome "baseUrl" e.baseUrl .text ++ ifSome "auth" e.auth Credentials.toDocument ++
    always "vars" (variablesDocument e.vars)

def Environment.ofDocument? (d : Document) : Option Environment := do
  let ms ← d.record? ["baseUrl", "auth", "vars"]
  return {
    baseUrl := ← optional? ms "baseUrl" asText?
    auth := ← optional? ms "auth" Credentials.ofDocument?
    vars := ← withDefault? ms "vars" asVariables? .empty }

end Testplan
