import Testplan.Compile
import Testplan.Loading
import Testplan.WorkerPool
/-!
# The command line

The program compiles plans, renders them, runs them, and lists what it knows.
`Command.parse?` reads the arguments; a command line that it refuses is a mistake of
usage.  `Command.perform` does what a command asks for on a host.

An option is given as `--name value` or `--name=value`, at most once.  A value that stands
alone does not start with a dash, unless it is a dash; a path is not empty.
-/
namespace Testplan

/-- **What the command line asks for.** -/
inductive Command where
  /-- Compiles a plan and writes it to a file, or prints it. -/
  | compile (discovery persona : String) (environment output : Option String)
  | render (plan framework output : String) (config : Option String)
  /-- Compiles, renders and runs. -/
  | run (discovery persona framework : String) (environment config : Option String)
  | frameworks
  | personas
  | version
  | help
deriving DecidableEq, Repr

/-! ## Options -/

/-- An option of a command. -/
structure CommandOption where
  name : String
  isPath : Bool := true
deriving Repr

/-- The options that were given, or a question for help. -/
inductive OptionsRead where
  | values (t : KeyTable String)
  | help

/-- The name of a long option and the value that is attached to it. -/
def longOption? (arg : String) : Option (String × Option String) :=
  (Text.dropPiece? ['-', '-'] arg.toList).map fun cs =>
    match Text.cutAtChar '=' cs with
    | some (name, value) => (String.ofList name, some (String.ofList value))
    | none => (String.ofList cs, none)

/-- The argument can stand alone as a value. -/
def isPlainValue (arg : String) : Bool := arg = "-" || arg.toList.head? ≠ some '-'

/-- The short options of an argument. -/
def shortOptions? (arg : String) : Option (List Char) :=
  match arg.toList with
  | '-' :: c :: rest => if c = '-' then none else some (c :: rest)
  | _ => none

/-- Adds the value of an option, if it may have it. -/
def addValue? (options : List CommandOption) (t : KeyTable String) (name value : String) :
    Option (KeyTable String) := do
  let o ← options.find? fun o => o.name = name
  if (o.isPath && value.isEmpty) || (t.get? name).isSome then none
  else some (t.insert name value)

/-- Reads the options of a command. -/
def readOptions? (options : List CommandOption) (t : KeyTable String) :
    List String → Option OptionsRead
  | [] => some (.values t)
  | ["--"] => some (.values t)
  | arg :: rest =>
    match longOption? arg with
    | some ("help", none) => some .help
    | some (name, some value) =>
      (addValue? options t name value).bind fun t => readOptions? options t rest
    | some (name, none) =>
      match rest with
      | value :: rest =>
        if isPlainValue value then
          (addValue? options t name value).bind fun t => readOptions? options t rest
        else none
      | [] => none
    | none => if (shortOptions? arg).bind List.head? = some 'h' then some .help else none

/-! ## Commands -/

/-- The persona of whom names none. -/
def defaultPersona : String := "sdet"

/-- The variable of the process that names the configuration. -/
def configVariable : String := "TESTFORGE_CONFIG"

/-- The value of the option for the configuration, or of the variable for it; nothing if
the variable is empty. -/
def configOption? (process : Variables) (t : KeyTable String) : Option (Option String) :=
  match t.get? "config", process.get? configVariable with
  | some path, _ => some (some path)
  | none, some "" => none
  | none, other => some other

namespace Command

/-- The names of the commands. -/
def names : List String := ["compile", "render", "run", "frameworks", "personas"]

/-- The options of a command. -/
def options : String → List CommandOption
  | "compile" =>
    [{ name := "discovery" }, { name := "persona", isPath := false }, { name := "env" },
      { name := "out" }]
  | "render" =>
    [{ name := "plan" }, { name := "framework", isPath := false }, { name := "out" },
      { name := "config" }]
  | "run" =>
    [{ name := "discovery" }, { name := "persona", isPath := false },
      { name := "framework", isPath := false }, { name := "env" }, { name := "config" }]
  | _ => []

/-- The command with a name and options. -/
def ofValues? (process : Variables) (name : String) (t : KeyTable String) : Option Command :=
  let persona := (t.get? "persona").getD defaultPersona
  match name with
  | "compile" => do return .compile (← t.get? "discovery") persona (t.get? "env") (t.get? "out")
  | "render" => do
    return .render (← t.get? "plan") (← t.get? "framework") (← t.get? "out")
      (← configOption? process t)
  | "run" => do
    return .run (← t.get? "discovery") persona (← t.get? "framework") (t.get? "env")
      (← configOption? process t)
  | "frameworks" => some .frameworks
  | "personas" => some .personas
  | _ => none

/-- **Reads a command line**; nothing if it is not used as it should be. -/
def parse? (process : Variables) : List String → Option Command
  | [] => none
  | "--version" :: _ => some .version
  | "--help" :: _ => some .help
  | ["help"] => some .help
  | "help" :: name :: rest =>
    if name ∈ "help" :: names ∧ rest.isEmpty then some .help else none
  | arg :: rest =>
    if arg ∈ names then
      match readOptions? (options arg) .empty rest with
      | some (.values t) => ofValues? process arg t
      | some .help => some .help
      | none => none
    else match (shortOptions? arg).bind List.head? with
      | some 'V' => some .version
      | some 'h' => some .help
      | _ => none

end Command

/-! ## Performing commands -/

/-- What a command has to work with: the host, the time, and identifiers. -/
structure Workplace where
  host : Host
  time : Timestamp
  ids : IdSource

/-- **What a command leaves behind.** -/
structure Performance where
  output : String := ""
  /-- The message of the error, if the command failed. -/
  error : Option String := none
  files : FileTree

namespace Performance

/-- A command that changed nothing. -/
def printed (w : Workplace) (output : String) : Performance := { output, files := w.host.files }

/-- A command that failed before it changed anything. -/
def failed (w : Workplace) (message : String) : Performance :=
  { error := some message, files := w.host.files }

end Performance

namespace Workplace

/-- The environment in a file; an empty one if no file is named. -/
def environment (w : Workplace) : Option String → Except ConfigError Environment
  | none => .ok {}
  | some path => w.host.files.loadEnvironment w.host.cwd path

/-- The configuration in a file; the default one if no file is named. -/
def configuration (w : Workplace) : Option String → Except ConfigError Configuration
  | none => .ok (.default w.host.process)
  | some path => w.host.files.loadConfiguration w.host.cwd w.host.process path

/-- Draws an identifier. -/
def draw (w : Workplace) : Uuid × Workplace :=
  let (uuid, ids) := w.ids.draw
  (uuid, { w with ids })

/-- A plan compiled from files, with what it was compiled from. -/
def compile (w : Workplace) (fresh : Uuid) (discovery persona : String)
    (environment : Option String) : Except ConfigError (Discovery × Environment × Plan) := do
  let d ← w.host.files.loadDiscovery w.host.cwd discovery
  let e ← w.environment environment
  let p ← compilePlan fresh d e w.host.process persona .builtin w.time
  return (d, e, p)

end Workplace

namespace Command

/-- The files that a command reads. -/
def inputs : Command → List String
  | compile discovery _ environment _ => discovery :: environment.toList
  | render plan _ _ config => plan :: config.toList
  | run discovery _ _ environment config => discovery :: environment.toList ++ config.toList
  | frameworks | personas | version | help => []

/-- Compiles a plan. -/
def performCompile (w : Workplace) (discovery persona : String)
    (environment output : Option String) : Performance :=
  let (fresh, w) := w.draw
  match w.compile fresh discovery persona environment with
  | .error e => .failed w e.message
  | .ok (_, _, p) =>
    match output with
    | none => .printed w p.toYaml
    | some path =>
      match w.host.files.write? w.host.cwd path p.toYaml with
      | none => .failed w ("플랜 저장 실패: " ++ path)
      | some files => { files }

/-- Renders a plan. -/
def performRender (w : Workplace) (plan framework output : String) (config : Option String) :
    Performance :=
  match w.configuration config with
  | .error e => .failed w e.message
  | .ok c =>
    match w.host.files.loadPlan? w.host.cwd plan with
    | none => .failed w ("플랜 읽기 실패: " ++ plan)
    | some p =>
      match (AdapterRegistry.builtin c.renderSettings).find framework with
      | .error e => .failed w e.message
      | .ok a =>
        let r := a.render p
        let (files, wrong) := w.host.files.writeProject w.host.cwd output r.files r.manifest
        { files, error := wrong.map WriteError.message }

/-- The line about something that happened to a job; most is not worth one. -/
def eventLine? (id : JobId) : JobEvent → Option String
  | .log line => some ("[" ++ id.uuid.render ++ "] " ++ line)
  | .queued .. | .started .. | .healing .. | .finished .. => none

/-- The line about how a job ended. -/
def resultLine (j : Job) : String :=
  j.id.uuid.render ++ " " ++ j.queue.name ++ " " ++
    match j.status with
    | .failed f => "FAILED " ++ f.kind.name ++ ": " ++ f.message
    | status => status.label

/-- Compiles and runs a plan. -/
def performRun (w : Workplace) (discovery persona framework : String)
    (environment config : Option String) : Performance :=
  let (fresh, w) := w.draw
  match w.configuration config with
  | .error e => .failed w e.message
  | .ok c =>
    match w.compile fresh discovery persona environment with
    | .error e => .failed w e.message
    | .ok (d, e, p) =>
      let o := Orchestrator.ofConfiguration c (.builtin c.renderSettings) w.host w.ids
      match o.submit { plan := p, framework, environment := e, discovery := some d } with
      | (_, .error e) => .failed w e.message
      | (o, .ok _) =>
        let o := o.runUntilIdle turnLimit none
        let jobs := o.board.toList
        let failed := (jobs.filter fun j => j.failure?.isSome).length
        { output := ofLines
            (o.events.filterMap (fun (id, e) => eventLine? id e) ++ jobs.map resultLine)
          error := if failed = 0 then none else some (toString failed ++ "개 작업 실패")
          files := o.host.files }

/-- The line that `version` prints. -/
def versionLine : String := "testforge 0.1.0"

/-- **Does what a command asks for.** -/
def perform (w : Workplace) : Command → Performance
  | compile discovery persona environment output =>
    performCompile w discovery persona environment output
  | render plan framework output config => performRender w plan framework output config
  | run discovery persona framework environment config =>
    performRun w discovery persona framework environment config
  | frameworks => .printed w (ofLines (Framework.all.map fun f => f.id ++ "\t" ++ f.displayName))
  | personas => .printed w (ofLines PatternLibrary.builtin.personas)
  | version => .printed w (ofLines [versionLine])
  | help => .printed w ""

end Command

end Testplan
