import Testplan.Script.Programs
/-!
# Commands of the shell

The commands that a shell has itself and that run no other commands (`builtin`): they
change its variables, arguments, directory, options and traps, or end commands early.
-/
namespace Testplan.Script

/-! ## Arguments -/

/-- The count that a command is asked for, or the one that it takes otherwise. -/
def countOf (program : String) (standard : Nat) (args : List String) : Act Nat :=
  match args with
  | [] => return standard
  | a :: _ => match a.toNat? with
    | some n => return n
    | none => fail (program ++ ": Illegal number: " ++ a)

/-- The name and the value in an argument that sets a variable. -/
def settingOf (a : String) : String × Option String :=
  match Text.cutAtChar '=' a.toList with
  | some (name, value) => (String.ofList name, some (String.ofList value))
  | none => (a, none)

/-! ## Variables and options -/

/-- Sets variables; `each` says what else becomes of them. -/
def setVariables (program : String) (each : String → Shell → Shell) (args : List String) :
    Act Unit := do
  for a in args do
    let (name, value) := settingOf a
    if isName name.toList then
      modify (each name)
      for v in value do assign name v
    else fail (program ++ ": " ++ name ++ ": bad variable name")

/-- Remembers the value of a variable until the function ends. -/
def Shell.hide (name : String) (sh : Shell) : Shell :=
  { sh with hidden := (name, sh.vars.get? name) :: sh.hidden }

/-- Sets an option of the shell by its letter. -/
def Shell.setOption? (on : Bool) (sh : Shell) : Char → Option Shell
  | 'e' => some { sh with strict := on }
  | 'u' => some { sh with demanding := on }
  | 'x' => some { sh with tracing := on }
  | 'f' | 'v' | 'm' | 'a' | 'b' | 'n' | 'C' => some sh
  | _ => none

/-- The letters of the options that have names. -/
def optionLetters : List (String × Char) :=
  [("errexit", 'e'), ("nounset", 'u'), ("xtrace", 'x'), ("noglob", 'f'), ("verbose", 'v'),
    ("monitor", 'm'), ("allexport", 'a')]

/-- Sets options and arguments. -/
def setOptions : List String → Act Unit
  | [] => return
  | "--" :: rest => modify fun sh => { sh with arguments := rest }
  | a :: rest => do
    let sign := String.ofList (a.toList.take 1)
    if 1 < a.length && (sign = "-" || sign = "+") then
      let letters := a.toList.drop 1
      let illegal {α : Type} (x : String) : Act α :=
        fail ("set: Illegal option " ++ sign ++ x)
      for c in letters.filter (· ≠ 'o') do
        match (← get).setOption? (sign = "-") c with
        | some sh => set sh
        | none => illegal (String.singleton c)
      if 'o' ∈ letters then
        match rest with
        | name :: rest =>
          match (optionLetters.lookup name).bind ((← get).setOption? (sign = "-")) with
          | some sh =>
            set sh
            setOptions rest
          | none => illegal ("o " ++ name)
        | [] => return
      else setOptions rest
    else modify fun sh => { sh with arguments := a :: rest }

/-! ## Traps and signals -/

/-- Says what to do at signals. -/
def setTraps (args : List String) : Act Nat := do
  let (text, names) := match args with
    | [] => (some "", [])
    | "-" :: names => (none, names)
    | [name] => (none, [name])
    | text :: names => (some text, names)
  let mut status := 0
  for name in names do
    match signalNumber? name with
    | none =>
      complain ("trap: " ++ name ++ ": bad trap")
      status := 1
    | some n => modify fun sh =>
      let others := sh.traps.entries.filter (·.1 ≠ toString n)
      { sh with traps := .ofList (others ++ (text.map fun t => (toString n, t)).toList) }
  return status

/-- The signals that do nothing to a process that does not ask for them. -/
def harmlessSignals : List Nat := [0, 17, 18, 23, 28]

/-- Work that a signal ends does nothing more. -/
def endJob (signal : Nat) : Act Unit :=
  modify fun sh => match sh.job with
    | some job =>
      if job.ends ≤ sh.time || signal ∈ harmlessSignals then sh
      else { sh with
        written := sh.written.filter fun w => w.time ≤ sh.time
        job := some { ends := sh.time, status := 128 + signal, signal := some signal } }
    | none => sh

/-- Sends signals.  Gives the text to run if one of them is trapped, and the status. -/
def sendSignal (args : List String) : Act (Option String × Nat) := do
  match signalAndTargets? args with
  | none | some (_, []) =>
    complainHere "kill: Usage: kill [-s sigspec | -signum | -sigspec] [pid | job]... or"
    complain "kill -l [exitstatus]"
    return (none, 2)
  | some (signal, targets) =>
    let mut trapped := none
    let mut status := 0
    for target in targets do
      let sh ← get
      if target = toString sh.process || target = "0" then
        match if signal = 9 then none else sh.traps.get? (toString signal) with
        | some text => if signal ≠ 0 then trapped := some text
        | none => if signal ∉ harmlessSignals then throw (.killed signal)
      else if sh.job.isSome && (target = backgroundProcess || target.startsWith "%") then
        endJob signal
      else
        complainHere "kill: No such process\n"
        status := 1
    return (trapped, status)

/-- Waits for the work in the background. -/
def waitForJob (args : List String) : Act Nat := do
  let sh ← get
  match sh.job, args with
  | none, [] => return 0
  | none, _ :: _ => return 127
  | some job, args =>
    if args.all fun a => a = backgroundProcess || a.startsWith "%" then
      set { sh with time := max sh.time job.ends, job := some { job with signal := none } }
      if args.isEmpty then return 0
      else
        for signal in job.signal do complainOfSignal signal
        return job.status
    else return 127

/-! ## Directories and input -/

/-- Goes to another directory. -/
def changeDirectory (args : List String) : Act Nat := do
  let sh ← get
  let target := match args with
    | [] => (sh.vars.get? "HOME").getD ""
    | "-" :: _ => (sh.vars.get? "OLDPWD").getD ""
    | a :: _ => a
  match (sh.files.locate? sh.cwd target).filter sh.files.isDirectory with
  | some p =>
    set { sh with
      cwd := p
      vars := (sh.vars.insert "OLDPWD" (pathOf sh.cwd)).insert "PWD" (pathOf p) }
    if args.head? = some "-" then say (pathOf p ++ "\n")
    return 0
  | none =>
    complainHere ("cd: can't cd to " ++ target)
    return 2

/-- The first line of a text, in which a backslash joins lines and protects characters,
and what follows. -/
def unescapedLine : List Char → List Char × List Char
  | [] => ([], [])
  | '\\' :: '\n' :: rest => unescapedLine rest
  | '\\' :: c :: rest => ((c :: (unescapedLine rest).1), (unescapedLine rest).2)
  | '\n' :: rest => ([], '\n' :: rest)
  | c :: rest => ((c :: (unescapedLine rest).1), (unescapedLine rest).2)

/-- Reads a line into variables; fails at the end of the input. -/
def readLine (args : List String) : Act Nat := do
  let sh ← get
  let names := args.filter fun a => !a.startsWith "-"
  if names.isEmpty then
    complainHere "read: arg count"
    return 2
  else
    let (line, rest) :=
      if args.contains "-r" then
        let line := sh.input.takeWhile (· ≠ 10)
        ((textOf line).toList, sh.input.drop line.length)
      else
        let (line, rest) := unescapedLine (textOf sh.input).toList
        (line, bytesOf (String.ofList rest))
    set { sh with input := rest.drop 1 }
    for (name, value) in names.zip (readFields (separators sh) names.length line) do
      assign name value
    return if rest.isEmpty then 1 else 0

/-! ## The commands -/

/-- The commands of the shell. -/
def builtins : List String :=
  [":", "exit", "return", "break", "continue", "shift", "cd", "export", "readonly", "local",
    "unset", "set", "trap", "kill", "umask", "wait", "read", "eval", "exec", "command", "type", ".", "hash",
    "ulimit", "alias", "unalias", "times", "jobs", "echo", "printf", "pwd", "test", "[", "true",
    "false"]

/-- The commands that keep the variables set for them. -/
def specialBuiltins : List String :=
  [":", ".", "break", "continue", "eval", "exec", "exit", "export", "readonly", "return", "set",
    "shift", "times", "trap", "unset"]

/-- Says what the name of a command stands for. -/
def describe (name : String) : Act Nat := do
  let sh ← get
  if isKeyword name then say (name ++ " is a shell keyword\n")
  else if (sh.functions.get? name).isSome then say (name ++ " is a shell function\n")
  else if name ∈ builtins then say (name ++ " is a shell builtin\n")
  else match sh.find? name with
    | some e => say (name ++ " is " ++ e.path ++ "\n")
    | none => say (name ++ ": not found\n")
  let known := isKeyword name || (sh.functions.get? name).isSome || name ∈ builtins ||
    (sh.find? name).isSome
  return if known then 0 else 127

/-- **Runs a command of the shell**; nothing if it has none of this name, or if the
command runs others. -/
def builtin (name : String) (args : List String) : Act (Option Nat) := do
  let sh ← get
  match name with
  | ":" | "umask" | "hash" | "ulimit" | "alias" | "unalias" | "times" | "jobs" => return some 0
  | "exit" => throw (.exit ((← countOf name sh.status args) % 256))
  | "return" => throw (.giveBack ((← countOf name sh.status args) % 256))
  | "break" | "continue" =>
    let n := min (← countOf name 1 args) sh.loops
    if n = 0 then return some 0
    else throw (if name = "break" then .leave n else .skip n)
  | "shift" =>
    let n ← countOf name 1 args
    if n ≤ sh.arguments.length then
      set { sh with arguments := sh.arguments.drop n }
      return some 0
    else fail "shift: can't shift that many"
  | "cd" => return some (← changeDirectory args)
  | "export" =>
    let mark (x : String) (sh : Shell) : Shell := { sh with exported := sh.exported.insert x () }
    setVariables name mark (args.filter (· ≠ "-p"))
    return some 0
  | "readonly" =>
    setVariables name (fun _ sh => sh) args
    for a in args do
      modify fun sh => { sh with constant := sh.constant.insert (settingOf a).1 () }
    return some 0
  | "local" =>
    setVariables name Shell.hide args
    return some 0
  | "unset" =>
    if args.head? = some "-f" then
      let others := sh.functions.entries.filter fun (x, _) => x ∉ args
      set { sh with functions := .ofList others }
    else set { sh with vars := .ofList (sh.vars.entries.filter fun (x, _) => x ∉ args) }
    return some 0
  | "set" =>
    setOptions args
    return some 0
  | "trap" => return some (← setTraps args)
  | "wait" => return some (← waitForJob args)
  | "read" => return some (← readLine args)
  | "type" =>
    let mut status := 0
    for a in args do status := max status (← describe a)
    return some status
  | "echo" | "printf" | "pwd" | "test" | "[" | "true" | "false" => systemProgram name args
  | _ => return none

end Testplan.Script
