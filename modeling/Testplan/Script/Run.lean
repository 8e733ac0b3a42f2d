import Testplan.Script.Builtins
import Testplan.Script.Expansion
/-!
# Running programs

`Script.launch?` runs a program in a tree of files: a tool, which is a script in a file
that the search path leads to, or one of the common programs of the system.  It gives
what the process prints and how it ends, and the tree afterwards; it fails if there is no
such program.

A script is run command by command.  Subshells, pipelines and command substitutions work
on a copy of the variables; a script that is started is a process of its own, which a
signal may end.  Only what is written to the streams of the process itself is seen from
outside.

The runners do not depend on this shell.  They start programs with whatever `Launcher` their
host has, of which this is one, for tools that are scripts.

The functions that run commands count down a bound on the depth of calls and the length
of loops.
-/
namespace Testplan.Script

/-! ## Copies and processes -/

/-- What becomes of an action, with a jump out of it as a result. -/
def outcomeOf {α : Type} (act : Act α) : Act (Except Jump α) := ExceptT.lift act.run

/-- Runs an action in a copy of the shell: what it writes stays, its variables do not. -/
def inCopy (act : Act Nat) : Act Nat := do
  let before ← get
  set { before with traps := .ofList (before.traps.entries.filter fun (_, text) => text.isEmpty) }
  let outcome ← outcomeOf act
  modify fun sh => { before with
    files := sh.files, caught := sh.caught, input := sh.input
    time := sh.time, written := sh.written }
  match outcome with
  | .ok status | .error (.exit status) | .error (.giveBack status) => return status
  | .error (.leave _) | .error (.skip _) => return 0
  | .error (.killed signal) => throw (.killed signal)

/-- Runs an action in a process of its own. -/
def inProcess (act : Act Nat) : Act Nat := do
  let outcome ← outcomeOf (inCopy (do
    modify fun sh => { sh with process := sh.process + 1, traps := .empty, job := none }
    act))
  match outcome with
  | .ok status => return status
  | .error (.killed signal) =>
    complainOfSignal signal
    return 128 + signal
  | .error jump => throw jump

/-- Runs an action in the background. -/
def inBackground (act : Act Nat) : Act Unit := do
  let before ← get
  set { before with time := before.time + 1, input := [] }
  let status := match ← outcomeOf (inCopy act) with
    | .ok status => status
    | .error _ => 0
  modify fun sh => { sh with
    time := before.time, input := before.input, job := some { ends := sh.time, status } }

/-- Runs an action inside a loop. -/
def inLoop {α : Type} (act : Act α) : Act α := do
  modify fun sh => { sh with loops := sh.loops + 1 }
  let outcome ← outcomeOf act
  modify fun sh => { sh with loops := sh.loops - 1 }
  match outcome with
  | .ok a => return a
  | .error jump => throw jump

/-- Runs an action in a copy of the shell and gives what it writes. -/
def outputOf (act : Act Nat) : Act (List UInt8) := do
  let before ← get
  set { before with caught := [], sinks := (1, .captured) :: before.sinks }
  let status ← inCopy act
  let bytes := (← get).caught
  modify fun sh => { sh with
    caught := before.caught, sinks := before.sinks, outputStatus := status }
  return bytes

/-- Sets up a shell that runs a script. -/
def Shell.forScript (sh : Shell) (path : String) (args : List String) (lineEnds : Nat) : Shell :=
  let environment := handedOn sh
  { sh with
    vars := environment.insert "PWD" (pathOf sh.cwd)
    exported := .ofTags environment.keys
    constant := .empty
    name := path, arguments := args, lineEnds, functions := .empty, status := 0
    strict := false, demanding := false, tracing := false }

/-- A failing command of this kind may end a strict shell. -/
def Command.isTested : Command → Bool
  | both _ _ | either _ _ | pipeline true _ | background _ => true
  | _ => false

/-- Says which command runs. -/
def trace (assignments : List (String × List Piece)) (texts : List String) : Act Unit := do
  let sh ← get
  if sh.tracing then
    let settings := assignments.map fun (x, _) => x ++ "=" ++ (sh.vars.get? x).getD ""
    complain ("+ " ++ " ".intercalate (settings ++ texts))

/-! ## Commands -/

mutual

/-- What commands write. -/
def capture : Nat → List Command → Act String
  | 0, _ => return ""
  | fuel + 1, body => textOf <$> outputOf (runToEnd fuel (runList fuel body))

/-- Runs the commands of a text in the shell itself. -/
def runText : Nat → String → String → Act Nat
  | 0, _, _ => return 126
  | fuel + 1, program, text => do
    let script := Program.read text
    let before ← get
    set { before with lineEnds := script.lineEnds }
    let status ← runList fuel script.commands
    match script.error with
    | none =>
      modify fun sh => { sh with lineEnds := before.lineEnds }
      return status
    | some e =>
      modify fun sh => { sh with line := sh.lineEnds - e.linesAfter + 1 }
      fail (program ++ e.message)

/-- Runs all that a shell has to do: at the end it does what is to be done there, even
if the action ends early. -/
def runToEnd : Nat → Act Nat → Act Nat
  | 0, _ => return 126
  | fuel + 1, act => do
    let outcome ← outcomeOf act
    let sh ← get
    match outcome, (sh.traps.get? "0").filter (!·.isEmpty) with
    | .error (.killed signal), _ => throw (.killed signal)
    | .ok status, some text | .error (.exit status), some text
    | .error (.giveBack status), some text =>
      set { sh with traps := .empty, status }
      let _ ← runText fuel "" text
      return status
    | .ok status, none => return status
    | .error jump, _ => throw jump

/-- Runs a script with a name and arguments. -/
def runScript : Nat → String → String → List String → Act Nat
  | 0, _, _, _ => return 126
  | fuel + 1, name, text, args => do
    let lineEnds := (Program.read text).lineEnds
    modify fun sh => sh.forScript name args lineEnds
    runToEnd fuel (runText fuel "" text)

/-- Runs a program found outside the shell. -/
def runExecutable : Nat → Executable → String → List String → Act Nat
  | 0, _, _, _ => return 126
  | fuel + 1, e, called, args => do
    let sh ← get
    match e with
    | .script path text => runScript fuel path text args
    | .system _ "sh" | .system _ "bash" | .system _ "dash" =>
      let options := args.takeWhile fun a => a.startsWith "-" && a ≠ "-c"
      let strict := options.any fun o => o.toList.contains 'e'
      match args.drop options.length with
      | "-c" :: text :: rest => runScript fuel (rest.head?.getD called) text (rest.drop 1)
      | path :: rest =>
        match sh.files.read? sh.cwd path with
        | some text => runScript fuel path text rest
        | none =>
          complain (called ++ ": 0: cannot open " ++ path ++ ": No such file")
          return 2
      | [] =>
        set { sh with strict, input := [] }
        runScript fuel called (textOf sh.input) []
    | .system _ "env" =>
      let (bare, args) := match args with
        | "-i" :: rest | "-" :: rest => (true, rest)
        | args => (false, args)
      let settings := args.takeWhile fun a => a.toList.contains '='
      if bare then set { sh with vars := .empty, exported := .empty }
      for s in settings do
        let (name, value) := settingOf s
        assign name (value.getD "")
        modify fun sh => { sh with exported := sh.exported.insert name () }
      match args.drop settings.length with
      | [] => return (← systemProgram "env" []).getD 0
      | program :: args =>
        match (← get).find? program with
        | some e => runExecutable fuel e program args
        | none =>
          complain ("env: '" ++ program ++ "': No such file or directory")
          return 127
    | .system _ name => return (← systemProgram name args).getD 2

/-- Runs a program by its name, in a process of its own or in the place of the shell. -/
def runOutside : Nat → Bool → String → List String → Act Nat
  | 0, _, _, _ => return 126
  | fuel + 1, inPlace, name, args => do
    let sh ← get
    let complaint := if inPlace then "exec: " ++ name else name
    match sh.find? name with
    | some e =>
      if inPlace then
        set { sh with traps := .empty }
        runExecutable fuel e name args
      else inProcess (runExecutable fuel e name args)
    | none =>
      if name.isEmpty then
        complainHere (complaint ++ ": Permission denied")
        return 127
      else if name.toList.contains '/' && sh.files.isDirectoryPath sh.cwd name then
        complainHere (complaint ++ ": Permission denied")
        return 126
      else
        complainHere (complaint ++ ": not found")
        return 127

/-- Runs a function. -/
def runFunction : Nat → Command → List String → Act Nat
  | 0, _, _ => return 126
  | fuel + 1, body, args => do
    let before ← get
    set { before with arguments := args, loops := 0, hidden := [] }
    let outcome ← outcomeOf (runCommand fuel body)
    modify fun sh =>
      let sh := sh.hidden.foldl (fun sh (x, v) => sh.giveBack x v) sh
      { sh with arguments := before.arguments, loops := before.loops, hidden := before.hidden }
    match outcome with
    | .ok status | .error (.giveBack status) => return status
    | .error jump => throw jump

/-- Runs a function, a command of the shell or a program. -/
def runWords : Nat → List String → Act Nat
  | 0, _ => return 126
  | _, [] => return 0
  | fuel + 1, name :: args => do
    let sh ← get
    match sh.functions.get? name with
    | some body => runFunction fuel body args
    | none =>
      match name, args with
      | "eval", args => runText fuel "eval: " (" ".intercalate args)
      | ".", path :: _ =>
        match sh.files.read? sh.cwd path with
        | some text => runText fuel "" text
        | none => fail (".: cannot open " ++ path ++ ": No such file")
      | "exec", program :: args => throw (.exit (← runOutside fuel true program args))
      | "command", "-v" :: x :: _ =>
        match if x ∈ builtins then some x else (sh.find? x).map Executable.path with
        | some path =>
          say (path ++ "\n")
          return 0
        | none => return 127
      | "command", "-V" :: x :: _ => describe x
      | "command", program :: args =>
        match ← builtin program args with
        | some status => return status
        | none => runOutside fuel false program args
      | "kill", args =>
        match ← sendSignal args with
        | (none, status) => return status
        | (some text, status) =>
          let _ ← runText fuel "" text
          return status
      | name, args =>
        match ← builtin name args with
        | some status => return status
        | none => if name ∈ builtins then return 0 else runOutside fuel false name args

/-- Runs the parts of a pipeline, each in a copy of the shell. -/
def runPipes : Nat → List Command → Act Nat
  | 0, _ => return 126
  | _, [] => return 0
  | fuel + 1, [c] => inCopy (runToEnd fuel (runCommand fuel c))
  | fuel + 1, c :: rest => do
    let before ← get
    let input ← outputOf (runToEnd fuel (runCommand fuel c))
    modify fun sh => { sh with input }
    let status ← runPipes fuel rest
    modify fun sh => { sh with input := before.input }
    return status

/-- Runs commands whose failure does not end a strict shell. -/
def runTested : Nat → List Command → Act Nat
  | 0, _ => return 126
  | fuel + 1, cs => do
    let strict := (← get).strict
    modify fun sh => { sh with strict := false }
    let status ← runList fuel cs
    modify fun sh => { sh with strict }
    return status

/-- Runs a loop; `go` tells from the status of the condition whether to go on, and
`last` is the status of the body before. -/
def runLoop : Nat → (Nat → Bool) → List Command → List Command → Nat → Act Nat
  | 0, _, _, _, _ => return 126
  | fuel + 1, go, condition, body, last => do
    match ← outcomeOf (inLoop (runTested fuel condition)) with
    | .ok status =>
      if go status then
        if ← runBody fuel body then runLoop fuel go condition body (← get).status
        else return 0
      else return last
    | .error (.leave n) => if n ≤ 1 then return 0 else throw (.leave (n - 1))
    | .error (.skip n) =>
      if n ≤ 1 then runLoop fuel go condition body last else throw (.skip (n - 1))
    | .error jump => throw jump

/-- Runs the body of a loop once; tells whether the loop goes on. -/
def runBody : Nat → List Command → Act Bool
  | 0, _ => return false
  | fuel + 1, body => do
    match ← outcomeOf (inLoop (runList fuel body)) with
    | .ok _ => return true
    | .error (.leave n) => if n ≤ 1 then return false else throw (.leave (n - 1))
    | .error (.skip n) => if n ≤ 1 then return true else throw (.skip (n - 1))
    | .error jump => throw jump

/-- Runs the body of `for` for each word. -/
def runEach : Nat → String → List String → List Command → Act Nat
  | 0, _, _, _ => return 126
  | _, _, [], _ => do return (← get).status
  | fuel + 1, x, w :: rest, body => do
    assign x w
    if ← runBody fuel body then runEach fuel x rest body
    else return 0

/-- Runs the first branch whose condition holds. -/
def runBranches : Nat → List (List Command × List Command) → List Command → Act Nat
  | 0, _, _ => return 126
  | fuel + 1, [], otherwise => runList fuel otherwise
  | fuel + 1, (condition, body) :: rest, otherwise => do
    if (← runTested fuel condition) = 0 then runList fuel body
    else runBranches fuel rest otherwise

/-- Runs the first arm with a pattern that matches. -/
def runArms : Nat → String → List (List (List Piece) × List Command) → Act Nat
  | 0, _, _ => return 126
  | _, _, [] => return 0
  | fuel + 1, word, (patterns, body) :: rest => do
    let globs ← expandPatterns (capture fuel) fuel patterns
    if globs.any fun g => globMatches g word.toList then runList fuel body
    else runArms fuel word rest

/-- Runs a simple command. -/
def runSimple : Nat → List (String × List Piece) → List (List Piece) → List Redirection → Act Nat
  | 0, _, _, _ => return 126
  | fuel + 1, assignments, words, redirections => do
    modify fun sh => { sh with outputStatus := 0 }
    let texts ← expandWords (capture fuel) fuel words
    let marks := (← get).exported
    let before ← assignAll (capture fuel) fuel assignments
    trace assignments texts
    match texts with
    | [] =>
      let status := (← get).outputStatus
      redirected (capture fuel) fuel redirections (return status)
    | ["exec"] =>
      if ← redirect (capture fuel) fuel redirections then return 0 else throw (.exit 2)
    | texts =>
      modify fun sh => { sh with
        exported := assignments.foldl (fun t (x, _) => t.insert x ()) sh.exported }
      let outcome ← outcomeOf (redirected (capture fuel) fuel redirections (runWords fuel texts))
      if !assignments.isEmpty && !texts.head?.any (· ∈ specialBuiltins) then
        modify fun sh =>
          before.foldl (fun sh (x, v) => sh.giveBack x v) { sh with exported := marks }
      match outcome with
      | .ok status => return status
      | .error jump => throw jump

/-- **Runs a command.** -/
def runCommand : Nat → Command → Act Nat
  | 0, _ => return 126
  | fuel + 1, c =>
    match c with
    | .simple linesAfter assignments words redirections => do
      modify fun sh => { sh with line := sh.lineEnds - linesAfter + 1 }
      runSimple fuel assignments words redirections
    | .pipeline negated parts => do
      let status ← if negated then runTested fuel [.pipeline false parts]
        else match parts with
          | [c] => runCommand fuel c
          | parts => runPipes fuel parts
      return if negated then (if status = 0 then 1 else 0) else status
    | .both a b => do
      let status ← runTested fuel [a]
      if status = 0 then runCommand fuel b else return status
    | .either a b => do
      let status ← runTested fuel [a]
      if status = 0 then return 0 else runCommand fuel b
    | .group body rs => redirected (capture fuel) fuel rs (runList fuel body)
    | .subshell body rs =>
      redirected (capture fuel) fuel rs (inCopy (runToEnd fuel (runList fuel body)))
    | .conditional branches otherwise rs =>
      redirected (capture fuel) fuel rs (runBranches fuel branches otherwise)
    | .loop untilTrue condition body rs =>
      redirected (capture fuel) fuel rs
        (runLoop fuel (fun s => (s = 0) != untilTrue) condition body 0)
    | .each x words body rs => do
      let texts ← match words with
        | some ws => expandWords (capture fuel) fuel ws
        | none => pure (← get).arguments
      if texts.isEmpty then return 0
      redirected (capture fuel) fuel rs (runEach fuel x texts body)
    | .choice word arms rs => do
      let s ← expandText (capture fuel) fuel word
      redirected (capture fuel) fuel rs (runArms fuel s arms)
    | .define x body => do
      modify fun sh => { sh with functions := sh.functions.insert x body }
      return 0
    | .background body => do
      inBackground (runToEnd fuel (runCommand fuel body))
      return 0

/-- Runs commands one after the other. -/
def runList : Nat → List Command → Act Nat
  | 0, _ => return 126
  | _, [] => return 0
  | fuel + 1, c :: rest => do
    let status ← runCommand fuel c
    modify fun sh => { sh with status }
    if (← get).strict && status ≠ 0 && !c.isTested then throw (.exit status)
    if rest.isEmpty then return status else runList fuel rest

end

/-! ## Processes -/

/-- A bound on the depth of calls and the length of loops. -/
def stepLimit : Nat := 200000

/-- **Runs a program** with arguments in a directory, with the variables of its
environment.  Gives the run and the tree afterwards; nothing if there is no such
program. -/
def launch? (files : FileTree) (cwd : Place) (environment : Variables) (program : String)
    (args : List String) : Option (ProcessRun × FileTree) :=
  let start : Shell := {
    files, cwd, vars := environment, exported := .ofTags environment.keys
    name := program, arguments := [], lineEnds := 0 }
  (start.find? program).map fun e =>
    let (outcome, sh) := (runExecutable stepLimit e program args).run start
    let exit := match outcome with
      | .ok code | .error (.exit code) | .error (.giveBack code) => some code
      | .error (.killed _) => none
      | .error (.leave _) | .error (.skip _) => some 0
    ({ steps := sh.processSteps, exit }, sh.files)

end Testplan.Script
