import Testplan.FileTree
import Testplan.Placeholder
import Testplan.ProcessOutput
import Testplan.Script.Text
/-!
# Shells

A **shell** runs the commands of a script.  It keeps variables, functions, its directory,
the status of the last command and where its descriptors go.  What it writes is kept with
the time at which it does; work in the background has a time of its own, and the two are
put together in the end (`Shell.processSteps`).

A **jump** ends commands early, by `exit`, a signal, `return`, `break` or `continue`.
-/
namespace Testplan.Script

/-- Where a descriptor goes. -/
inductive Sink where
  | stream (s : OutputStream)
  | file (p : Place)
  | nowhere
  /-- To whoever reads the output of the command. -/
  | captured

/-- What ends commands early. -/
inductive Jump where
  | exit (code : Nat)
  | killed (signal : Nat)
  | giveBack (code : Nat)
  | leave (loops : Nat)
  | skip (loops : Nat)

/-- Bytes that a shell wrote to a stream. -/
structure Written where
  time : Time
  stream : OutputStream
  bytes : List UInt8

/-- Work in the background. -/
structure BackgroundJob where
  ends : Time
  status : Nat
  /-- The signal that has ended it, unless that has been said. -/
  signal : Option Nat := none

/-- **The state of a shell.** -/
structure Shell where
  files : FileTree
  cwd : Place
  vars : Variables
  exported : TagSet
  /-- The variables that keep their values. -/
  constant : TagSet := .empty
  name : String
  arguments : List String
  lineEnds : Nat
  /-- The line of the command that runs. -/
  line : Nat := 1
  /-- The process that the shell is; a subshell is none of its own. -/
  process : Nat := 4242
  functions : KeyTable Command := .empty
  status : Nat := 0
  /-- The status of the latest commands that a word took the output of. -/
  outputStatus : Nat := 0
  sinks : List (Nat × Sink) := [(1, .stream .stdout), (2, .stream .stderr)]
  /-- What was written to `captured`. -/
  caught : List UInt8 := []
  input : List UInt8 := []
  time : Time := 0
  /-- What was written so far, the latest first. -/
  written : List Written := []
  job : Option BackgroundJob := none
  /-- What to do at a signal, or at the end; an empty text is nothing. -/
  traps : KeyTable String := .empty
  /-- The loops around the command that runs. -/
  loops : Nat := 0
  /-- The values that local variables of a function hide. -/
  hidden : List (String × Option String) := []
  /-- A failing command ends the shell. -/
  strict : Bool := false
  /-- A variable without a value ends the shell. -/
  demanding : Bool := false
  /-- Commands are written to the error stream before they run. -/
  tracing : Bool := false

/-- An action of a shell. -/
abbrev Act := ExceptT Jump (StateM Shell)

/-- The path of a place. -/
def pathOf (p : Place) : String := "/" ++ Path.ofNames p

/-- Writes bytes to a descriptor. -/
def emit (descriptor : Nat) (bytes : List UInt8) : Act Unit := do
  let sh ← get
  match sh.sinks.lookup descriptor with
  | some (.stream stream) =>
    if !bytes.isEmpty then
      set { sh with written := { time := sh.time, stream, bytes } :: sh.written }
  | some .captured => set { sh with caught := sh.caught ++ bytes }
  | some (.file p) =>
    let old := (sh.files.file? p).getD ""
    let new := (String.fromUTF8? ⟨bytes.toArray⟩).getD ""
    set { sh with files := sh.files.put p (.file (old ++ new)) }
  | some .nowhere | none => pure ()

/-- Writes a text to the standard output. -/
def say (s : String) : Act Unit := emit 1 (bytesOf s)

/-- Writes a line to the error stream. -/
def complain (message : String) : Act Unit := emit 2 (bytesOf (message ++ "\n"))

/-- Writes a line to the error stream that says where the script is. -/
def complainHere (message : String) : Act Unit := do
  let sh ← get
  complain (sh.name ++ ": " ++ toString sh.line ++ ": " ++ message)

/-- Ends the shell with a complaint. -/
def fail {α : Type} (message : String) : Act α := do
  complainHere message
  throw (.exit 2)

/-- The steps of the process: what was written, in the order of the times. -/
def Shell.processSteps (sh : Shell) : List ProcessStep :=
  let inOrder := sh.written.reverse.mergeSort fun a b => a.time ≤ b.time
  let (steps, last) := inOrder.foldl (fun (steps, last) w =>
    (.write w.stream w.bytes ::
      (if last < w.time then ProcessStep.pause (w.time - last) :: steps else steps), w.time))
    ([], 0)
  let ends := max sh.time ((sh.job.map BackgroundJob.ends).getD 0)
  (if last < ends then .pause (ends - last) :: steps else steps).reverse

/-! ## Variables -/

/-- The process of the latest work in the background. -/
def backgroundProcess : String := "5252"

/-- The value of a variable, if it has one. -/
def valueOf? (sh : Shell) (name : String) : Option String :=
  let positional : Option String := match name.toNat? with
    | some 0 => some sh.name
    | some (n + 1) => sh.arguments[n]?
    | none => none
  match name with
  | "@" => if sh.arguments.isEmpty then none else some (" ".intercalate sh.arguments)
  | "*" =>
    let between := String.ofList (((sh.vars.get? "IFS").getD " ").toList.take 1)
    if sh.arguments.isEmpty then none else some (between.intercalate sh.arguments)
  | "#" => some (toString sh.arguments.length)
  | "?" => some (toString sh.status)
  | "$" => some (toString sh.process)
  | "-" => some ""
  | "!" => sh.job.map fun _ => backgroundProcess
  | _ => if name.toList.all Char.isDigit then positional else sh.vars.get? name

/-- Gives a variable a value. -/
def assign (name value : String) : Act Unit := do
  let sh ← get
  if (sh.constant.get? name).isSome then fail (name ++ ": is read only")
  else set { sh with vars := sh.vars.insert name value }

/-- Gives a variable the value that it had before. -/
def Shell.giveBack (sh : Shell) (name : String) : Option String → Shell
  | some v => { sh with vars := sh.vars.insert name v }
  | none => { sh with vars := .ofList (sh.vars.entries.filter (·.1 ≠ name)) }

/-- The environment that a shell hands on. -/
def handedOn (sh : Shell) : Variables :=
  .ofList (sh.vars.entries.filter fun (k, _) => (sh.exported.get? k).isSome)

/-- The characters that separate fields. -/
def separators (sh : Shell) : List Char := ((sh.vars.get? "IFS").getD " \t\n").toList

/-- A separator that counts once however often it stands. -/
def isBlankSeparator (c : Char) : Bool := c = ' ' || c = '\t' || c = '\n'

/-! ## Words -/

/-- The characters of a text with a mark for quoted ones. -/
abbrev Marked := List (Char × Bool)

/-- The texts made so far, and the one being made. -/
structure Fields where
  done : List Marked := []
  current : Option Marked := none
  /-- A blank has ended the last text. -/
  afterBlank : Bool := false

/-- Adds characters to the text being made. -/
def Fields.add (f : Fields) (s : String) (quoted : Bool) : Fields :=
  let here := s.toList.map fun c => (c, quoted)
  if here.isEmpty && !quoted then f
  else { f with current := some (f.current.getD [] ++ here), afterBlank := false }

/-- Ends the text being made. -/
def Fields.close (f : Fields) : Fields :=
  match f.current with
  | some m => { done := f.done ++ [m], afterBlank := true }
  | none => f

/-- Ends the text being made even if it is empty, unless a blank has just ended one. -/
def Fields.separate (f : Fields) : Fields :=
  if f.current.isNone && f.afterBlank then { f with afterBlank := false }
  else { done := f.done ++ [f.current.getD []] }

/-- Adds a text that is split at separators. -/
def Fields.addSplit (f : Fields) (separators : List Char) (s : String) : Fields :=
  s.toList.foldl (fun f c =>
    if c ∈ separators then if isBlankSeparator c then f.close else f.separate
    else f.add (String.singleton c) false) f

/-- Adds texts that stay apart. -/
def Fields.addEach (f : Fields) : List String → Fields
  | [] => f
  | [s] => f.add s true
  | s :: rest => (f.add s true).close.addEach rest

/-- All texts. -/
def Fields.toList (f : Fields) : List Marked := f.close.done

/-- The values that `read` gives to a number of variables. -/
def readFields (separators : List Char) : Nat → List Char → List String
  | 0, _ => []
  | count + 1, cs =>
    let blank (c : Char) : Bool := c ∈ separators && isBlankSeparator c
    let cs := cs.dropWhile blank
    if count = 0 then [String.ofList (Text.dropEndWhile blank cs)]
    else
      let field := cs.takeWhile fun c => c ∉ separators
      let rest := (cs.drop field.length).dropWhile blank
      let rest := match rest with
        | c :: more => if c ∈ separators then more else rest
        | [] => []
      String.ofList field :: readFields separators count rest

/-- The text without its marks. -/
def plainText (m : Marked) : String := String.ofList (m.map Prod.fst)

/-- The paths that a pattern matches, part by part. -/
def matchingPaths (t : FileTree) : Nat → String → Place → List Marked → List String
  | 0, _, _, _ => []
  | _, _, _, [] => []
  | fuel + 1, before, at_, part :: rest =>
    let active := part.any fun (c, q) => !q && ['*', '?', '['].contains c
    let names := if active then (t.namesIn at_).filter fun n =>
        (!n.startsWith "." || part.head?.any (·.1 = '.')) &&
          globMatches (globOf (part.length + 1) part) n.toList
      else [plainText part]
    names.flatMap fun n =>
      let path := before ++ n
      if rest.isEmpty then
        if active || (t.node? (at_ ++ [n])).isSome then [path] else []
      else matchingPaths t fuel (path ++ "/") (at_ ++ [n]) rest

/-- The texts that a word with patterns stands for: the paths that it matches, or itself
if there are none. -/
def globbed (sh : Shell) (m : Marked) : List String :=
  if m.any fun (c, q) => !q && ['*', '?', '['].contains c then
    let parts := m.splitBy fun a b => a.1 ≠ '/' && b.1 ≠ '/'
    let parts := parts.filter fun p => p.any fun (c, _) => c ≠ '/'
    let absolute := m.head?.any (·.1 = '/')
    let found := matchingPaths sh.files (parts.length + 1) (if absolute then "/" else "")
      (if absolute then [] else sh.cwd) parts
    if found.isEmpty then [plainText m] else found
  else [plainText m]

end Testplan.Script
