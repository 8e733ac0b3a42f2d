import Testplan.Script.Shell
/-!
# Programs of the system

The common programs that tool scripts use, as far as scripts use them.  `find?` finds a
program: a script in a file that the search path leads to, or one of these.
-/
namespace Testplan.Script

/-! ## Finding programs -/

/-- The directories of the system's programs. -/
def systemDirectories : List String := ["/usr/bin", "/bin"]

/-- The programs of the system that can be run. -/
def systemPrograms : List String :=
  ["sh", "bash", "dash", "cat", "ls", "sleep", "env", "printenv", "seq", "mkdir", "touch", "rm",
    "cp", "mv", "basename", "dirname", "head", "tail", "wc", "tr", "sort", "uniq", "tee", "yes",
    "true", "false", "echo", "printf", "pwd", "test", "[", "kill", "grep"]

/-- The search path where none is given. -/
def defaultPath : String := "/usr/local/bin:/usr/bin:/bin"

/-- A program that was found at a path. -/
inductive Executable where
  | script (path text : String)
  | system (path name : String)

/-- Finds a program by its name or path. -/
def find? (files : FileTree) (cwd : Place) (searchPath : String) (program : String) :
    Option Executable :=
  let at? (path : String) : Option Executable :=
    match files.read? cwd path with
    | some text => some (.script path text)
    | none => match Path.parent? path, Path.fileName? path with
      | some d, some n =>
        if d ∈ systemDirectories ∧ n ∈ systemPrograms then some (.system path n) else none
      | _, _ => none
  if program.isEmpty then none
  else if program.toList.contains '/' then at? program
  else ((Text.splitAll (· = ':') searchPath.toList).map String.ofList).findSome? fun d =>
    at? (Path.join d program)

/-- Finds a program as a shell does. -/
def Shell.find? (sh : Shell) (program : String) : Option Executable :=
  Script.find? sh.files sh.cwd ((sh.vars.get? "PATH").getD defaultPath) program

/-- The path at which a program was found. -/
def Executable.path : Executable → String
  | script path _ | system path _ => path

/-! ## Input and output -/

/-- The lines of a text; what follows the last line end is a line if there is anything. -/
def linesOf (bytes : List UInt8) : List (List UInt8) :=
  let pieces := bytes.splitBy fun a _ => a ≠ 10
  pieces.map fun l => if l.getLast? = some 10 then l.dropLast else l

/-- Lines as a text. -/
def joinLines (lines : List (List UInt8)) : List UInt8 := lines.flatMap (· ++ [10])

/-- The text of bytes. -/
def textOf (bytes : List UInt8) : String := (String.fromUTF8? ⟨bytes.toArray⟩).getD ""

/-- The bytes of a file, or of the input for a hyphen. -/
def contents? (path : String) : Act (Option (List UInt8)) := do
  let sh ← get
  if path = "-" || path = "/dev/stdin" then return some sh.input
  else if path = "/dev/null" then return some []
  else return (sh.files.read? sh.cwd path).map bytesOf

/-- What several files hold, or the input if none is named. -/
def concatenated (program : String) (paths : List String) : Act (List UInt8 × Nat) := do
  if paths.isEmpty then return ((← get).input, 0)
  else
    let mut all := []
    let mut status := 0
    for path in paths do
      match ← contents? path with
      | some bytes => all := all ++ bytes
      | none =>
        complain (program ++ ": " ++ path ++ ": No such file or directory")
        status := 1
    return (all, status)

/-! ## Tests -/

/-- The tests of one operand. -/
def unaryTests : List String :=
  ["-n", "-z", "-e", "-f", "-d", "-r", "-w", "-x", "-s", "-h", "-L", "-t"]

/-- The outcome of a test, or what is wrong with it. -/
def condition (sh : Shell) : Nat → List String → Except String Bool
  | 0, _ => return false
  | fuel + 1, args =>
    let node (path : String) : Option FileNode :=
      if path = "/dev/null" then some (.file "")
      else (sh.files.locate? sh.cwd path).bind sh.files.node?
    let number (s : String) : Except String Int := match (Text.strip s).toInt? with
      | some n => return n
      | none => throw ("Illegal number: " ++ s)
    let compare (a b : String) (p : Int → Int → Bool) : Except String Bool := do
      return p (← number a) (← number b)
    let negated (args : List String) : Except String Bool := not <$> condition sh fuel args
    match args with
    | [] => return false
    | ["!", a] => negated [a]
    | [a] => return !a.isEmpty
    | ["-n", a] => return !a.isEmpty
    | ["-z", a] => return a.isEmpty
    | ["-f", a] => return (node a).any fun n => n ≠ .directory && a ≠ "/dev/null"
    | ["-d", a] => return node a = some .directory
    | ["-s", a] => return (node a).any fun n => n ≠ .file ""
    | ["-e", a] | ["-r", a] | ["-w", a] | ["-x", a] =>
      return (node a).isSome || (find? sh.files sh.cwd "" a).isSome
    | ["-h", _] | ["-L", _] | ["-t", _] => return false
    | [a, "=", b] => return a = b
    | [a, "!=", b] => return a ≠ b
    | [a, "<", b] => return a < b
    | [a, ">", b] => return b < a
    | [a, "-eq", b] => compare a b (· = ·)
    | [a, "-ne", b] => compare a b (· ≠ ·)
    | [a, "-lt", b] => compare a b (· < ·)
    | [a, "-le", b] => compare a b (· ≤ ·)
    | [a, "-gt", b] => compare a b (· > ·)
    | [a, "-ge", b] => compare a b (· ≥ ·)
    | ["(", a, ")"] => condition sh fuel [a]
    | args =>
      match args.findIdx? (· = "-o"), args.findIdx? (· = "-a"), args with
      | some i, _, _ => do
        return (← condition sh fuel (args.take i)) || (← condition sh fuel (args.drop (i + 1)))
      | none, some i, _ => do
        return (← condition sh fuel (args.take i)) && (← condition sh fuel (args.drop (i + 1)))
      | none, none, "!" :: rest => negated rest
      | none, none, "(" :: rest =>
        if rest.getLast? = some ")" then condition sh fuel rest.dropLast
        else throw "closing paren expected"
      | none, none, a :: b :: _ =>
        throw ((if a ∈ unaryTests then b else a) ++ ": unexpected operator")
      | none, none, _ => return false

/-- The status of a test. -/
def testStatus (program : String) (args : List String) : Act Nat := do
  match condition (← get) (args.length + 2) args with
  | .ok true => return 0
  | .ok false => return 1
  | .error message =>
    complainHere (program ++ ": " ++ message)
    return 2

/-! ## Signals -/

/-- The signals that have names, with what is said of a process that one has ended. -/
def signals : List (String × Nat × String) :=
  [("HUP", 1, "Hangup"), ("INT", 2, ""), ("QUIT", 3, "Quit"), ("ABRT", 6, "Aborted"),
    ("KILL", 9, "Killed"), ("USR1", 10, "User defined signal 1"),
    ("SEGV", 11, "Segmentation fault"), ("USR2", 12, "User defined signal 2"), ("PIPE", 13, ""),
    ("ALRM", 14, "Alarm clock"), ("TERM", 15, "Terminated")]

/-- The number of a signal; the end of the shell counts as one with the number zero. -/
def signalNumber? (s : String) : Option Nat :=
  let s := if s.startsWith "SIG" then String.ofList (s.toList.drop 3) else s
  if s = "EXIT" then some 0
  else match signals.lookup s with
    | some (n, _) => some n
    | none => s.toNat?

/-- Says that a signal has ended a process. -/
def complainOfSignal (signal : Nat) : Act Unit :=
  match signals.find? fun s => s.2.1 = signal with
  | some (_, _, text) => if text.isEmpty then pure () else complain text
  | none => pure ()

/-- The signal that `kill` is asked to send, and to whom. -/
def signalAndTargets? : List String → Option (Nat × List String)
  | "-s" :: s :: rest => (signalNumber? s).map fun n => (n, rest)
  | a :: rest =>
    if a.startsWith "-" then do
      return (← signalNumber? (String.ofList (a.toList.drop 1)), rest)
    else some (15, a :: rest)
  | [] => none

/-! ## The programs -/

/-- The milliseconds that `sleep` is asked for. -/
def milliseconds? (s : String) : Option Nat := do
  let (whole, rest) := match Text.cutAtChar '.' s.toList with
    | some (a, b) => (a, b)
    | none => (s.toList, [])
  let rest := rest.filter fun c => c ≠ 's'
  let whole := whole.filter fun c => c ≠ 's'
  if (whole ++ rest).isEmpty ∨ !(whole ++ rest).all Char.isDigit then none
  else
    let digits := whole ++ (rest ++ ['0', '0', '0']).take 3
    some (digits.foldl (fun n c => 10 * n + (c.toNat - '0'.toNat)) 0)

/-- The whole numbers from one to another by steps. -/
def countFrom (first step last : Int) : List String :=
  let count := if step = 0 then 0 else (last - first).tdiv step + 1
  let fits := if 0 < step then first ≤ last else last ≤ first
  if fits then (List.range count.toNat).map fun (n : Nat) => toString (first + n * step) else []

/-- The characters that a set of `tr` stands for. -/
def setOf : Nat → List Char → List UInt8
  | 0, _ => []
  | _, [] => []
  | fuel + 1, '\\' :: rest =>
    let (here, rest) := escapeBytes rest
    here ++ setOf fuel rest
  | fuel + 1, a :: '-' :: b :: rest =>
    ((List.range (b.toNat + 1 - a.toNat)).map fun n => UInt8.ofNat (a.toNat + n)) ++ setOf fuel rest
  | fuel + 1, c :: rest => bytesOf (String.singleton c) ++ setOf fuel rest

/-- The bytes with those of one set replaced by those of another, whose last stands for
all that it has not. -/
def translated (old new : List UInt8) (bytes : List UInt8) : List UInt8 :=
  bytes.map fun b => match old.idxOf? b with
    | some i => (new[i]? <|> new.getLast?).getD b
    | none => b

/-- The lines in order. -/
def sortedLines (options : List String) (lines : List (List UInt8)) : List (List UInt8) :=
  let has (c : Char) : Bool := options.any fun o => o.toList.contains c
  let lines :=
    if has 'n' then lines.mergeSort fun a b => leadingInt (textOf a) ≤ leadingInt (textOf b)
    else lines.mergeSort fun a b => decide (a ≤ b)
  let lines := if has 'u' then lines.eraseReps else lines
  if has 'r' then lines.reverse else lines

/-- What `head` or `tail` is asked for: a count, of bytes or else of lines, and files. -/
def countAndPaths (args : List String) : Bool × Nat × List String :=
  let number (s : List Char) : Nat := ((String.ofList s).toNat?).getD 10
  match args with
  | "-n" :: n :: rest => (false, number n.toList, rest)
  | "-c" :: n :: rest => (true, number n.toList, rest)
  | a :: rest => match a.toList with
    | '-' :: 'n' :: ds => (false, number ds, rest)
    | '-' :: 'c' :: ds => (true, number ds, rest)
    | '-' :: ds => (false, number ds, rest)
    | _ => (false, 10, a :: rest)
  | [] => (false, 10, [])

/-- How many lines stand for output without end. -/
def endlessLines : Nat := 100000

/-- Copies a file; tells whether it can. -/
def copyFile (program source target : String) : Act Bool := do
  let sh ← get
  let target :=
    if sh.files.isDirectoryPath sh.cwd target then
      Path.join target ((Path.fileName? source).getD source)
    else target
  match (sh.files.read? sh.cwd source).bind fun text => sh.files.write? sh.cwd target text with
  | some files =>
    set { sh with files }
    return true
  | none =>
    complain (program ++ ": cannot stat '" ++ source ++ "': No such file or directory")
    return false

/-- Removes a file or directory. -/
def removePath (path : String) : Act Bool := do
  let sh ← get
  match (sh.files.locate? sh.cwd path).filter fun p => (sh.files.node? p).isSome with
  | some p =>
    set { sh with files := sh.files.removeAll p }
    return true
  | none => return false

/-- Runs a program of the system; nothing if it is no simple one. -/
def systemProgram (name : String) (args : List String) : Act (Option Nat) := do
  let options := args.filter fun a => a.startsWith "-" && 1 < a.length
  let operands := args.filter fun a => !(a.startsWith "-" && 1 < a.length)
  let has (c : Char) : Bool := options.any fun o => o.toList.contains c
  let sh ← get
  match name, args with
  | "true", _ => return some 0
  | "false", _ => return some 1
  | "echo", args =>
    emit 1 (echoText args)
    return some 0
  | "printf", args =>
    match if args.head? = some "--" then args.drop 1 else args with
    | [] =>
      complainHere "printf: usage: printf format [arg ...]"
      return some 2
    | format :: args =>
      let out := printed format args
      emit 1 out.bytes
      for c in out.complaints do complainHere ("printf: " ++ c)
      return some (if out.complaints.isEmpty then 0 else if out.ended then 2 else 1)
  | "pwd", _ =>
    say (pathOf sh.cwd ++ "\n")
    return some 0
  | "test", args => return some (← testStatus name args)
  | "[", args =>
    if args.getLast? = some "]" then return some (← testStatus name args.dropLast)
    else
      complainHere "[: missing ]"
      return some 2
  | "cat", _ =>
    let (bytes, status) ← concatenated "cat" operands
    emit 1 bytes
    return some status
  | "head", args | "tail", args =>
    let (inBytes, count, paths) := countAndPaths args
    if inBytes && paths = ["/dev/zero"] then
      emit 1 (List.replicate count 0)
      return some 0
    else
      let (bytes, status) ← concatenated name paths
      if inBytes then
        emit 1 (if name = "head" then bytes.take count else bytes.drop (bytes.length - count))
      else
        let ls := linesOf bytes
        let kept := if name = "head" then ls.take count else ls.drop (ls.length - count)
        let whole := bytes.getLast? = some 10 || kept.length < ls.length && name = "head"
        emit 1 (if whole then joinLines kept else (joinLines kept).dropLast)
      return some status
  | "wc", _ =>
    let (bytes, status) ← concatenated "wc" operands
    let n := if has 'l' then bytes.count 10
      else if has 'w' then (Text.words (textOf bytes).toList).length
      else bytes.length
    say (" ".intercalate (toString n :: operands) ++ "\n")
    return some status
  | "tr", _ =>
    let sets := operands.map fun s => setOf (s.length + 1) s.toList
    match sets with
    | [old] => emit 1 (sh.input.filter fun b => b ∉ old)
    | old :: new :: _ => emit 1 (translated old new sh.input)
    | [] => pure ()
    return some 0
  | "sort", _ =>
    let (bytes, status) ← concatenated "sort" operands
    emit 1 (joinLines (sortedLines options (linesOf bytes)))
    return some status
  | "uniq", _ =>
    let (bytes, status) ← concatenated "uniq" operands
    emit 1 (joinLines (linesOf bytes).eraseReps)
    return some status
  | "tee", _ =>
    for path in operands do
      let sh ← get
      let old := if has 'a' then (sh.files.read? sh.cwd path).getD "" else ""
      match sh.files.write? sh.cwd path (old ++ textOf sh.input) with
      | some files => set { sh with files }
      | none => complain ("tee: " ++ path ++ ": No such file or directory")
    emit 1 (← get).input
    return some 0
  | "yes", _ =>
    let line := bytesOf ((if operands.isEmpty then "y" else " ".intercalate operands) ++ "\n")
    emit 1 (List.replicate endlessLines line).flatten
    return some 0
  | "grep", _ =>
    match operands with
    | [] => return some 2
    | pattern :: paths =>
      let (bytes, status) ← concatenated "grep" paths
      let atStart := pattern.startsWith "^"
      let pattern := if atStart then String.ofList (pattern.toList.drop 1) else pattern
      let found := (linesOf bytes).filter fun l =>
        (if atStart then (textOf l).startsWith pattern else Text.contains (textOf l) pattern)
          != has 'v'
      if has 'c' then say (toString found.length ++ "\n")
      else if !has 'q' then emit 1 (joinLines found)
      return some (if status ≠ 0 then 2 else if found.isEmpty then 1 else 0)
  | "ls", _ =>
    let paths := if operands.isEmpty then ["."] else operands
    let mut status := 0
    for path in paths do
      match (sh.files.locate? sh.cwd path).bind fun p => (sh.files.node? p).map fun n => (p, n) with
      | none =>
        complain ("ls: cannot access '" ++ path ++ "': No such file or directory")
        status := 2
      | some (_, .file _) => say (path ++ "\n")
      | some (p, .directory) =>
        let names := (sh.files.namesIn p).filter fun n => has 'a' || has 'A' || !n.startsWith "."
        say (String.join (names.map (· ++ "\n")))
    return some status
  | "sleep", _ =>
    match operands.mapM milliseconds? with
    | some ns =>
      set { sh with time := ns.foldl (· + ·) sh.time }
      return some 0
    | none =>
      complain ("sleep: invalid time interval '" ++ " ".intercalate operands ++ "'")
      complain "Try 'sleep --help' for more information."
      return some 1
  | "printenv", _ | "env", [] =>
    let vars := handedOn sh
    match operands with
    | [] =>
      say (String.join (vars.entries.map fun (k, v) => k ++ "=" ++ v ++ "\n"))
      return some 0
    | name :: _ => match vars.get? name with
      | some v =>
        say (v ++ "\n")
        return some 0
      | none => return some 1
  | "seq", _ =>
    let numbers := match args.map leadingInt with
      | [n] => countFrom 1 1 n
      | [m, n] => countFrom m 1 n
      | [m, step, n] => countFrom m step n
      | _ => []
    say (String.join (numbers.map (· ++ "\n")))
    return some 0
  | "mkdir", _ =>
    let mut status := 0
    for path in operands do
      let sh ← get
      let known := !has 'p' && ((sh.files.locate? sh.cwd path).bind sh.files.node?).isSome
      match if known then none else sh.files.makeDirectories? sh.cwd path with
      | some files => set { sh with files }
      | none =>
        complain ("mkdir: cannot create directory '" ++ path ++ "': File exists")
        status := 1
    return some status
  | "touch", _ =>
    for path in operands do
      let sh ← get
      match sh.files.read? sh.cwd path, sh.files.write? sh.cwd path "" with
      | none, some files => set { sh with files }
      | _, _ => pure ()
    return some 0
  | "rm", _ =>
    let mut status := 0
    for path in operands do
      if !(← removePath path) && !has 'f' then
        complain ("rm: cannot remove '" ++ path ++ "': No such file or directory")
        status := 1
    return some status
  | "cp", _ | "mv", _ =>
    let target := operands.getLast?.getD ""
    let mut status := 0
    for source in operands.dropLast do
      if ← copyFile name source target then
        if name = "mv" then let _ ← removePath source
      else status := 1
    return some status
  | "basename", path :: rest =>
    let base := (Path.fileName? path).getD path
    let base := match rest with
      | suffix :: _ =>
        if base.endsWith suffix then String.ofList (base.toList.take (base.length - suffix.length))
        else base
      | [] => base
    say (base ++ "\n")
    return some 0
  | "dirname", path :: _ =>
    let parent := match Path.parent? path with
      | some "" | none => "."
      | some p => p
    say (parent ++ "\n")
    return some 0
  | _, _ => return none

end Testplan.Script
