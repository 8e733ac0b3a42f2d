import Testplan.CommandLine
/-!
# The program

Reads the files that a command names, performs the command, and writes what it left
behind.  Its host starts no programs: as far as the command can see, there are none.
-/
namespace Testplan

/-- The names after the opening of a placeholder in a text. -/
def namesIn (text : String) : List String :=
  ((text.splitOn "$\x7b").drop 1).map fun s => (s.takeWhile fun c => c ≠ '\x7d').toString

/-- The variables of the process with the given names. -/
def readVariables (names : List String) : IO Variables :=
  names.foldlM (fun t name => do
    match ← IO.getEnv name with
    | some value => return t.insert name value
    | none => return t) .empty

/-- The files with the given paths, as far as they can be read. -/
def readFiles (cwd : Place) (start : FileTree) (paths : List String) : IO FileTree :=
  paths.foldlM (fun t (path : String) => do
    try
      let content ← IO.FS.readFile path
      match t.makeParent? cwd path with
      | .ok t => return (t.write? cwd path content).getD t
      | .error _ => return t
    catch _ => return t) start

/-- Writes the files of a tree that another has not. -/
def writeFiles (old new : FileTree) : IO Unit :=
  for (place, content) in new.filesBelow [] do
    unless old.file? place = some content do
      IO.FS.createDirAll ("/" ++ Path.ofNames place.dropLast)
      IO.FS.writeFile ("/" ++ Path.ofNames place) content

/-- The identifiers from a random one on. -/
def randomIds : IO IdSource := do
  let bits ← IO.rand 0 (1 <<< 62)
  let more ← IO.rand 0 (1 <<< 62)
  let start := (bits <<< 62 + more) % (1 <<< 122)
  return {
    name := fun n =>
      let m := (start + n) % (1 <<< 122)
      ⟨BitVec.ofNat 128 ((m >>> 74) <<< 80 + 4 <<< 76 + (m >>> 62 % 4096) <<< 64 +
        2 <<< 62 + m % (1 <<< 62))⟩ }

/-- The time: that of a file made now. -/
def readTime : IO Timestamp := do
  let (_, path) ← IO.FS.createTempFile
  let time := (← path.metadata).modified
  IO.FS.removeFile path
  return { seconds := time.sec, nanos := time.nsec.toNat }

end Testplan

open Testplan in
def main (args : List String) : IO UInt32 := do
  match Command.parse? (← readVariables [configVariable]) args with
  | none =>
    IO.eprintln "error"
    return 2
  | some command =>
    let here := (← IO.currentDir).toString
    let cwd := (Path.segments here).filter fun s => !s.isEmpty
    let empty := (FileTree.empty.makeDirectories? [] here).getD .empty
    let files ← readFiles cwd empty command.inputs
    let texts := (files.filesBelow []).map Prod.snd
    let process ← readVariables ("TMPDIR" :: texts.flatMap namesIn)
    let host : Host := { files, cwd, process }
    let p := command.perform { host, time := ← readTime, ids := ← randomIds }
    writeFiles files p.files
    IO.print p.output
    match p.error with
    | none => return 0
    | some message =>
      IO.eprintln ("Error: " ++ message)
      return 1
