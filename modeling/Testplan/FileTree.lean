import Testplan.Path
import Testplan.Roster
import Testplan.TextBlank
/-!
# A tree of files

Rendered tests are written into directories and run there.  A `FileTree` is such a
system of directories: every place, given by the names that lead to it, holds a
directory, a file with a text, or nothing; the root is always a directory.

A directory cannot be made where a file is, and a file cannot be written where a
directory is or where its directory is missing; nothing else goes wrong.  A path is
followed part by part (`locate?`), so that climbing out of a directory needs that
directory to exist.

What the system of directories refuses it explains in a text of its own, which stands at the
end of the messages that report the refusal (`SystemFault`).
-/
namespace Testplan

/-- Why the system refuses. -/
inductive SystemFault where
  /-- There is nothing of that name. -/
  | notFound
  /-- Something of that name is there already. -/
  | alreadyThere
  /-- What should be a directory is none. -/
  | notDirectory
  /-- What should be a file is a directory. -/
  | isDirectory
deriving DecidableEq, Repr

/-- The text of the system. -/
def SystemFault.text : SystemFault → String
  | notFound => "No such file or directory (os error 2)"
  | alreadyThere => "File exists (os error 17)"
  | notDirectory => "Not a directory (os error 20)"
  | isDirectory => "Is a directory (os error 21)"

/-- What a place holds. -/
inductive FileNode where
  | directory
  | file (content : String)
deriving DecidableEq

/-- A place: the names that lead to it from the root. -/
abbrev Place := List String

/-- **A tree of files.** -/
structure FileTree where
  nodes : Roster Place FileNode

namespace FileTree

/-- The tree with nothing but its root. -/
def empty : FileTree := ⟨.empty⟩

instance : Inhabited FileTree := ⟨empty⟩

/-- What a place holds, if anything. -/
def node? (t : FileTree) (p : Place) : Option FileNode :=
  if p.isEmpty then some .directory else t.nodes.get? p

def isDirectory (t : FileTree) (p : Place) : Bool := t.node? p = some .directory

/-- The text of the file at a place. -/
def file? (t : FileTree) (p : Place) : Option String :=
  match t.node? p with
  | some (.file content) => some content
  | _ => none

/-- Puts something at a place other than the root. -/
def put (t : FileTree) (p : Place) (n : FileNode) : FileTree := ⟨t.nodes.insert p n⟩

/-! ## Following paths -/

/-- The place reached from another by the parts of a path.  Every step but the last
must start from a directory. -/
def follow? (t : FileTree) : Place → List Path.Part → Option Place
  | at_, [] => some at_
  | _, .root :: rest => t.follow? [] rest
  | at_, .here :: rest => if t.isDirectory at_ then t.follow? at_ rest else none
  | at_, .above :: rest => if t.isDirectory at_ then t.follow? at_.dropLast rest else none
  | at_, .name s :: rest => if t.isDirectory at_ then t.follow? (at_ ++ [s]) rest else none

/-- The place that a path leads to from the working directory `cwd`. -/
def locate? (t : FileTree) (cwd : Place) (path : String) : Option Place :=
  t.follow? cwd (Path.parts path)

/-- The path leads to a directory. -/
def isDirectoryPath (t : FileTree) (cwd : Place) (path : String) : Bool :=
  (t.locate? cwd path).any t.isDirectory

/-- The text of the file that a path leads to.  A path that ends in a slash leads to
no file. -/
def read? (t : FileTree) (cwd : Place) (path : String) : Option String :=
  if path.isEmpty ∨ path.toList.getLast? = some '/' then none
  else (t.locate? cwd path).bind t.file?

/-! ## Making and writing -/

/-- Makes the directories along the parts of a path; fails where a file is. -/
def makeFrom? (t : FileTree) : Place → List Path.Part → Option (FileTree × Place)
  | at_, [] => some (t, at_)
  | _, .root :: rest => t.makeFrom? [] rest
  | at_, .here :: rest => t.makeFrom? at_ rest
  | at_, .above :: rest => t.makeFrom? at_.dropLast rest
  | at_, .name s :: rest =>
    let next := at_ ++ [s]
    match t.node? next with
    | some .directory => t.makeFrom? next rest
    | some (.file _) => none
    | none => (t.put next .directory).makeFrom? next rest

/-- Makes a directory and those above it. -/
def makeDirectories? (t : FileTree) (cwd : Place) (path : String) : Option FileTree :=
  (t.makeFrom? cwd (Path.parts path)).map Prod.fst

/-- Writes a file; its directory must be there. -/
def write? (t : FileTree) (cwd : Place) (path content : String) : Option FileTree := do
  if path.isEmpty ∨ path.toList.getLast? = some '/' then none
  let place ← t.locate? cwd path
  if t.isDirectory place then none
  else some (t.put place (.file content))

/-! ## Removing -/

/-- Removes a place with everything below it. -/
def removeAll (t : FileTree) (p : Place) : FileTree :=
  ⟨(t.nodes.keys.filter fun q => p.isPrefixOf q).foldl Roster.erase t.nodes⟩

/-- Something lies below a place. -/
def hasEntries (t : FileTree) (p : Place) : Bool :=
  t.nodes.keys.any fun q => p.isPrefixOf q && p.length < q.length

/-- Removes a directory if it is empty. -/
def removeIfEmpty (t : FileTree) (p : Place) : FileTree :=
  if t.isDirectory p && !t.hasEntries p then ⟨t.nodes.erase p⟩ else t

/-! ## Listing -/

/-- The files below a place, each with the names that lead to it from there. -/
def filesBelow (t : FileTree) (p : Place) : List (Place × String) :=
  t.nodes.entries.filterMap fun (q, n) =>
    match n with
    | .file content => if p.isPrefixOf q then some (q.drop p.length, content) else none
    | .directory => none

/-- The names in a directory, in the order of code points. -/
def namesIn (t : FileTree) (p : Place) : List String :=
  (t.nodes.keys.filterMap fun q =>
    if p.isPrefixOf q && q.length = p.length + 1 then q.getLast? else none).mergeSort
    fun a b => decide (a ≤ b)

end FileTree

end Testplan
