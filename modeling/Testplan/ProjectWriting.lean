import Testplan.FileTree
import Testplan.Rendering
/-!
# Writing rendered projects

`FileTree.writeProject` writes the files of a rendering and its manifest below a
directory, which it makes, and then looks whether all of them are there.  A file that
was sent elsewhere, by an absolute path or by a path that climbs, is not.  The look goes
through a listing of the directory, whose paths never start with a dot as the path of the
directory may: below a directory that is given with such a dot, nothing is found.

What was written before an error stays.
-/
namespace Testplan

/-- Why a project could not be written. -/
inductive WriteError where
  /-- A directory cannot be made. -/
  | directory (path : String) (fault : SystemFault)
  /-- A file cannot be written. -/
  | file (path : String)
  /-- The manifest cannot be written. -/
  | manifest (root : String)
  /-- These files are not below the directory. -/
  | missing (paths : List String)
deriving DecidableEq, Repr

/-- The wording of the error. -/
def WriteError.message : WriteError → String
  | directory path _ => "디렉터리 생성 실패: " ++ path
  | file path => "파일 쓰기 실패: " ++ path
  | manifest root => "매니페스트 쓰기 실패: " ++ root
  | missing paths => "렌더링 산출물 누락: " ++ ", ".intercalate paths

/-- The wording of the error with what the system says about it. -/
def WriteError.report (e : WriteError) : String :=
  match e with
  | directory _ fault => e.message ++ ": " ++ fault.text
  | file _ | manifest _ => e.message ++ ": " ++ SystemFault.isDirectory.text
  | missing _ => e.message

namespace FileTree

/-- Why a directory cannot be made: a file has its name, or the name of a directory
above it. -/
def directoryError (t : FileTree) (cwd : Place) (path : String) : WriteError :=
  .directory path
    (if (t.locate? cwd path).any fun p => (t.file? p).isSome then .alreadyThere
      else .notDirectory)

/-- Makes the directory of a path. -/
def makeParent? (t : FileTree) (cwd : Place) (path : String) : Except WriteError FileTree :=
  match Path.parent? path with
  | none => .ok t
  | some parent =>
    match t.makeDirectories? cwd parent with
    | some t => .ok t
    | none => .error (t.directoryError cwd parent)

/-- Writes files below a directory, each with its own directory.  Gives the tree after
the last file that could be written, and what went wrong with the next. -/
def writeFiles (t : FileTree) (cwd : Place) (root : String) :
    List RenderedFile → FileTree × Option WriteError
  | [] => (t, none)
  | f :: rest =>
    let path := Path.join root f.path
    match t.makeParent? cwd path with
    | .error e => (t, some e)
    | .ok t =>
      match t.write? cwd path f.content with
      | none => (t, some (.file path))
      | some t => t.writeFiles cwd root rest

/-- The paths of the files that a listing of a directory finds. -/
def listed (t : FileTree) (cwd : Place) (root : String) : List (List Path.Part) :=
  if (Path.parts root).head? = some .here then []
  else match t.locate? cwd root with
    | none => []
    | some place => (t.filesBelow place).map fun f => f.1.map Path.Part.name

/-- The paths of a list that no file below a directory has. -/
def missingBelow (t : FileTree) (cwd : Place) (root : String) (paths : List String) :
    List String :=
  paths.filter fun p => Path.parts p ∉ t.listed cwd root

/-- **Writes a project.**  Gives the tree afterwards, and what went wrong. -/
def writeProject (t : FileTree) (cwd : Place) (root : String) (files : List RenderedFile)
    (manifest : Manifest) : FileTree × Option WriteError :=
  match t.makeDirectories? cwd root with
  | none => (t, some (t.directoryError cwd root))
  | some t =>
    match t.writeFiles cwd root files with
    | (t, some e) => (t, some e)
    | (t, none) =>
      match t.write? cwd (Path.join root manifestPath) manifest.text with
      | none => (t, some (.manifest root))
      | some t =>
        let missing := t.missingBelow cwd root (files.map RenderedFile.path ++ [manifestPath])
        (t, if missing.isEmpty then none else some (.missing missing))

/-- The first of several directories that is there, each joined to a directory; the
last if none is, and the directory itself if there are none. -/
def artifactRoot (t : FileTree) (cwd : Place) (directory : String) (candidates : List String) :
    String :=
  let paths := candidates.map (Path.join directory)
  ((paths.find? fun p => t.isDirectoryPath cwd p) <|> paths.getLast?).getD directory

end FileTree

end Testplan
