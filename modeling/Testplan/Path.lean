import Testplan.TextCut
/-!
# Paths

A path is a text whose parts are separated by slashes.  `Path.parts` lists the
parts that count: empty parts and dots between slashes do not, except for a dot at
the very start.  Two paths are the same exactly when their parts are.

`Path.contained?` gives the names along a relative path that never climbs: such a
path stays below whatever directory it is joined to.
-/
namespace Testplan

namespace Path

/-- A part of a path. -/
inductive Part where
  /-- The slash at the start of an absolute path. -/
  | root
  /-- The dot at the start of a relative path. -/
  | here
  /-- Two dots: the directory above. -/
  | above
  | name (s : String)
deriving DecidableEq, Repr

/-- The texts between the slashes. -/
def segments (path : String) : List String :=
  (Text.splitAll (· = '/') path.toList).map String.ofList

/-- The part that a text between slashes stands for, if it counts. -/
def partOf? (segment : String) : Option Part :=
  if segment.isEmpty ∨ segment = "." then none
  else if segment = ".." then some .above
  else some (.name segment)

/-- The path starts with a slash. -/
def isAbsolute (path : String) : Bool := path.toList.head? = some '/'

/-- **The parts of a path.** -/
def parts (path : String) : List Part :=
  let rest := (segments path).filterMap partOf?
  if isAbsolute path then .root :: rest
  else if (segments path).head? = some "." then .here :: rest
  else rest

/-- One path followed from another; an absolute path replaces what is before it. -/
def join (base path : String) : String :=
  if isAbsolute path ∨ base.isEmpty then path
  else if base.toList.getLast? = some '/' then base ++ path
  else base ++ "/" ++ path

/-- A list of segments without those at the end that do not count. -/
def dropIdle (reversed : List String) : List String :=
  reversed.dropWhile fun s => s.isEmpty || s = "."

/-- The path without its last part; nothing for the root and the empty path. -/
def parent? (path : String) : Option String :=
  match parts path with
  | [] => none
  | [.root] => none
  | _ :: [] => some ""
  | .root :: _ :: [] => some "/"
  | .here :: _ :: [] => some "."
  | _ =>
    let kept := dropIdle ((dropIdle (segments path).reverse).drop 1)
    some ("/".intercalate kept.reverse)

/-- The names along a relative path that never climbs and goes somewhere. -/
def contained? (path : String) : Option (List String) :=
  let names := (parts path).filterMap fun
    | .name s => some s
    | _ => none
  if (parts path).any (fun p => p = .root || p = .above) || names.isEmpty then none
  else some names

/-- The last name of a path, unless it ends by climbing. -/
def fileName? (path : String) : Option String :=
  match (parts path).getLast? with
  | some (.name s) => some s
  | _ => none

/-- What follows the last dot of a file name; a dot at the start does not count. -/
def extension? (path : String) : Option String := do
  let name ← fileName? path
  let reversed := name.toList.reverse
  let (suffix, before) ← Text.cutAtChar '.' reversed
  if before.isEmpty then none else some (String.ofList suffix.reverse)

/-- The path with the given names. -/
def ofNames (names : List String) : String := "/".intercalate names

end Path

end Testplan
