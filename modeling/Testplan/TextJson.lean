import Testplan.TextPrintable
/-!
# JSON literals and the JSON files of generated projects

A string enters generated code as a JSON string literal (`Text.jsonLiteral`):
quotes, backslashes and controls are escaped and every other character stands as
it is, so the literal never holds a line break.

A generated project also holds small JSON files, which are values of `JsonFile`
written by `JsonFile.pretty`: two spaces per level, one member per line, empty
lists and objects without a line break.
-/
namespace Testplan

namespace Text

/-- `n` as four hexadecimal digits. -/
def hexFour (n : Nat) : List Char :=
  let digits := hex n
  List.replicate (4 - digits.length) '0' ++ digits

/-- One character of a JSON string. -/
def jsonChar (c : Char) : List Char :=
  if c = '"' then ['\\', '"']
  else if c = '\\' then ['\\', '\\']
  else if c = '\x08' then ['\\', 'b']
  else if c = '\t' then ['\\', 't']
  else if c = '\n' then ['\\', 'n']
  else if c = '\x0c' then ['\\', 'f']
  else if c = '\r' then ['\\', 'r']
  else if c.toNat < 0x20 then ['\\', 'u'] ++ hexFour c.toNat
  else [c]

/-- A JSON string literal. -/
def jsonLiteral (s : String) : String :=
  String.ofList ('"' :: s.toList.flatMap jsonChar ++ ['"'])

end Text

/-- **A JSON file of a generated project.** -/
inductive JsonFile where
  | text (s : String)
  | number (n : Nat)
  | flag (b : Bool)
  | list (items : List JsonFile)
  | object (members : List (String × JsonFile))

namespace JsonFile

/-- `level` steps of indentation. -/
def indent (level : Nat) : String := String.ofList (List.replicate (2 * level) ' ')

mutual

/-- A value whose continuation lines are indented by `level` steps. -/
def prettyAt (level : Nat) : JsonFile → String
  | text s => Text.jsonLiteral s
  | number n => toString n
  | flag b => if b then "true" else "false"
  | list [] => "[]"
  | list (v :: vs) =>
    "[\n" ++ ",\n".intercalate (itemLines (level + 1) (v :: vs)) ++ "\n" ++ indent level ++ "]"
  | object [] => "\x7b\x7d"
  | object (m :: ms) =>
    "\x7b\n" ++ ",\n".intercalate (memberLines (level + 1) (m :: ms)) ++ "\n" ++
      indent level ++ "\x7d"

/-- The items of a list, indented. -/
def itemLines (level : Nat) : List JsonFile → List String
  | [] => []
  | v :: vs => (indent level ++ prettyAt level v) :: itemLines level vs

/-- The members of an object, indented. -/
def memberLines (level : Nat) : List (String × JsonFile) → List String
  | [] => []
  | (key, v) :: ms =>
    (indent level ++ Text.jsonLiteral key ++ ": " ++ prettyAt level v) :: memberLines level ms

end

/-- The text of the file, without a final line break. -/
def pretty (v : JsonFile) : String := prettyAt 0 v

end JsonFile

end Testplan
