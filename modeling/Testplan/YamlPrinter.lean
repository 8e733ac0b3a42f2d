import Testplan.YamlReader
/-!
# Writing documents as YAML

`Document.toYaml` writes a document in block style: a member or item a line, the
members of a mapping two columns further right than the mapping itself, the items of a
list in the column of the key they belong to.  Empty collections are written `[]` and
`{}`.

A text is written as a plain scalar if that reads back as this text; a text that would
read back as something else, such as `12` or `a: b`, in single quotes; a text of
several lines as a literal block; and what none of these can hold in double quotes with
escapes.
-/
namespace Testplan.Yaml

/-! ## What a text contains -/

/-- A character that is written as it is. -/
def isVisible (c : Char) : Bool :=
  let n := c.toNat
  n == 0x0A || (0x20 ≤ n && n ≤ 0x7E) || (0xA0 ≤ n && n ≠ 0xFEFF && n ≠ 0xFFFE && n ≠ 0xFFFF)

/-- A character that ends a word: white space, or the null character. -/
def isEdge (c : Char) : Bool := isSpace c || isBreak c || c = '\x00'

/-- A word ends where the text does. -/
def edgeNext (cs : List Char) : Bool := cs.head?.all isEdge

/-- A colon at the end of a word, or a number sign at the start of one; `before` is the
character before. -/
def marksInside (before : Char) : List Char → Bool
  | [] => false
  | c :: rest =>
    (c = ':' && edgeNext rest) || (c = '#' && isEdge before) || marksInside c rest

/-- The text would not be a plain scalar in block style. -/
def hasIndicators : List Char → Bool
  | [] => false
  | '-' :: '-' :: '-' :: _ | '.' :: '.' :: '.' :: _ => true
  | c :: rest =>
    (if c = '-' || c = '?' || c = ':' then edgeNext rest else isIndicator c) ||
      marksInside c rest

/-- A character that satisfies `p` stands before one that satisfies `q`. -/
def hasPair (p q : Char → Bool) : List Char → Bool
  | c :: d :: rest => (p c && q d) || hasPair p q (d :: rest)
  | _ => false

/-- A space or line break. -/
def isGap (c : Char) : Bool := c = ' ' || isBreak c

/-- A plain scalar can hold the text. -/
def fitsPlain (cs : List Char) : Bool :=
  cs.all isVisible && !cs.any isBreak && !hasIndicators cs &&
    !cs.head?.any isGap && !cs.getLast?.any isGap

/-- Single quotes can hold the text. -/
def fitsSingle (cs : List Char) : Bool :=
  cs.all isVisible && !hasPair isBreak (· = ' ') cs && !hasPair (· = ' ') isBreak cs

/-- A block scalar can hold the text. -/
def fitsBlock (cs : List Char) : Bool :=
  cs.all isVisible && !hasPair (· = ' ') isBreak cs && cs.getLast? ≠ some ' '

/-- A plain scalar of this text would be read as something that is no text. -/
def isAmbiguous (s : String) : Bool :=
  let unsigned := match s.toList with
    | '-' :: rest | '+' :: rest => rest
    | cs => cs
  let negative : Option Nat := match s.toList with
    | '-' :: '+' :: _ => none
    | '-' :: rest => (Document.naturalOf? (String.ofList rest)).filter (· ≤ 1 <<< 127)
    | _ => none
  Document.isNullText s || ((Document.plain s).asBool?).isSome ||
    ((Document.naturalOf? s).filter (· < 1 <<< 128)).isSome || negative.isSome ||
    (unsigned.head? = some '0' && 1 < unsigned.length && unsigned.all Char.isDigit) ||
    (Document.floatOf? s).isSome

/-! ## Scalars -/

/-- The way a text is written. -/
inductive ScalarStyle where
  | plain
  | single
  | double
  | literal
deriving DecidableEq

/-- The way in which a text is written. -/
def ScalarStyle.ofText (s : String) : ScalarStyle :=
  let cs := s.toList
  if cs.contains '\n' then if fitsBlock cs then .literal else .double
  else if fitsPlain cs && !isAmbiguous s then .plain
  else if fitsSingle cs then .single
  else .double

/-- Spaces up to a column. -/
def pad (column : Nat) : String := "".pushn ' ' column

/-- Puts the lines after the first at a column; the breaks here are no line feeds. -/
def indentLines (column : Nat) : List Char → List Char
  | [] => []
  | c :: rest =>
    if isBreak c && !rest.head?.any isBreak then
      c :: (List.replicate column ' ' ++ indentLines column rest)
    else c :: indentLines column rest

/-- The text in single quotes, a quote written twice. -/
def singleQuoted (column : Nat) (s : String) : String :=
  "'" ++ Text.replaceAll (String.ofList (indentLines column s.toList)) "'" "''" ++ "'"

/-- The escape of a character in double quotes, after the backslash. -/
def escapeName (c : Char) : String :=
  let n := c.toNat
  let padded (width : Nat) : String :=
    String.ofList (Nat.toDigits 16 n |>.map Char.toUpper |> fun ds =>
      List.replicate (width - ds.length) '0' ++ ds)
  match n with
  | 0x00 => "0"
  | 0x07 => "a"
  | 0x08 => "b"
  | 0x09 => "t"
  | 0x0A => "n"
  | 0x0B => "v"
  | 0x0C => "f"
  | 0x0D => "r"
  | 0x1B => "e"
  | 0x22 => "\""
  | 0x5C => "\\"
  | 0x85 => "N"
  | 0x2028 => "L"
  | 0x2029 => "P"
  | _ =>
    if n ≤ 0xFF then "x" ++ padded 2
    else if n ≤ 0xFFFF then "u" ++ padded 4
    else "U" ++ padded 8

/-- The text in double quotes. -/
def doubleQuoted (s : String) : String :=
  "\"" ++ String.join (s.toList.map fun c =>
    if isVisible c && !isBreak c && c ≠ '"' && c ≠ '\\' then String.singleton c
    else "\\" ++ escapeName c) ++ "\""

/-- A text of several lines as a block at a column.  The header gives the indentation
where the first line would hide it, and says what becomes of the breaks at the end. -/
def literalBlock (column : Nat) (s : String) : String :=
  let cs := s.toList
  let width := if cs.head?.any isGap then "2" else ""
  let chomping := match cs.reverse with
    | c :: rest =>
      if !isBreak c then "-" else if edgeBreak rest then "+" else ""
    | [] => "-"
  let body := match cs with
    | c :: _ => (if isBreak c then [] else List.replicate column ' ') ++ indentBody cs
    | [] => []
  "|" ++ width ++ chomping ++ "\n" ++ String.ofList body ++
    (if cs.getLast?.any isBreak then "" else "\n")
where
  /-- The text ends here, or with another break. -/
  edgeBreak (before : List Char) : Bool := before.head?.all isBreak
  /-- Puts the lines after the first at the column; an empty line stays empty. -/
  indentBody : List Char → List Char
    | [] => []
    | c :: rest =>
      if isBreak c && rest.head?.any (fun d => !isBreak d) then
        c :: (List.replicate column ' ' ++ indentBody rest)
      else c :: indentBody rest

/-- A text at a column, with the end of its line. -/
def scalarText (column : Nat) (s : String) : String :=
  match ScalarStyle.ofText s with
  | .plain => s ++ "\n"
  | .single => singleQuoted column s ++ "\n"
  | .double => doubleQuoted s ++ "\n"
  | .literal => literalBlock column s

/-- A key: like a text, but on one line. -/
def keyText (s : String) : String :=
  match ScalarStyle.ofText s with
  | .plain => s
  | .single => if s.toList.any isBreak then doubleQuoted s else singleQuoted 0 s
  | .double | .literal => doubleQuoted s

/-! ## Documents -/

mutual

/-- A node whose lines stand at a column, from its first character to the end of its
last line. -/
def node (column : Nat) : Document → String
  | .null => "null\n"
  | .bool b => (if b then "true" else "false") ++ "\n"
  | .int n => toString n ++ "\n"
  | .float x => x.render ++ "\n"
  | .plain s => s ++ "\n"
  | .tagged _ d => node column d
  | .text s => scalarText column s
  | .list [] => "[]\n"
  | .list (item :: more) => "- " ++ node (column + 2) item ++ items column more
  | .map [] => "\x7b\x7d\n"
  | .map ((k, v) :: more) => keyText k ++ ":" ++ value column v ++ members column more

/-- The further items of a list. -/
def items (column : Nat) : List Document → String
  | [] => ""
  | item :: more => pad column ++ "- " ++ node (column + 2) item ++ items column more

/-- The further members of a mapping. -/
def members (column : Nat) : List (String × Document) → String
  | [] => ""
  | (k, v) :: more => pad column ++ keyText k ++ ":" ++ value column v ++ members column more

/-- What follows the colon of a member. -/
def value (column : Nat) (d : Document) : String :=
  match d with
  | .list (item :: more) =>
    "\n" ++ pad column ++ "- " ++ node (column + 2) item ++ items column more
  | .map ((k, v) :: more) =>
    "\n" ++ pad (column + 2) ++ keyText k ++ ":" ++ value (column + 2) v ++
      members (column + 2) more
  | d => " " ++ node (column + 2) d

end

end Testplan.Yaml

namespace Testplan

/-- **Writes a document.** -/
def Document.toYaml (d : Document) : String := Yaml.node 0 d

end Testplan
