import Testplan.Document
/-!
# Reading documents from YAML

`Document.ofYaml?` reads a text with one document, in block or flow style or a mix of
both: scalars in all five styles, comments, anchors and aliases, tags and directives.
Text in JSON is read as flow style.

A node is read at a **cursor**, which knows the rest of the text and the line and
column it stands at.  In block style the column is the structure: a collection
consists of the entries at one column, and what belongs to an entry stands further
right.  An entry starts at a **fresh** place: at the start of a line, or after the sign
of another entry.  A key ends on the line on which it starts.

The functions that call one another count down `fuel`; every call consumes at least
one character or goes one level down in the grammar, so a small multiple of the
length of the text suffices (`Document.ofYaml?`).
-/
namespace Testplan.Yaml

/-! ## Characters -/

/-- A line break. -/
def isBreak (c : Char) : Bool :=
  c = '\n' || c = '\r' || c = '\u0085' || c = '\u2028' || c = '\u2029'

/-- A space or tab. -/
def isSpace (c : Char) : Bool := c = ' ' || c = '\t'

/-- A character that may stand in a document. -/
def isAllowed (c : Char) : Bool :=
  let n := c.toNat
  n == 0x09 || n == 0x0A || n == 0x0D || (0x20 ≤ n && n ≤ 0x7E) || n == 0x85 ||
    (0xA0 ≤ n && n ≤ 0xD7FF) || (0xE000 ≤ n && n ≤ 0xFFFD) || 0x10000 ≤ n

/-- The text ends here, or goes on with a space, tab or line break. -/
def blankNext : List Char → Bool
  | [] => true
  | c :: _ => isSpace c || isBreak c

/-- The text ends here, or a line does. -/
def breakNext : List Char → Bool
  | [] => true
  | c :: _ => isBreak c

/-- A character that begins or ends collections in flow style. -/
def isFlowSign (c : Char) : Bool := [',', '[', ']', '\x7b', '\x7d'].contains c

/-- A character that starts no plain scalar. -/
def isIndicator (c : Char) : Bool :=
  ['-', '?', ':', ',', '[', ']', '\x7b', '\x7d', '#', '&', '*', '!', '|', '>', '\'', '"', '%',
    '@', '`'].contains c

/-! ## Cursors -/

/-- **A place in the text**, with the nodes that have been given names so far.  An
entry of a block collection may start at a fresh place. -/
structure Cursor where
  rest : List Char
  line : Nat := 0
  column : Nat := 0
  fresh : Bool := true
  anchors : List (String × Document) := []
  /-- What the handles of tags stand for. -/
  handles : List (String × String) := [("!", "!"), ("!!", "tag:yaml.org,2002:")]

namespace Cursor

/-- Moves over one character. -/
def next (c : Cursor) : Cursor :=
  match c.rest with
  | [] => c
  | '\r' :: '\n' :: r => { c with rest := r, line := c.line + 1, column := 0, fresh := true }
  | x :: r =>
    if isBreak x then { c with rest := r, line := c.line + 1, column := 0, fresh := true }
    else { c with rest := r, column := c.column + 1, fresh := false }

/-- Moves over `n` characters that are no line breaks. -/
def advance (c : Cursor) (n : Nat) : Cursor :=
  { c with rest := c.rest.drop n, column := c.column + n, fresh := false }

/-- The line break here, as it counts in a scalar. -/
def breakText (c : Cursor) : Char :=
  match c.rest with
  | x :: _ => if x = '\u2028' || x = '\u2029' then x else '\n'
  | [] => '\n'

/-- A line of three equal signs that separates documents. -/
def atMarker (c : Cursor) (sign : Char) : Bool :=
  c.column = 0 && c.rest.take 3 = [sign, sign, sign] && blankNext (c.rest.drop 3)

/-- The start or end of a document. -/
def atBoundary (c : Cursor) : Bool := c.atMarker '-' || c.atMarker '.'

/-- Moves over the characters that satisfy `p`. -/
def skipWhile (c : Cursor) (p : Char → Bool) : Cursor :=
  c.advance (c.rest.takeWhile p).length

/-- Moves over spaces, and over tabs if they count as space. -/
def skipBlanks (c : Cursor) (tabs : Bool) : Cursor :=
  { c.skipWhile (fun x => x = ' ' || (tabs && x = '\t')) with fresh := c.fresh }

/-- Moves over spaces, and over tabs except at a fresh place. -/
def skipSpaces (c : Cursor) : Cursor := c.skipBlanks !c.fresh

/-- Moves over a comment, if there is one. -/
def skipComment (c : Cursor) : Cursor :=
  match c.rest with
  | '#' :: _ => c.skipWhile fun x => !isBreak x
  | _ => c

/-- Moves to the next token over spaces, comments and line breaks.  In flow style a tab
is space everywhere. -/
def skipGap : Nat → Bool → Cursor → Cursor
  | 0, _, c => c
  | fuel + 1, flow, c =>
    let d := (c.skipBlanks (flow || !c.fresh)).skipComment
    match d.rest with
    | [] => d
    | x :: _ => if isBreak x then skipGap fuel flow d.next else d

/-- Moves to the next token in block style. -/
def skipBlock (c : Cursor) : Cursor := skipGap (c.rest.length + 1) false c

/-- Moves to the next token in flow style. -/
def skipFlow (c : Cursor) : Cursor := skipGap (c.rest.length + 1) true c

end Cursor

/-! ## Scalars -/

/-- A scalar with the cursor behind it. -/
abbrev ScalarAt := Option (String × Cursor)

/-- What stands for a run of line breaks inside a scalar: one break is a space, of more
the first is dropped. -/
def foldedBreaks (breaks : List Char) : List Char :=
  match breaks with
  | [] => []
  | ['\n'] => [' ']
  | '\n' :: more => more
  | breaks => breaks

/-- Reads the breaks and leading spaces up to the next line with content. -/
def readBreaks : Nat → Cursor → List Char → List Char × Cursor
  | 0, c, acc => (acc.reverse, c)
  | fuel + 1, c, acc =>
    match c.rest with
    | [] => (acc.reverse, c)
    | x :: _ =>
      if isBreak x then readBreaks fuel c.next (c.breakText :: acc)
      else if isSpace x then readBreaks fuel c.next acc
      else (acc.reverse, c)

/-- A single-quoted scalar after its opening quote; `acc` is the text so far in
reverse. -/
def readSingle : Nat → Cursor → List Char → ScalarAt
  | 0, _, _ => none
  | fuel + 1, c, acc =>
    if c.atBoundary then none
    else match c.rest with
      | [] => none
      | '\'' :: '\'' :: _ => readSingle fuel (c.advance 2) ('\'' :: acc)
      | '\'' :: _ => some (String.ofList acc.reverse, c.next)
      | x :: _ =>
        if isSpace x || isBreak x then
          let spaces := c.rest.takeWhile isSpace
          let d := c.advance spaces.length
          if breakNext d.rest then
            if d.rest.isEmpty then none
            else
              let (breaks, d) := readBreaks (d.rest.length + 1) d []
              readSingle fuel d ((foldedBreaks breaks).reverse ++ acc)
          else readSingle fuel d (spaces.reverse ++ acc)
        else readSingle fuel c.next (x :: acc)

/-- What an escape of one letter stands for. -/
def escapeOf? : Char → Option Char
  | '0' => some '\x00'
  | 'a' => some '\x07'
  | 'b' => some '\x08'
  | 't' | '\t' => some '\t'
  | 'n' => some '\n'
  | 'v' => some '\x0b'
  | 'f' => some '\x0c'
  | 'r' => some '\r'
  | 'e' => some '\x1b'
  | ' ' => some ' '
  | '"' => some '"'
  | '/' => some '/'
  | '\\' => some '\\'
  | 'N' => some '\u0085'
  | '_' => some '\u00a0'
  | 'L' => some '\u2028'
  | 'P' => some '\u2029'
  | _ => none

/-- The number of digits after a letter that starts an escape by code point. -/
def codeLength? : Char → Option Nat
  | 'x' => some 2
  | 'u' => some 4
  | 'U' => some 8
  | _ => none

/-- The character with a code point, if there is one. -/
def charOf? (n : Nat) : Option Char :=
  if n < 0xD800 ∨ (0xDFFF < n ∧ n < 0x110000) then some (Char.ofNat n) else none

/-- A double-quoted scalar after its opening quote. -/
def readDouble : Nat → Cursor → List Char → ScalarAt
  | 0, _, _ => none
  | fuel + 1, c, acc =>
    if c.atBoundary then none
    else match c.rest with
      | [] => none
      | '"' :: _ => some (String.ofList acc.reverse, c.next)
      | '\\' :: e :: r =>
        if isBreak e then
          let (breaks, d) := readBreaks (r.length + 2) (c.advance 1).next []
          readDouble fuel d (breaks.reverse ++ acc)
        else match escapeOf? e, codeLength? e with
          | some x, _ => readDouble fuel (c.advance 2) (x :: acc)
          | none, some n =>
            let digits := r.take n
            if digits.length = n then
              match (Document.numberIn? 16 digits).bind charOf? with
              | some x => readDouble fuel (c.advance (2 + n)) (x :: acc)
              | none => none
            else none
          | none, none => none
      | x :: _ =>
        if isSpace x || isBreak x then
          let spaces := c.rest.takeWhile isSpace
          let d := c.advance spaces.length
          if breakNext d.rest then
            if d.rest.isEmpty then none
            else
              let (breaks, d) := readBreaks (d.rest.length + 1) d []
              readDouble fuel d ((foldedBreaks breaks).reverse ++ acc)
          else readDouble fuel d (spaces.reverse ++ acc)
        else readDouble fuel c.next (x :: acc)

/-- A plain scalar may start here. -/
def startsPlain (flow : Bool) : List Char → Bool
  | [] => false
  | c :: rest =>
    if isSpace c || isBreak c then false
    else if !isIndicator c then true
    else if c = '-' then !blankNext rest
    else (c = '?' || c = ':') && !flow && !blankNext rest

/-- A run of a plain scalar on one line, up to a space or the end of the scalar.  In
flow style a colon before a sign of a collection is an error. -/
def plainRun (flow : Bool) : List Char → Option (List Char)
  | [] => some []
  | c :: rest =>
    if isSpace c || isBreak c then some []
    else if flow && isFlowSign c then some []
    else if c = ':' then
      if blankNext rest then some []
      else if flow && (rest.head?.any isFlowSign) then none
      else (plainRun flow rest).map (c :: ·)
    else (plainRun flow rest).map (c :: ·)

/-- What is known of a plain scalar after one of its runs. -/
inductive PlainStep where
  | wrong
  /-- It ends. -/
  | ends (s : String) (c : Cursor)
  /-- It may go on at `next`, after `gap`; if it does not, it ends at `c` with `s`. -/
  | goesOn (s : String) (c next : Cursor) (gap acc : List Char)

/-- One run of a plain scalar, and the white space after it. -/
def plainStep (flow : Bool) (indent : Int) (c : Cursor) (gap acc : List Char) : PlainStep :=
  match plainRun flow c.rest with
  | none => .wrong
  | some run =>
    if run.isEmpty then .ends (String.ofList acc.reverse) c
    else
      let d := c.advance run.length
      let acc := run.reverse ++ gap.reverse ++ acc
      let spaces := d.rest.takeWhile isSpace
      let e := d.advance spaces.length
      let s := String.ofList acc.reverse
      if breakNext e.rest then
        let (breaks, f) := readBreaks (e.rest.length + 1) e []
        if f.rest.isEmpty || (!flow && (f.column : Int) ≤ indent) || f.rest.head? = some '#' then
          .ends s d
        else .goesOn s d f (foldedBreaks breaks) acc
      else if spaces.isEmpty || e.rest.head? = some '#' then .ends s d
      else .goesOn s d e spaces acc

/-- A plain scalar.  `indent` is the column of the collection that it stands in: its
further lines stand right of that in block style.  `gap` is the white space read
since the last run. -/
def readPlain : Nat → Bool → Int → Cursor → List Char → List Char → ScalarAt
  | 0, _, _, _, _, _ => none
  | fuel + 1, flow, indent, c, gap, acc =>
    if c.atBoundary || c.rest.isEmpty || (c.rest.head? = some '#' && !gap.isEmpty) then
      some (String.ofList acc.reverse, c)
    else match plainStep flow indent c gap acc with
      | .wrong => none
      | .ends s d => some (s, d)
      | .goesOn s d next gap acc =>
        (readPlain fuel flow indent next gap acc).map fun (t, e) =>
          if e.line = next.line && e.column = next.column then (s, d) else (t, e)

/-! ### Block scalars -/

/-- What happens to the line breaks at the end of a block scalar. -/
inductive Chomping where
  | strip
  | clip
  | keep
deriving DecidableEq

/-- The header of a block scalar after its sign: chomping and indentation in either
order, then nothing but a comment. -/
def blockHeader? (c : Cursor) : Option (Chomping × Option Nat × Cursor) :=
  let sign? (c : Cursor) : Option (Chomping × Cursor) := match c.rest with
    | '-' :: _ => some (.strip, c.next)
    | '+' :: _ => some (.keep, c.next)
    | _ => none
  let digit? (c : Cursor) : Option (Nat × Cursor) := match c.rest with
    | x :: _ => if '1' ≤ x ∧ x ≤ '9' then some (x.toNat - '0'.toNat, c.next) else none
    | [] => none
  let (chomping, width, d) : Chomping × Option Nat × Cursor :=
    match sign? c with
    | some (s, d) => match digit? d with
      | some (n, e) => (s, some n, e)
      | none => (s, none, d)
    | none => match digit? c with
      | some (n, d) => match sign? d with
        | some (s, e) => (s, some n, e)
        | none => (.clip, some n, d)
      | none => (.clip, none, c)
  let e := d.skipSpaces.skipComment
  if e.rest.head? = some '0' then none
  else if breakNext e.rest then some (chomping, width, if e.rest.isEmpty then e else e.next)
  else none

/-- Reads empty lines and the indentation of the next line, at most `limit` columns of
it.  Gives the breaks and the widest indentation seen. -/
def blockBreaks : Nat → Option Nat → Cursor → List Char → Nat → List Char × Nat × Cursor
  | 0, _, c, acc, widest => (acc.reverse, widest, c)
  | fuel + 1, limit, c, acc, widest =>
    let spaces := (c.rest.takeWhile (· = ' ')).length
    let d := { c.advance (match limit with
      | some n => min spaces (n - c.column)
      | none => spaces) with fresh := true }
    let widest := max widest d.column
    match d.rest with
    | [] => (acc.reverse, widest, d)
    | x :: _ =>
      if isBreak x then blockBreaks fuel limit d.next (d.breakText :: acc) widest
      else (acc.reverse, widest, d)

/-- The lines of a block scalar from one with content on.  `held` is the break before
the line, `breaks` those of the empty lines after it, and `wasBlank` tells whether the
line before started with a space. -/
def blockLines : Nat → Bool → Chomping → Nat → Cursor → Option Char → List Char → Bool →
    List Char → ScalarAt
  | 0, _, _, _, _, _, _, _, _ => none
  | fuel + 1, folded, chomping, indent, c, held, breaks, wasBlank, acc =>
    if c.column = indent && !c.rest.isEmpty then
      let isBlank := c.rest.head?.any isSpace
      let acc :=
        if folded && held = some '\n' && !wasBlank && !isBlank then
          (if breaks.isEmpty then [' '] else []) ++ acc
        else held.toList ++ acc
      let acc := breaks.reverse ++ acc
      let lineText := c.rest.takeWhile fun x => !isBreak x
      let d := c.advance lineText.length
      let held := if d.rest.isEmpty then none else some d.breakText
      let (breaks, _, e) := blockBreaks (d.rest.length + 1) (some indent) d.next [] 0
      blockLines fuel folded chomping indent e held breaks isBlank (lineText.reverse ++ acc)
    else
      let acc := if chomping = .strip then acc else held.toList ++ acc
      let acc := if chomping = .keep then breaks.reverse ++ acc else acc
      some (String.ofList acc.reverse, c)

/-- A block scalar after its sign, in a collection at column `indent`. -/
def readBlockScalar (folded : Bool) (indent : Int) (c : Cursor) : ScalarAt := do
  let (chomping, width, d) ← blockHeader? c
  let fuel := d.rest.length + 2
  match width with
  | some n =>
    let column := (max indent 0).toNat + n
    let (breaks, _, e) := blockBreaks fuel (some column) d [] 0
    blockLines fuel folded chomping column e none breaks false []
  | none =>
    let (breaks, widest, e) := blockBreaks fuel none d [] 0
    if e.rest.head? = some '\t' && e.column < max (indent + 1).toNat 1 then none
    else
      blockLines fuel folded chomping (max (max widest (indent + 1).toNat) 1) e none breaks
        false []

/-! ## Nodes -/

/-- A node with the cursor behind it. -/
abbrev NodeAt := Option (Document × Cursor)

/-- Nothing where a node could stand. -/
def emptyNode : Document := .plain ""

/-- A name after the sign of an anchor or alias. -/
def readName? (c : Cursor) : Option (String × Cursor) :=
  let name := c.rest.takeWhile fun x => x.isAlphanum || x = '-' || x = '_'
  let d := c.advance name.length
  if name.isEmpty then none
  else if blankNext d.rest || d.rest.head?.any fun x =>
      isFlowSign x || x = '?' || x = ':' || x = '%' || x = '@' || x = '`' then
    some (String.ofList name, d)
  else none

/-- A character of the handle of a tag. -/
def isHandleChar (x : Char) : Bool := x.isAlphanum || x = '-' || x = '_'

/-- A character of a tag. -/
def isTagChar (x : Char) : Bool :=
  isHandleChar x ||
    [';', '/', '?', ':', '@', '&', '=', '+', '$', '.', '%', '!', '~', '*', '\'', '(', ')'].contains x

/-- A character of a tag in angle brackets, or of what a handle stands for. -/
def isLongTagChar (x : Char) : Bool := isTagChar x || x = ',' || x = '[' || x = ']'

/-- Every percent sign stands before two digits in base 16. -/
def isEscaped : List Char → Bool
  | '%' :: a :: b :: rest =>
    (Document.digitIn? 16 a).isSome && (Document.digitIn? 16 b).isSome && isEscaped rest
  | '%' :: _ => false
  | _ :: rest => isEscaped rest
  | [] => true

/-- A tag after its exclamation mark: in angle brackets, with a handle, or alone.  The
exclamation mark without anything is no tag. -/
def readTag? (flow : Bool) (c : Cursor) : Option (Option String × Cursor) := do
  let ended (tag : Option String) (d : Cursor) : Option (Option String × Cursor) :=
    if blankNext d.rest || flow && d.rest.head? = some ',' then some (tag, d) else none
  let made (handle : String) (suffix : List Char) (d : Cursor) :
      Option (Option String × Cursor) := do
    let start ← c.handles.lookup handle
    if isEscaped suffix then ended (some (start ++ String.ofList suffix)) d else none
  match c.rest with
  | '<' :: r =>
    let tag := r.takeWhile isLongTagChar
    let d := c.advance (tag.length + 1)
    if d.rest.head? = some '>' && !tag.isEmpty && isEscaped tag then
      ended (some (String.ofList tag)) d.next
    else none
  | r =>
    let word := r.takeWhile isHandleChar
    match r.drop word.length with
    | '!' :: more =>
      let suffix := more.takeWhile isTagChar
      if suffix.isEmpty then none
      else
        made (String.ofList ('!' :: word ++ ['!'])) suffix
          (c.advance (word.length + 1 + suffix.length))
    | _ =>
      let suffix := r.takeWhile isTagChar
      if suffix.isEmpty then ended none c else made "!" suffix (c.advance suffix.length)

/-- What stands before a node: the name that it gets, and its tag. -/
structure Properties where
  anchor : Option String := none
  tag : Option String := none

/-- The anchor and the tag before a node, in either order. -/
def readProperties (flow : Bool) (c : Cursor) : Option (Properties × Cursor) :=
  match c.rest with
  | '&' :: _ => do
    let (name, d) ← readName? c.next
    let d := d.skipSpaces
    match d.rest with
    | '!' :: _ =>
      let (tag, e) ← readTag? flow d.next
      return ({ anchor := some name, tag }, e.skipSpaces)
    | _ => return ({ anchor := some name }, d)
  | '!' :: _ => do
    let (tag, d) ← readTag? flow c.next
    let d := d.skipSpaces
    match d.rest with
    | '&' :: _ =>
      let (name, e) ← readName? d.next
      return ({ anchor := some name, tag }, e.skipSpaces)
    | _ => return ({ tag }, d)
  | _ => some ({}, c)

/-- A node with its tag. -/
def Properties.label (p : Properties) (node : Document) : Document :=
  match p.tag with
  | some tag => .tagged tag node
  | none => node

/-- The cursor after a node has been given its name. -/
def Cursor.named (c : Cursor) (p : Properties) (node : Document) : Cursor :=
  { c with anchors := p.anchor.toList.map (fun n => (n, p.label node)) ++ c.anchors }

/-- A colon that separates a key from its value. -/
def colonNext (flow : Bool) (c : Cursor) : Bool :=
  match c.rest with
  | ':' :: r => flow || blankNext r
  | _ => false

/-- A hyphen that starts an entry of a block list. -/
def entryNext (c : Cursor) : Bool :=
  match c.rest with
  | '-' :: r => blankNext r
  | _ => false

/-- A question mark that starts an explicit key. -/
def explicitNext (c : Cursor) : Bool :=
  match c.rest with
  | '?' :: r => blankNext r
  | _ => false

/-- A member of a mapping: its key must be a scalar. -/
def memberOf? (key value : Document) : Option (String × Document) :=
  key.asText?.map fun k => (k, value)

/-- The longest key. -/
def maxKeyLength : Nat := 1024

/-- A key read from `c` to `d` may be followed by a colon: it ends on its line. -/
def isSimpleKey (c d : Cursor) : Bool :=
  c.line = d.line && d.column ≤ c.column + maxKeyLength

mutual

/-- A node in flow style, at its first character. -/
def flowNode : Nat → Cursor → NodeAt
  | 0, _ => none
  | fuel + 1, c => do
    let (properties, d) ← readProperties true c
    let d := d.skipFlow
    if d.atBoundary then none
    else
      let (node, e) ← match d.rest with
        | '[' :: _ => flowItems fuel d.next []
        | '\x7b' :: _ => flowMembers fuel d.next []
        | _ => flowScalar fuel d
      return (properties.label node, e.named properties node)

/-- A scalar or alias in flow style, or nothing before a sign. -/
def flowScalar : Nat → Cursor → NodeAt
  | 0, _ => none
  | _ + 1, c =>
    match c.rest with
    | '\'' :: r => (readSingle (r.length + 1) c.next []).map fun (s, d) => (.text s, d)
    | '"' :: r => (readDouble (r.length + 1) c.next []).map fun (s, d) => (.text s, d)
    | '*' :: _ => do
      let (name, d) ← readName? c.next
      return (← c.anchors.lookup name, d)
    | x :: r =>
      if startsPlain true (x :: r) then
        (readPlain (r.length + 2) true 0 c [] []).map fun (s, d) => (.plain s, d)
      else if isFlowSign x && x ≠ '[' && x ≠ '\x7b' then some (emptyNode, c)
      else none
    | [] => none

/-- The value after a colon in flow style. -/
def flowValue : Nat → Cursor → NodeAt
  | 0, _ => none
  | fuel + 1, c =>
    let d := c.skipFlow
    match d.rest with
    | ',' :: _ | ']' :: _ | '\x7d' :: _ => some (emptyNode, d)
    | _ => flowNode fuel d

/-- An entry in flow style: a node, and a value if a colon follows. -/
def flowEntry : Nat → Cursor → Option (Document × Option Document × Cursor)
  | 0, _ => none
  | fuel + 1, c =>
    if explicitNext c then do
      let (key, d) ← flowValue fuel c.next
      let d := d.skipFlow
      if colonNext true d then
        let (value, e) ← flowValue fuel d.next
        return (key, some value, e)
      else return (key, some emptyNode, d)
    else do
      let (key, d) ← flowNode fuel c
      let e := d.skipFlow
      if colonNext true e then
        if isSimpleKey c e && c.rest.head? ≠ some ':' then
          let (value, f) ← flowValue fuel e.next
          return (key, some value, f)
        else none
      else return (key, none, d)

/-- The items of a list in flow style, after `[` or a comma. -/
def flowItems : Nat → Cursor → List Document → NodeAt
  | 0, _, _ => none
  | fuel + 1, c, acc =>
    let d := c.skipFlow
    match d.rest with
    | [] => none
    | ']' :: _ => some (.list acc.reverse, d.next)
    | ',' :: _ => none
    | _ => do
      let (key, value, e) ← flowEntry fuel d
      let item ← match value with
        | none => some key
        | some v => (memberOf? key v).map fun m => .map [m]
      let f := e.skipFlow
      match f.rest with
      | ',' :: _ => flowItems fuel f.next (item :: acc)
      | ']' :: _ => some (.list (item :: acc).reverse, f.next)
      | _ => none

/-- The members of a mapping in flow style, after the brace or a comma. -/
def flowMembers : Nat → Cursor → List (String × Document) → NodeAt
  | 0, _, _ => none
  | fuel + 1, c, acc =>
    let d := c.skipFlow
    match d.rest with
    | [] => none
    | '\x7d' :: _ => some (.map acc.reverse, d.next)
    | ',' :: _ => none
    | _ => do
      let (key, value, e) ← flowEntry fuel d
      let m ← memberOf? key (value.getD emptyNode)
      let f := e.skipFlow
      match f.rest with
      | ',' :: _ => flowMembers fuel f.next (m :: acc)
      | '\x7d' :: _ => some (.map (m :: acc).reverse, f.next)
      | _ => none

/-- A scalar, alias or flow collection inside a block collection at column `indent`. -/
def inlineNode : Nat → Int → Cursor → NodeAt
  | 0, _, _ => none
  | fuel + 1, indent, c =>
    match c.rest with
    | '\'' :: _ | '"' :: _ | '*' :: _ => flowScalar fuel c
    | '[' :: _ | '\x7b' :: _ => flowNode fuel c
    | _ =>
      if startsPlain false c.rest then
        (readPlain (c.rest.length + 1) false indent c [] []).map fun (s, d) => (.plain s, d)
      else none

/-- A node inside a block collection at column `indent`, at its first character.  A
block collection may start here if the place is fresh.  The entries of a list that is
the value of a member may stand at the column of the mapping: that is `beside`. -/
def blockNode : Nat → Int → Bool → Cursor → NodeAt
  | 0, _, _, _ => none
  | fuel + 1, indent, beside, c =>
    if entryNext c then
      if c.fresh then blockItems fuel c.column c [] else none
    else if explicitNext c then
      if c.fresh then blockMembers fuel c.column c [] else none
    else do
      let (properties, d) ← readProperties false c
      let finished (node : Document) (e : Cursor) : Document × Cursor :=
        (properties.label node, e.named properties node)
      match d.rest with
      | '|' :: _ =>
        let (s, e) ← readBlockScalar false indent d.next
        return finished (.text s) e
      | '>' :: _ =>
        let (s, e) ← readBlockScalar true indent d.next
        return finished (.text s) e
      | _ =>
        if (breakNext d.rest || d.rest.head? = some '#') && d.column ≠ c.column then
          let e := d.skipBlock
          if beside && (e.column : Int) = indent && entryNext e then
            let (node, f) ← blockItems fuel e.column e []
            return finished node f
          else if (e.column : Int) ≤ indent || e.rest.isEmpty || e.atBoundary then
            return finished emptyNode e
          else
            let (node, f) ← blockNode fuel indent beside e
            return finished node f
        else
          let (node, e) ← inlineNode fuel indent d
          let f := e.skipSpaces
          if colonNext false f then
            if c.fresh && isSimpleKey c f then
              let (value, g) ← blockValue fuel c.column (f.next.named properties node)
              let m ← memberOf? node value
              blockMembersAfter fuel c.column g [m]
            else none
          else return finished node e

/-- The value after a colon in a block mapping at column `column`, or the key after a
question mark. -/
def blockValue : Nat → Nat → Cursor → NodeAt
  | 0, _, _ => none
  | fuel + 1, column, c =>
    let d := c.skipBlock
    if d.line = c.line && !d.rest.isEmpty then blockNode fuel column true d
    else if d.rest.isEmpty || d.atBoundary then some (emptyNode, d)
    else if column < d.column then blockNode fuel column true d
    else if d.column = column && entryNext d then blockItems fuel column d []
    else some (emptyNode, d)

/-- The members of a block mapping, from an entry on. -/
def blockMembers : Nat → Nat → Cursor → List (String × Document) → NodeAt
  | 0, _, _, _ => none
  | fuel + 1, column, c, acc =>
    if explicitNext c then do
      let (key, d) ← blockValue fuel column { c.next with fresh := true }
      let e := d.skipBlock
      if e.column = column && colonNext false e then
        let (value, f) ← blockValue fuel column { e.next with fresh := true }
        let m ← memberOf? key value
        blockMembersAfter fuel column f (m :: acc)
      else
        let m ← memberOf? key emptyNode
        blockMembersAfter fuel column d (m :: acc)
    else do
      let (properties, d) ← readProperties false c
      let (key, e) ← inlineNode fuel column d
      let f := e.skipSpaces
      if colonNext false f && isSimpleKey c f then
        let (value, g) ← blockValue fuel column (f.next.named properties key)
        let m ← memberOf? key value
        blockMembersAfter fuel column g (m :: acc)
      else none

/-- The members of a block mapping, after an entry. -/
def blockMembersAfter : Nat → Nat → Cursor → List (String × Document) → NodeAt
  | 0, _, _, _ => none
  | fuel + 1, column, c, acc =>
    let d := c.skipBlock
    if d.rest.isEmpty || d.atBoundary || d.column < column then some (.map acc.reverse, d)
    else if d.column = column && d.fresh && !entryNext d then
      blockMembers fuel column d acc
    else none

/-- What follows the sign of a list entry at column `column`. -/
def blockEntry : Nat → Nat → Cursor → NodeAt
  | 0, _, _ => none
  | fuel + 1, column, c =>
    let d := { c with fresh := true }.skipBlock
    if column < d.column && !d.rest.isEmpty && !d.atBoundary then blockNode fuel column false d
    else some (emptyNode, d)

/-- The items of a block list, from an entry on. -/
def blockItems : Nat → Nat → Cursor → List Document → NodeAt
  | 0, _, _, _ => none
  | fuel + 1, column, c, acc => do
    let (item, d) ← blockEntry fuel column c.next
    let e := d.skipBlock
    if e.column = column && e.fresh && entryNext e && !e.atBoundary then
      blockItems fuel column e (item :: acc)
    else if e.rest.isEmpty || e.atBoundary || e.column ≤ column then
      some (.list (item :: acc).reverse, e)
    else none

end

/-! ## Documents -/

/-- The version that a directive names can be read: it is 1.1 or 1.2. -/
def isKnownVersion (version : List Char) : Bool :=
  match Text.cutAtChar '.' version with
  | some (major, minor) =>
    Document.numberIn? 10 major = some 1 &&
      (Document.numberIn? 10 minor).any fun n => n = 1 || n = 2
  | none => false

/-- A declared handle of tags: one or two exclamation marks, the latter with a word
between them or not. -/
def isHandle (handle : List Char) : Bool :=
  handle = ['!'] || handle.length ≥ 2 && handle.head? = some '!' && handle.getLast? = some '!' &&
    (handle.drop 1).dropLast.all isHandleChar

/-- Moves over lines of directives and takes up the handles that they declare.  The
version may be named once, and each handle. -/
def readDirectives? : Nat → Bool → List (String × String) → Cursor → Option Cursor
  | 0, _, _, _ => none
  | fuel + 1, versioned, handles, c =>
    match if c.column = 0 then c.rest else [] with
    | '%' :: r =>
      let line := r.takeWhile fun x => !isBreak x
      let words := ((Text.splitAll isSpace line).filter fun w => !w.isEmpty).takeWhile
        fun w => w.head? ≠ some '#'
      let d := (c.advance (line.length + 1)).skipBlock
      match words.map String.ofList with
      | ["YAML", version] =>
        if versioned || !isKnownVersion version.toList then none
        else readDirectives? fuel true handles d
      | ["TAG", handle, start] =>
        if isHandle handle.toList && start.toList.all isLongTagChar &&
            isEscaped start.toList && (handles.lookup handle).isNone then
          readDirectives? fuel versioned (handles ++ [(handle, start)]) d
        else none
      | _ => none
    | _ => some { c with handles := handles ++ c.handles }

/-- Nothing follows a document but the mark of its end. -/
def endsHere (c : Cursor) : Bool :=
  let d := c.skipBlock
  if d.rest.isEmpty then true
  else if d.atMarker '.' then
    let e := (d.advance 3).skipBlock
    e.rest.isEmpty
  else false

/-- The document at a cursor, and nothing after it. -/
def documentAt (fuel : Nat) (c : Cursor) : Option Document := do
  let c := c.skipBlock
  let d ← readDirectives? (c.rest.length + 1) false [] c
  if d.rest.length < c.rest.length && !d.atMarker '-' then none
  else
    let e := if d.atMarker '-' then (d.advance 3).skipBlock else d
    if e.rest.isEmpty || e.atBoundary then
      if endsHere e then some emptyNode else none
    else
      let (node, f) ← blockNode fuel (-1) false e
      if endsHere f then some node else none

end Testplan.Yaml

namespace Testplan

/-- **Reads a text with one document.**  A mark of the byte order at the start is
skipped. -/
def Document.ofYaml? (s : String) : Option Document :=
  let cs := match s.toList with
    | '\ufeff' :: rest => rest
    | cs => cs
  if cs.all Yaml.isAllowed then Yaml.documentAt (8 * cs.length + 16) { rest := cs } else none

end Testplan
