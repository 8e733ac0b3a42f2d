import Testplan.TextCut
/-!
# Characters of tool scripts

How a script is made up of characters: names, words, blanks and comments, and texts that
end at a sign of their own.

A command may read a text that stands in the script behind it (`<<`), from the next line
on.  `withTextsInPlace` moves these texts to where they are read, with their lengths, so
that the rest of the reading goes straight through the script; the number of line ends
before a command stays the same.
-/
namespace Testplan.Script

/-- A character of a variable's name. -/
def isNameChar (c : Char) : Bool := c.isAlphanum || c = '_'

/-- The text is the name of a variable. -/
def isName (cs : List Char) : Bool := cs.all isNameChar && cs.head?.any fun c => !c.isDigit

/-- A character that ends a word. -/
def isMeta (c : Char) : Bool := [' ', '\t', '\n', ';', '&', '|', '<', '>', '(', ')'].contains c

/-- A character with a meaning of its own inside a word. -/
def isActive (c : Char) : Bool := ['\'', '"', '\\', '`', '$'].contains c

/-- The variables with names of one character. -/
def isSpecialName (c : Char) : Bool := ['@', '*', '#', '?', '$', '!', '-'].contains c || c.isDigit

/-- Skips spaces, escaped line ends and a comment. -/
def skipBlanks : List Char → List Char
  | ' ' :: rest | '\t' :: rest => skipBlanks rest
  | '\\' :: '\n' :: rest => skipBlanks rest
  | '#' :: rest => rest.dropWhile (· ≠ '\n')
  | cs => cs

/-- Skips empty lines. -/
def skipLinesFrom : Nat → List Char → List Char
  | 0, cs => cs
  | fuel + 1, cs => match skipBlanks cs with
    | '\n' :: rest => skipLinesFrom fuel rest
    | cs => cs

/-- Skips spaces, comments and line ends. -/
def skipLines (cs : List Char) : List Char := skipLinesFrom (cs.length + 1) cs

/-- The bare word that comes next. -/
def bareWord (cs : List Char) : String :=
  String.ofList (cs.takeWhile fun c => !isMeta c && !isActive c)

/-- The rest after the two parentheses that close an arithmetic expression, and the
expression; `depth` counts the parentheses that are open. -/
def arithmeticText? (depth : Nat) (acc : List Char) : List Char → Option ((List Char) × List Char)
  | [] => none
  | '(' :: rest => arithmeticText? (depth + 1) ('(' :: acc) rest
  | ')' :: rest => match depth with
    | 0 => match rest with
      | ')' :: rest => some (acc.reverse, rest)
      | _ => none
    | depth + 1 => arithmeticText? depth (')' :: acc) rest
  | c :: rest => arithmeticText? depth (c :: acc) rest

/-- The text up to the backquote that closes it, without the backslashes that protect. -/
def backquoted? (acc : List Char) : List Char → Option ((List Char) × List Char)
  | [] => none
  | '`' :: rest => some (acc.reverse, rest)
  | '\\' :: c :: rest =>
    if c = '`' || c = '\\' || c = '$' then backquoted? (c :: acc) rest
    else backquoted? (c :: '\\' :: acc) rest
  | c :: rest => backquoted? (c :: acc) rest

/-! ## Texts in the script -/

/-- The lines up to a delimiter, and what follows its line. -/
def linesTo (stripped : Bool) (delimiter : List Char) : Nat → List Char → List Char × List Char
  | 0, cs => ([], cs)
  | _, [] => ([], [])
  | fuel + 1, cs =>
    let whole := cs.takeWhile (· ≠ '\n')
    let line := if stripped then whole.dropWhile (· = '\t') else whole
    let rest := cs.drop (whole.length + 1)
    if line = delimiter then ([], rest)
    else
      let (more, rest) := linesTo stripped delimiter fuel rest
      (line ++ (if whole.length < cs.length then ['\n'] else []) ++ more, rest)

/-- What follows `<<`, with the text put where its delimiter stands; nothing if there is
no delimiter.  A quote before the length says that the text holds nothing to expand. -/
def textInPlace? (cs : List Char) : Option (List Char × List Char) :=
  let (stripped, cs) := match cs with
    | '-' :: rest => (true, rest)
    | cs => (false, cs)
  let cs := skipBlanks cs
  let word := cs.takeWhile fun c => !isMeta c
  let delimiter := word.filter fun c => c ≠ '\'' && c ≠ '"' && c ≠ '\\'
  if word.isEmpty then none
  else
    let cs := cs.drop word.length
    let line := cs.takeWhile (· ≠ '\n')
    let after := cs.drop (line.length + 1)
    let (body, rest) := linesTo stripped delimiter (after.length + 1) after
    let mark := if word = delimiter then [] else ['\'']
    let lineEnd := if line.length < cs.length then ['\n'] else []
    some (mark ++ (toString body.length).toList ++ ':' :: body ++ '\\' :: lineEnd,
      line ++ lineEnd ++ rest)

/-- A script with its texts in place.  `around` has the quotes and parentheses that are
open, the innermost first. -/
def placeTexts : Nat → List Char → Bool → List Char → List Char
  | 0, _, _, cs => cs
  | _, _, _, [] => []
  | fuel + 1, around, atStart, c :: rest =>
    let inQuotes := around.head? = some '"'
    let copy (n : Nat) (around : List Char) : List Char :=
      c :: rest.take n ++ placeTexts fuel around false (rest.drop n)
    match c, rest with
    | '\\', _ => copy 1 around
    | '"', _ => copy 0 (if inQuotes then around.drop 1 else '"' :: around)
    | '$', '(' :: '(' :: more => match arithmeticText? 0 [] more with
      | some (inside, _) => copy (inside.length + 4) around
      | none => copy 0 around
    | '$', '(' :: _ => copy 1 ('(' :: around)
    | _, _ =>
      if inQuotes then copy 0 around
      else match c, rest with
        | '\'', _ => copy ((rest.takeWhile (· ≠ '\'')).length + 1) around
        | '(', _ => copy 0 ('(' :: around)
        | ')', _ => copy 0 (if around.head? = some '(' then around.drop 1 else around)
        | '<', '<' :: more => match textInPlace? more with
          | some (text, more) => '<' :: '<' :: text ++ placeTexts fuel around false more
          | none => copy 1 around
        | '#', _ => copy (if atStart then (rest.takeWhile (· ≠ '\n')).length else 0) around
        | _, _ => c :: placeTexts fuel around (isMeta c) rest

/-- **A script with its texts in place.** -/
def withTextsInPlace (cs : List Char) : List Char := placeTexts (4 * cs.length + 4) [] true cs

end Testplan.Script
