import Testplan.TextBlank
import Testplan.TextWord
/-!
# Patterns of log lines

A `LinePattern` is a regular expression without repetition of groups: sets of
characters, single or repeated, in sequence or as alternatives.  A pattern occurs in a
line if it matches anywhere in it (`LinePattern.occursIn`).

Words, digits and blanks are those of Unicode, and a character that stands for any
other stands for all but the line feed.
-/
namespace Testplan

/-- A set of characters. -/
inductive CharSet where
  | exactly (c : Char)
  /-- A letter in either case. -/
  | sameLetter (c : Char)
  | digit
  | word
  | nonBlank
  | anyInLine
  | anyBut (c : Char)
deriving DecidableEq, Repr

/-- The character belongs to the set.  Besides the two cases of a basic Latin letter,
the Kelvin sign counts as a k and the long s as an s. -/
def CharSet.has : CharSet → Char → Bool
  | exactly c, d => c = d
  | sameLetter c, d =>
    c.toLower = d.toLower || (c.toLower = 'k' && d = '\u212a') ||
      (c.toLower = 's' && d = '\u017f')
  | digit, d => Text.isDigit d
  | word, d => Text.isWord d
  | nonBlank, d => !Text.isBlank d
  | anyInLine, d => d ≠ '\n'
  | anyBut c, d => c ≠ d

/-- **A pattern.** -/
inductive LinePattern where
  | nothing
  | one (set : CharSet)
  /-- One or more characters. -/
  | several (set : CharSet)
  | seq (first second : LinePattern)
  | either (left right : LinePattern)
deriving Repr

namespace LinePattern

/-- A text, letter by letter. -/
def text (s : String) : LinePattern :=
  s.toList.foldr (fun c p => seq (one (.exactly c)) p) nothing

/-- A text in any mix of cases. -/
def anyCase (s : String) : LinePattern :=
  s.toList.foldr (fun c p => seq (one (.sameLetter c)) p) nothing

/-- Patterns one after the other. -/
def inOrder (ps : List LinePattern) : LinePattern := ps.foldr seq nothing

/-- One of several patterns. -/
def oneOf : List LinePattern → LinePattern
  | [] => nothing
  | [p] => p
  | p :: ps => either p (oneOf ps)

/-- Some of the characters of the set, at least one, and then what `rest` accepts. -/
def severalThen (set : CharSet) (rest : List Char → Bool) : List Char → Bool
  | [] => false
  | c :: cs => set.has c && (rest cs || severalThen set rest cs)

/-- The pattern matches a start of the text, and `rest` accepts what is left. -/
def matchThen : LinePattern → (List Char → Bool) → List Char → Bool
  | nothing, rest, cs => rest cs
  | one _, _, [] => false
  | one set, rest, c :: cs => set.has c && rest cs
  | several set, rest, cs => severalThen set rest cs
  | seq p q, rest, cs => p.matchThen (q.matchThen rest) cs
  | either p q, rest, cs => p.matchThen rest cs || q.matchThen rest cs

/-- The pattern matches a start of the text. -/
def matchesStart (p : LinePattern) (cs : List Char) : Bool := p.matchThen (fun _ => true) cs

/-- The pattern matches somewhere in the text. -/
def occursInChars (p : LinePattern) : List Char → Bool
  | [] => p.matchesStart []
  | c :: cs => p.matchesStart (c :: cs) || occursInChars p cs

/-- **The pattern occurs in a line.** -/
def occursIn (p : LinePattern) (line : String) : Bool := p.occursInChars line.toList

end LinePattern

end Testplan
