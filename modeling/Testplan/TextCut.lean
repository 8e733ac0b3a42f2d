/-!
# Finding and replacing pieces of text

A text is searched as a list of characters.  `cutAtChar` splits at the first
occurrence of a character, `cutAt` at the first occurrence of a piece,
`splitAll` at every occurrence of a character, and `replaceAll` exchanges all
non-overlapping occurrences of a piece, found from left to right.
-/
namespace Testplan.Text

/-- The parts before and after the first `sep`; nothing if it does not occur. -/
def cutAtChar (sep : Char) : List Char → Option (List Char × List Char)
  | [] => none
  | c :: cs =>
    if c = sep then some ([], cs)
    else (cutAtChar sep cs).map fun (a, b) => (c :: a, b)

/-- The pieces between the characters that satisfy `p`, one more than there are
such characters. -/
def splitAll (p : Char → Bool) : List Char → List (List Char)
  | [] => [[]]
  | c :: cs =>
    if p c then [] :: splitAll p cs
    else match splitAll p cs with
      | [] => [[c]]
      | piece :: rest => (c :: piece) :: rest

/-- What follows `piece`, if the text starts with it. -/
def dropPiece? : List Char → List Char → Option (List Char)
  | [], cs => some cs
  | _ :: _, [] => none
  | p :: ps, c :: cs => if p = c then dropPiece? ps cs else none

/-- The parts before and after the first occurrence of `piece`. -/
def cutAt (piece : List Char) : List Char → Option (List Char × List Char)
  | [] => (dropPiece? piece []).map fun rest => ([], rest)
  | c :: cs =>
    match dropPiece? piece (c :: cs) with
    | some rest => some ([], rest)
    | none => (cutAt piece cs).map fun (a, b) => (c :: a, b)

/-- The text contains `piece` somewhere. -/
def hasPiece (piece cs : List Char) : Bool := (cutAt piece cs).isSome

/-- A string contains another. -/
def contains (s piece : String) : Bool := hasPiece piece.toList s.toList

/-- A search that has passed `skip` more characters of an occurrence already
replaced. -/
def replaceFrom (piece new : List Char) : Nat → List Char → List Char
  | _, [] => []
  | skip + 1, _ :: cs => replaceFrom piece new skip cs
  | 0, c :: cs =>
    if (dropPiece? piece (c :: cs)).isSome then
      new ++ replaceFrom piece new (piece.length - 1) cs
    else c :: replaceFrom piece new 0 cs

/-- Every occurrence of a non-empty `piece`, found from the left without overlap,
becomes `new`. -/
def replaceAll (s piece new : String) : String :=
  String.ofList (replaceFrom piece.toList new.toList 0 s.toList)

/-- The letters `A` to `Z` in lower case, all else unchanged. -/
def lowerAscii (s : String) : String := s.map Char.toLower

/-- Texts equal up to the case of the letters `A` to `Z`. -/
def sameIgnoringCase (a b : String) : Bool := lowerAscii a == lowerAscii b

end Testplan.Text
