/-!
# Blank characters, and the cuts made at them

Hints, titles and values come from files written by hand, so every comparison in
this library first drops the blanks around a text.  A **blank** is a character
of the Unicode property White_Space (`isBlank`); core's `Char.isWhitespace`
covers only its first five members.

`trim` drops the blanks at both ends, `words` lists the maximal runs of
non-blank characters, and `oneLine` writes those runs with single spaces
between them — the form in which free text may enter a line of generated code.
All three work on lists of characters; `strip`, `present?` and `Text.oneLine`
are the same operations on strings.
-/
namespace Testplan.Text

/-- **A blank**: one of the 25 characters of the property White_Space. -/
def isBlank (c : Char) : Bool :=
  let n := c.toNat
  (9 ≤ n && n ≤ 13) || n == 0x20 || n == 0x85 || n == 0xA0 || n == 0x1680 ||
    (0x2000 ≤ n && n ≤ 0x200A) || n == 0x2028 || n == 0x2029 || n == 0x202F ||
    n == 0x205F || n == 0x3000

/-- Drops the elements at the end that satisfy `p`. -/
def dropEndWhile (p : Char → Bool) : List Char → List Char
  | [] => []
  | c :: cs =>
    match dropEndWhile p cs with
    | [] => if p c then [] else [c]
    | rest => c :: rest

/-- Drops the blanks at both ends. -/
def trim (cs : List Char) : List Char :=
  dropEndWhile isBlank (cs.dropWhile isBlank)

theorem dropEndWhile_cons_of_not {p : Char → Bool} {c : Char} (h : ¬ p c = true)
    (cs : List Char) : dropEndWhile p (c :: cs) = c :: dropEndWhile p cs := by
  rw [dropEndWhile]
  cases dropEndWhile p cs with
  | nil => simp [h]
  | cons d rest => rfl

theorem dropEndWhile_dropEndWhile (p : Char → Bool) (cs : List Char) :
    dropEndWhile p (dropEndWhile p cs) = dropEndWhile p cs := by
  induction cs with
  | nil => rfl
  | cons c cs ih =>
    rw [dropEndWhile]
    cases hr : dropEndWhile p cs with
    | nil => by_cases hc : p c = true <;> simp [hc, dropEndWhile]
    | cons d rest =>
      rw [hr] at ih
      show dropEndWhile p (c :: d :: rest) = c :: d :: rest
      rw [dropEndWhile, ih]

theorem dropWhile_dropEndWhile (p : Char → Bool) (cs : List Char) :
    (dropEndWhile p (cs.dropWhile p)).dropWhile p = dropEndWhile p (cs.dropWhile p) := by
  induction cs with
  | nil => rfl
  | cons c cs ih =>
    by_cases hc : p c = true
    · rw [List.dropWhile_cons_of_pos hc, ih]
    · rw [List.dropWhile_cons_of_neg hc, dropEndWhile_cons_of_not hc,
        List.dropWhile_cons_of_neg hc]

/-- What was trimmed has no blanks at its ends. -/
@[simp] theorem trim_trim (cs : List Char) : trim (trim cs) = trim cs := by
  unfold trim
  rw [dropWhile_dropEndWhile, dropEndWhile_dropEndWhile]

/-- The words of a text, given the characters of the word being read in reverse. -/
def wordsFrom (acc : List Char) : List Char → List (List Char)
  | [] => if acc.isEmpty then [] else [acc.reverse]
  | c :: cs =>
    if isBlank c then
      if acc.isEmpty then wordsFrom [] cs else acc.reverse :: wordsFrom [] cs
    else wordsFrom (c :: acc) cs

/-- The maximal runs of non-blank characters, in order. -/
def words (cs : List Char) : List (List Char) := wordsFrom [] cs

/-- A string without the blanks at its ends. -/
def strip (s : String) : String := String.ofList (trim s.toList)

@[simp] theorem strip_strip (s : String) : strip (strip s) = strip s := by
  simp [strip]

/-- Nothing but blanks. -/
def isBlankText (s : String) : Bool := s.toList.all isBlank

/-- The stripped text, if there is one and it is not empty. -/
def present? (s : Option String) : Option String :=
  (s.map strip).filter (fun t => !t.isEmpty)

/-- Every run of blanks becomes one space, and the blanks at the ends go: no line
break survives, since all line breaks are blanks. -/
def oneLine (s : String) : String :=
  " ".intercalate ((words s.toList).map String.ofList)

end Testplan.Text
