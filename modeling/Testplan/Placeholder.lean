import Testplan.Failure
import Testplan.KeyTable
/-!
# Placeholders

Values of an environment may hold placeholders `${NAME}`, where a name consists of
the letters `A` to `Z` in either case, digits and underscores.  `pieces` cuts a
template into placeholders and the characters between them, from left to right;
whatever only looks like a placeholder is plain text.

`Variables.expand` puts values in: those of the given variables first, those of
the process environment otherwise.  A replaced text is not searched again.  If a
name has no value the expansion fails with the leftmost such name.
-/
namespace Testplan

/-- A table of variables. -/
abbrev Variables := KeyTable String

namespace Placeholder

/-- A character of names. -/
def isNameChar (c : Char) : Bool := c.isAlphanum || c = '_'

/-- A piece of a template. -/
inductive Piece where
  | char (c : Char)
  | named (name : String)
deriving DecidableEq, Repr

/-- The name and the rest, if the text goes on with a name and a closing brace. -/
def closing? (cs : List Char) : Option (String × List Char) :=
  if (cs.takeWhile isNameChar).isEmpty then none
  else match cs.dropWhile isNameChar with
    | '\x7d' :: rest => some (String.ofList (cs.takeWhile isNameChar), rest)
    | _ => none

theorem length_dropWhile_le (p : Char → Bool) (cs : List Char) :
    (cs.dropWhile p).length ≤ cs.length := by
  induction cs with
  | nil => simp
  | cons c cs ih =>
    rw [List.dropWhile_cons]
    split
    · exact Nat.le_succ_of_le ih
    · exact Nat.le_refl _

theorem length_lt_of_closing? {cs rest : List Char} {name : String}
    (h : closing? cs = some (name, rest)) : rest.length < cs.length := by
  have hle := length_dropWhile_le isNameChar cs
  unfold closing? at h
  split at h
  · cases h
  · split at h
    · next tail heq =>
      simp only [Option.some.injEq, Prod.mk.injEq] at h
      rw [heq, h.2] at hle
      exact hle
    · cases h

/-- **The pieces of a template**, from left to right. -/
def pieces : List Char → List Piece
  | [] => []
  | '$' :: '\x7b' :: cs =>
    match _h : closing? cs with
    | some (name, rest) => .named name :: pieces rest
    | none => .char '$' :: pieces ('\x7b' :: cs)
  | c :: cs => .char c :: pieces cs
termination_by cs => cs.length
decreasing_by
  · have := length_lt_of_closing? _h
    simp only [List.length_cons]
    omega
  · simp
  · simp

end Placeholder

namespace Variables

open Placeholder

/-- The value of a variable: the given one, otherwise that of the process. -/
def getOrProcess? (vars process : Variables) (name : String) : Option String :=
  vars.get? name <|> process.get? name

/-- The text of a piece, or the name that has no value. -/
def expandPiece (vars process : Variables) : Piece → Except String (List Char)
  | .char c => .ok [c]
  | .named name =>
    match vars.getOrProcess? process name with
    | some value => .ok value.toList
    | none => .error name

/-- **A template with its placeholders replaced**, or the first name without a value. -/
def expand (vars process : Variables) (template : String) : Except String String :=
  ((pieces template.toList).mapM (vars.expandPiece process)).map fun parts =>
    String.ofList parts.flatten

/-- The same, with the field named in the error. -/
def expandRequired (vars process : Variables) (template field : String) :
    Except ConfigError String :=
  (vars.expand process template).mapError fun name => .missingValue field (.unset name)

end Variables

end Testplan
