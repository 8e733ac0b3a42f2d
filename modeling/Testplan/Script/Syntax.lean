/-!
# The language of tool scripts

Tools are scripts in the command language of the POSIX shell.  This module has the
language as data.

A **word** is a list of pieces; after expansion it becomes any number of texts.  A
**command** is a simple one, or built of others.
-/
namespace Testplan.Script

/-- What stands in for the value of a variable. -/
inductive Substitute where
  /-- The word, if the variable has no value. -/
  | fallback
  /-- The word, if the variable has no value; it then gets it. -/
  | assign
  /-- The word, if the variable has a value. -/
  | alternative
  /-- An error, if the variable has no value. -/
  | demand
deriving DecidableEq, Repr

/-- The ways of redirecting. -/
inductive Direction where
  | input
  | output
  | append
  /-- To where another descriptor goes. -/
  | duplicate
  /-- From a text in the script. -/
  | here
deriving DecidableEq, Repr

mutual

/-- A piece of a word.  What comes from quoted pieces is neither split nor matched. -/
inductive Piece where
  | text (s : String) (quoted : Bool)
  | value (name : String) (quoted : Bool)
  /-- With `orEmpty`, an empty value counts as none. -/
  | substitute (name : String) (how : Substitute) (orEmpty : Bool) (word : List Piece)
      (quoted : Bool)
  /-- The value without the shortest or longest match of a pattern at one end. -/
  | trimmed (name : String) (atEnd : Bool) (longest : Bool) (pattern : List Piece)
      (quoted : Bool)
  | size (name : String) (quoted : Bool)
  | output (body : List Command) (quoted : Bool)
  | arithmetic (expression : List Piece) (quoted : Bool)

/-- Where a descriptor of a command goes. -/
inductive Redirection where
  | to (descriptor : Nat) (direction : Direction) (target : List Piece)

/-- **A command.** -/
inductive Command where
  /-- `linesAfter` counts the line ends from the command to the end of the script. -/
  | simple (linesAfter : Nat) (assignments : List (String × List Piece))
      (words : List (List Piece)) (redirections : List Redirection)
  | pipeline (negated : Bool) (parts : List Command)
  | both (first second : Command)
  | either (first second : Command)
  | group (body : List Command) (redirections : List Redirection)
  | subshell (body : List Command) (redirections : List Redirection)
  | conditional (branches : List (List Command × List Command)) (otherwise : List Command)
      (redirections : List Redirection)
  | loop (untilTrue : Bool) (condition body : List Command) (redirections : List Redirection)
  | each (name : String) (words : Option (List (List Piece))) (body : List Command)
      (redirections : List Redirection)
  | choice (word : List Piece) (arms : List (List (List Piece) × List Command))
      (redirections : List Redirection)
  | define (name : String) (body : Command)
  | background (body : Command)

end

instance : Inhabited Piece := ⟨.text "" false⟩

instance : Inhabited Command := ⟨.group [] []⟩

/-- What is wrong with a script, and the number of line ends after that. -/
structure SyntaxError where
  message : String
  linesAfter : Nat
deriving Repr

/-- **A script**: the commands of the lines before the first one that is wrong, and the
number of all line ends. -/
structure Program where
  commands : List Command
  error : Option SyntaxError
  lineEnds : Nat

end Testplan.Script
