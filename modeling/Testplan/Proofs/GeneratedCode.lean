import Testplan.Proofs.CodeUnits
/-!
# Generated code that finds elements

The part of the generated code that finds elements on a page, as data: expressions, the
statements of a function that chooses one of them, how both are written, and what they yield.

A page is asked for elements by a `Query`, and nothing else about a page enters here: what a
query finds is the affair of the framework that runs the tests.  Evaluation has no value where
the code would fail, or where it leaves this part of the language.
-/
namespace Testplan.Code

/-! ## Queries and values -/

/-- **What a page is asked for**, with the texts that the page is given. -/
inductive Query where
  | label (text : CodeUnits)
  | placeholder (text : CodeUnits)
  | role (role name : CodeUnits)
  | text (text : CodeUnits)
  /-- The elements of a selector. -/
  | locator (selector : CodeUnits)
  /-- The first of what a query finds. -/
  | first (q : Query)
deriving DecidableEq

/-- The values of expressions. -/
inductive Value where
  | text (s : CodeUnits)
  | number (n : Int)
  | truth (b : Bool)
  /-- An object with one member. -/
  | object (key : String) (v : Value)
  /-- The page. -/
  | page
  /-- The library's object that writes values as texts. -/
  | json
  | query (q : Query)
deriving DecidableEq

namespace Value

/-- The text with others before and behind it. -/
def within? (before after : CodeUnits) : Value → Option Value
  | text s => some (text (before ++ s ++ after))
  | _ => none

/-- Whether two texts are the same. -/
def same? : Value → Value → Option Value
  | text s, text t => some (truth (s = t))
  | _, _ => none

/-- Whether a number is greater than another. -/
def above? : Value → Value → Option Value
  | number m, number n => some (truth (n < m))
  | _, _ => none

def plus? : Value → Value → Option Value
  | number m, number n => some (number (m + n))
  | _, _ => none

/-- One of two, by a truth value. -/
def choose? {α : Type} (yes no : Option α) : Value → Option α
  | truth true => yes
  | truth false => no
  | _ => none

/-- What a method of a value yields. -/
def method? : Value → String → List Value → Option Value
  | text s, "indexOf", [text piece] => some (number (CodeUnits.indexOf piece s))
  | text s, "slice", [number start] => some (text (CodeUnits.slice s start none))
  | text s, "slice", [number start, number stop] =>
    some (text (CodeUnits.slice s start (some stop)))
  | json, "stringify", [text s] => some (text (CodeUnits.stringify s))
  | page, "getByLabel", [text t] => some (query (.label t))
  | page, "getByPlaceholder", [text t] => some (query (.placeholder t))
  | page, "getByRole", [text r, object "name" (text n)] => some (query (.role r n))
  | page, "getByText", [text t] => some (query (.text t))
  | page, "locator", [text selector] => some (query (.locator selector))
  | query q, "first", [] => some (query (.first q))
  | _, _, _ => none

end Value

/-! ## Expressions -/

/-- **The expressions.** -/
inductive Expr where
  /-- A literal, which is read as the text that it was written for
  (`Text.literalAt?_jsonLiteral`). -/
  | text (s : String)
  | number (n : Nat)
  | name (x : String)
  /-- An object with one member. -/
  | object (key : String) (e : Expr)
  /-- A text with the value of an expression inside. -/
  | template (before : String) (e : Expr) (after : String)
  | same (a b : Expr)
  | above (a b : Expr)
  | plus (a b : Expr)
  | either (test yes no : Expr)
  | call (receiver : Expr) (method : String) (args : List Expr)

namespace Expr

/-- How closely the parts of an expression hold together. -/
def level : Expr → Nat
  | either _ _ _ => 0
  | same _ _ => 1
  | above _ _ => 2
  | plus _ _ => 3
  | number _ => 4
  | text _ | name _ | object _ _ | template _ _ _ | call _ _ _ => 5

/-- The text of an expression where one of at least a level may stand. -/
def guarded (level : Nat) (e : Expr) (written : String) : String :=
  if e.level < level then "(" ++ written ++ ")" else written

/-- The fixed text of a template. -/
def templateText (s : String) : String :=
  String.ofList (s.toList.flatMap fun c =>
    if c = '\x60' ∨ c = '\\' ∨ c = '$' then ['\\', c] else [c])

mutual

/-- The text of an expression. -/
def written : Expr → String
  | text s => literal s
  | number n => toString n
  | name x => x
  | object key e => "\x7b " ++ key ++ ": " ++ e.written ++ " \x7d"
  | template before e after =>
    "`" ++ templateText before ++ "$\x7b" ++ e.written ++ "\x7d" ++ templateText after ++ "`"
  | same a b => a.guarded 1 a.written ++ " === " ++ b.guarded 2 b.written
  | above a b => a.guarded 2 a.written ++ " > " ++ b.guarded 3 b.written
  | plus a b => a.guarded 3 a.written ++ " + " ++ b.guarded 4 b.written
  | either test yes no => test.guarded 1 test.written ++ " ? " ++ yes.written ++ " : " ++ no.written
  | call receiver method args =>
    receiver.guarded 5 receiver.written ++ "." ++ method ++ "(" ++
      ", ".intercalate (writtenAll args) ++ ")"

def writtenAll : List Expr → List String
  | [] => []
  | e :: rest => e.written :: writtenAll rest

end

/-- The values of names. -/
abbrev Env := List (String × Value)

mutual

/-- **The value of an expression.** -/
def value? (env : Env) : Expr → Option Value
  | text s => some (.text (CodeUnits.ofText s))
  | number n => some (.number n)
  | name x => env.lookup x
  | object key e => (e.value? env).map (.object key)
  | template before e after =>
    (e.value? env).bind (Value.within? (CodeUnits.ofText before) (CodeUnits.ofText after))
  | same a b => (a.value? env).bind fun v => (b.value? env).bind v.same?
  | above a b => (a.value? env).bind fun v => (b.value? env).bind v.above?
  | plus a b => (a.value? env).bind fun v => (b.value? env).bind v.plus?
  | either test yes no => (test.value? env).bind (Value.choose? (yes.value? env) (no.value? env))
  | call receiver method args =>
    (receiver.value? env).bind fun v => (values? env args).bind (v.method? method)

def values? (env : Env) : List Expr → Option (List Value)
  | [] => some []
  | e :: rest => (e.value? env).bind fun v => (values? env rest).map (v :: ·)

end

end Expr

/-! ## Functions -/

/-- **The statements** of a function that chooses an expression and returns its value. -/
inductive Stmt where
  | returnIf (test result : Expr)
  | const (x : String) (e : Expr)
  /-- Returns the expression of the first clause with a label that is the text of `subject`. -/
  | switch (subject : Expr) (clauses : List (List String × Expr)) (default : Expr)

/-- A function with its parameters and its body. -/
structure Function where
  name : String
  params : List String
  body : List Stmt

namespace Stmt

/-- The lines of a clause. -/
def clauseLines (clause : List String × Expr) : List String :=
  clause.1.map (fun label => "    case " ++ literal label ++ ":") ++
    ["      return " ++ clause.2.written ++ ";"]

/-- The lines of a statement. -/
def lines : Stmt → List String
  | returnIf test result => ["  if (" ++ test.written ++ ") return " ++ result.written ++ ";"]
  | const x e => ["  const " ++ x ++ " = " ++ e.written ++ ";"]
  | switch subject clauses default =>
    ("  switch (" ++ subject.written ++ ") \x7b") :: clauses.flatMap clauseLines ++
      ["    default:", "      return " ++ default.written ++ ";", "  \x7d"]

/-- The expression that a text chooses. -/
def chosen (clauses : List (List String × Expr)) (default : Expr) (s : CodeUnits) : Expr :=
  match clauses.find? fun clause => clause.1.any fun label => CodeUnits.ofText label = s with
  | some clause => clause.2
  | none => default

/-- **What statements return.** -/
def run (env : Expr.Env) : List Stmt → Option Value
  | [] => none
  | returnIf test result :: rest =>
    (test.value? env).bind (Value.choose? (result.value? env) (run env rest))
  | const x e :: rest => (e.value? env).bind fun v => run ((x, v) :: env) rest
  | switch subject clauses default :: _ =>
    match subject.value? env with
    | some (.text s) => (chosen clauses default s).value? env
    | _ => none

section

variable {env : Expr.Env} {test result e subject : Expr} {rest : List Stmt}

theorem run_returnIf_false (h : test.value? env = some (.truth false)) :
    run env (returnIf test result :: rest) = run env rest := by
  rw [run, h]
  rfl

theorem run_const {x : String} {v : Value} (h : e.value? env = some v) :
    run env (const x e :: rest) = run ((x, v) :: env) rest := by
  rw [run, h]
  rfl

theorem run_switch {clauses : List (List String × Expr)} {default : Expr} {s : CodeUnits}
    (h : subject.value? env = some (.text s)) :
    run env (switch subject clauses default :: rest) = (chosen clauses default s).value? env := by
  rw [run, h]

end

end Stmt

namespace Function

/-- The lines of a function. -/
def lines (f : Function) : List String :=
  ("function " ++ f.name ++ "(" ++ ", ".intercalate f.params ++ ") \x7b") ::
    f.body.flatMap Stmt.lines ++ ["\x7d"]

/-- The names that every function knows. -/
def library : Expr.Env := [("JSON", .json)]

/-- **What a function returns.** -/
def result? (f : Function) (args : List Value) : Option Value :=
  Stmt.run (f.params.zip args ++ library) f.body

end Function

end Testplan.Code
