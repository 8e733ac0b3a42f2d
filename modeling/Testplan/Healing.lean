import Testplan.Discovery
import Testplan.Plan
/-!
# Healing plans

A run that failed because a locator found no element can be tried again with another
locator.  The **evidence** is the line of the log that tells which element was missing.
From it come the **arguments**: the texts in quotes, the values of attributes, and the
texts that accessibility messages give without quotes (`evidenceArguments`).

A step is **implicated** if the payload of its locator is one of the arguments.  A plan
can be healed if all implicated steps have the same hint and something else is known
about the element: the next rule for the field that the locator came from, or the first
element of its role.  `Plan.heal` then replaces the hint in all these steps, and changes
nothing else.  A plan in the last version that there is cannot be given another one: the
counter of versions overflows, and nobody gets an answer.
-/
namespace Testplan

/-! ## Arguments of the evidence -/

/-- All that `found?` finds in a text, from left to right without overlap: it looks at
the start of a text and gives what it found there and the rest of the text. -/
def findAll (found? : List Char → Option (List Char × List Char)) :
    Nat → List Char → List (List Char)
  | 0, _ => []
  | fuel + 1, cs =>
    match found? cs with
    | some (found, rest) => found :: findAll found? fuel rest
    | none => match cs with
      | [] => []
      | _ :: rest => findAll found? fuel rest

/-- A text in single or double quotes. -/
def quotedAt? : List Char → Option (List Char × List Char)
  | '\'' :: rest => Text.cutAtChar '\'' rest
  | '"' :: rest => Text.cutAtChar '"' rest
  | _ => none

/-- A text in quotes behind an equals sign. -/
def attributeAt? : List Char → Option (List Char × List Char)
  | '=' :: rest => quotedAt? (rest.dropWhile Text.isBlank)
  | _ => none

/-- What stands on this line before a remark, or before the end of the text; `acc` is
what was read already, in reverse. -/
def beforeRemark (acc : List Char) : List Char → Option (List Char × List Char)
  | [] => if acc.isEmpty then none else some (acc.reverse, [])
  | c :: rest =>
    match if acc.isEmpty then none else Text.dropPiece? ", however".toList (c :: rest) with
    | some remark => some (acc.reverse, remark)
    | none => if c = '\n' then none else beforeRemark (c :: acc) rest

/-- A text that a message about labels gives without quotes. -/
def labelTextAt? (cs : List Char) : Option (List Char × List Char) :=
  (Text.dropPiece? "text of: ".toList cs).bind (beforeRemark [])

/-- The argument that a text of the evidence stands for: without white space around it
and without the tilde of an accessibility identifier. -/
def argumentOf? (cs : List Char) : Option String :=
  let value := (Text.trim cs).dropWhile (· = '~')
  if value.isEmpty then none else some (String.ofList value)

/-- The arguments in a line of evidence. -/
def evidenceArguments (evidence : String) : List String :=
  let cs := evidence.toList
  let all (found? : List Char → Option (List Char × List Char)) := findAll found? (cs.length + 1) cs
  (all quotedAt? ++ all attributeAt? ++ all labelTextAt?).filterMap argumentOf?

/-! ## Another locator -/

/-- What to try after a locator failed. -/
def Discovery.alternative? (d : Discovery) : Locator → Option Locator
  | .role r _ => some (.firstOfRole r)
  | .label t => viaField (.label t)
  | .placeholder t => viaField (.placeholder t)
  | .name t => viaField (.name t)
  | .inputType t => viaField (.inputType t)
  | .firstField | .firstOfRole _ | .text _ | .css _ => none
where
  /-- The next rule for the first field that the locator fits. -/
  viaField (l : Locator) : Option Locator :=
    (d.fields.find? fun f => f.produces l).bind fun f => f.locatorAfter l.kind

/-! ## Healing -/

/-- Why a plan cannot be healed. -/
inductive HealError where
  /-- Nothing is known about the application. -/
  | missingDiscovery
  /-- No step is implicated. -/
  | noEvidence
  /-- Steps with different hints are implicated. -/
  | ambiguous (first second : String)
  /-- Nothing else can be tried. -/
  | noAlternative (hint : String)
deriving DecidableEq, Repr

/-- The wording of the error. -/
def HealError.message : HealError → String
  | missingDiscovery => "Discovery 정보가 없어 로케이터를 재합성할 수 없습니다."
  | noEvidence => "실패 로그에서 대상 로케이터를 특정할 수 없습니다."
  | ambiguous first second => "실패 근거가 여러 로케이터와 일치합니다: " ++ first ++ ", " ++ second
  | noAlternative hint => "대체 로케이터가 없습니다: " ++ hint

/-- A step that was given another hint. -/
structure HealedStep where
  scenarioId : String
  stepIndex : Nat
  old : String
  new : String
deriving DecidableEq, Repr

/-- The line that reports a change. -/
def HealedStep.message (s : HealedStep) : String :=
  s.scenarioId ++ "#" ++ toString s.stepIndex ++ ": " ++ s.old ++ " -> " ++ s.new

/-- **A healed plan**, with the steps that were changed. -/
structure HealedPlan where
  plan : Plan
  changes : List HealedStep
deriving DecidableEq

/-- **How healing ends.** -/
inductive HealResult where
  | ok (healed : HealedPlan)
  | error (e : HealError)
  /-- Without an answer: the counter of versions overflowed. -/
  | overflow
deriving DecidableEq

/-- The hint and locator of a step whose payload is one of the arguments. -/
def Step.implicated? (arguments : List String) (s : Step) : Option (String × Locator) :=
  if s.kind = .goto then none
  else match s.target with
    | none => none
    | some hint => match Locator.parse hint with
      | .error _ => none
      | .ok l =>
        if l.payload.any fun t => Text.strip t ∈ arguments then some (hint, l) else none

/-- The hints and locators of all implicated steps, in plan order. -/
def Plan.implicated (p : Plan) (arguments : List String) : List (String × Locator) :=
  p.cases.flatMap fun s => s.steps.filterMap (Step.implicated? arguments)

/-- The scenario with a new hint in all implicated steps. -/
def Scenario.retargeted (s : Scenario) (arguments : List String) (hint : String) : Scenario :=
  { s with steps := s.steps.map fun step =>
      if (step.implicated? arguments).isSome then step.retargeted hint else step }

/-- The changes that give all implicated steps of a scenario a new hint. -/
def Scenario.changes (s : Scenario) (arguments : List String) (hint : String) :
    List HealedStep :=
  s.steps.zipIdx.filterMap fun (step, index) =>
    (step.implicated? arguments).map fun (old, _) =>
      { scenarioId := s.id, stepIndex := index, old, new := hint }

/-- **Heals a plan** from a line of evidence. -/
def Plan.heal (p : Plan) (d : Discovery) (evidence : String) : HealResult :=
  let arguments := evidenceArguments evidence
  match p.implicated arguments with
  | [] => .error .noEvidence
  | (hint, l) :: others =>
    match others.find? fun other => other.1 ≠ hint with
    | some (other, _) => .error (.ambiguous hint other)
    | none =>
      match d.alternative? l with
      | none => .error (.noAlternative hint)
      | some replacement =>
        let new := replacement.render
        match p.revise? (p.cases.map fun s => s.retargeted arguments new) with
        | none => .overflow
        | some plan => .ok { plan, changes := p.cases.flatMap fun s => s.changes arguments new }

/-- Only the last version that there is cannot be given another one. -/
theorem Plan.version_of_overflow {p : Plan} {d : Discovery} {evidence : String}
    (h : p.heal d evidence = .overflow) : p.id.version.toNat + 1 = UInt32.size := by
  unfold heal at h
  dsimp only at h
  split at h
  · cases h
  · split at h
    · cases h
    · split at h
      · cases h
      · split at h
        · next hnone => exact revise?_eq_none_iff.mp hnone
        · cases h

end Testplan
