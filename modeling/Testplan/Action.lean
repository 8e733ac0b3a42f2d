import Testplan.Locator
import Testplan.Scenario
/-!
# The actions that steps stand for

A test framework is given **actions**: steps whose hints have been read.  All
frameworks share one rule (`Step.action`), so a step that has no action is left
out by every one of them for the same reason.

A scenario is rendered whole or not at all: `Scenario.actions` reads its steps in
order and stops at the first that has no action.
-/
namespace Testplan

/-- **An action** on the application under test. -/
inductive Action where
  | goto (url : String)
  | click (locator : Locator)
  | fill (locator : Locator) (value : String)
  | expectText (text : String)
  | expectVisible (locator : Locator)
  | upload (locator : Locator) (path : String)
  | custom (note : String)
deriving DecidableEq, Repr

/-- Why a step has no action. -/
inductive StepError where
  /-- The step's URL, text or path is missing or blank. -/
  | missing (what : String)
  /-- The step needs a hint and has none. -/
  | noHint (kind : StepKind)
  /-- The step's hint cannot be read. -/
  | badHint (error : HintError)
deriving DecidableEq, Repr

/-- The wording of a step error. -/
def StepError.message : StepError → String
  | missing what => what ++ "이(가) 없습니다"
  | noHint kind => kind.name ++ " 대상 힌트가 없습니다"
  | badHint error => error.message

/-- The locator of a hint. -/
def locatorOf (hint : String) : Except StepError Locator :=
  (Locator.parse hint).mapError .badHint

/-- A text that must be there, without the blanks around it. -/
def requiredText (text : Option String) (what : String) : Except StepError String :=
  match Text.present? text with
  | some t => .ok t
  | none => .error (.missing what)

/-- **The action of a step.** -/
def Step.action (s : Step) : Except StepError Action :=
  match s.kind with
  | .goto => (requiredText s.target "goto 대상 URL").map .goto
  | .click =>
    match s.target with
    | some hint => (locatorOf hint).map .click
    | none => .error (.noHint .click)
  | .fill => do
    let locator ← match s.target with
      | some hint => locatorOf hint
      | none => .ok .firstField
    return .fill locator (s.value.getD "")
  | .expectText => (requiredText s.value "expect-text 기대 텍스트").map .expectText
  | .expectVisible =>
    match s.target with
    | some hint => (locatorOf hint).map .expectVisible
    | none => .error (.noHint .expectVisible)
  | .upload => do
    let locator ← match s.target with
      | some hint => locatorOf hint
      | none => .ok (.inputType "file")
    let path ← requiredText s.value "upload 파일 경로"
    return .upload locator path
  | .custom => .ok (.custom ((s.note <|> s.value <|> s.target).getD ""))

/-- A scenario that no framework can render, with the first step that has no action. -/
structure RenderFailure where
  scenarioId : String
  scenarioTitle : String
  stepIndex : Nat
  reason : StepError
deriving DecidableEq, Repr

/-- The wording of a render failure. -/
def RenderFailure.message (f : RenderFailure) : String :=
  "시나리오 '" ++ f.scenarioTitle ++ "'(" ++ f.scenarioId ++ ")의 " ++ toString f.stepIndex ++
    "번째 Step 렌더링 실패: " ++ f.reason.message

/-- The actions of a list of steps, the first of which has number `index`. -/
def Scenario.actionsFrom (s : Scenario) (index : Nat) :
    List Step → Except RenderFailure (List Action)
  | [] => .ok []
  | step :: rest =>
    match step.action with
    | .error reason => .error ⟨s.id, s.title, index, reason⟩
    | .ok action => (s.actionsFrom (index + 1) rest).map (action :: ·)

/-- **The actions of a scenario**, or the first step that has none. -/
def Scenario.actions (s : Scenario) : Except RenderFailure (List Action) :=
  s.actionsFrom 0 s.steps

end Testplan
