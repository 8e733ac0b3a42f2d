import Testplan.Failure
import Testplan.LinePattern
/-!
# What a log says about a failure

`diagnose` looks for the cause of a failure in the lines that a test process printed.
Five rules are tried in a fixed order, and the first that finds a line decides; the
line it finds is the **evidence**.  If no rule finds any, the cause is unknown.

A Playwright action that timed out counts as a missing element only together with a
line that tells which element it was waiting for; that line is then the evidence.
-/
namespace Testplan

/-- **The cause of a failure**, with the line that shows it. -/
structure Diagnosis where
  kind : FailureKind
  evidence : Option String
deriving DecidableEq, Repr

namespace Diagnosis

open LinePattern

/-- The test runner itself could not be started. -/
def processStart : LinePattern := oneOf [
  anyCase "command not found",
  anyCase "could not determine executable to run",
  anyCase "cannot find module",
  inOrder [anyCase "spawn ", several .nonBlank, anyCase " ENOENT"],
  anyCase "is not recognized as an internal or external command"]

/-- A Playwright action timed out. -/
def actionTimeout : LinePattern := inOrder [
  text "locator.", several .word, text ": Timeout ", several .digit, text "ms exceeded"]

/-- What a Playwright action was waiting for. -/
def waitingFor : LinePattern := inOrder [
  text "waiting for ", either (inOrder [text "getBy", several .word]) (text "locator"),
  text "("]

/-- Other messages about a missing element. -/
def missingElement : LinePattern := oneOf [
  inOrder [text "Expected to find element: ", several .anyInLine, text ", but never found it"],
  inOrder [text "Unable to find a", either (text "n") nothing, text " ",
    either (text "accessible ") nothing, text "element with"],
  text "Unable to find a label with the text of: ",
  inOrder [text "Found a label with the text of: ", several .anyInLine,
    text ", however no form control was found"],
  text "no such element",
  inOrder [text "element (\"", several .anyInLine, text "\") still not ",
    either (text "displayed") (text "existing")]]

/-- A test took too long. -/
def testTimeout : LinePattern := oneOf [
  inOrder [text "Test timeout of ", several .digit, text "ms exceeded"],
  inOrder [text "Timeout of ", several .digit, text "ms exceeded"],
  text "TimeoutError",
  text "function timed out"]

/-- The application could not be reached. -/
def networkError : LinePattern := oneOf [
  inOrder [text "net::ERR_", several .word],
  text "ECONNREFUSED", text "ENOTFOUND", text "ECONNRESET", text "ETIMEDOUT",
  text "getaddrinfo", text "socket hang up"]

/-- An expectation was not met. -/
def failedAssertion : LinePattern := oneOf [
  text "AssertionError",
  inOrder [text "expect(", several .anyInLine, text ").", several .word],
  text "Expected: ",
  inOrder [text "expected ", several .anyInLine, text " to "]]

/-- The first line in which the pattern occurs. -/
def firstLine (p : LinePattern) (lines : List String) : Option String := lines.find? p.occursIn

/-- The line about an element that was not found. -/
def missingElementLine (lines : List String) : Option String :=
  let waiting := if lines.any actionTimeout.occursIn then firstLine waitingFor lines else none
  waiting <|> firstLine missingElement lines

/-- The rules in their order. -/
def rules : List (FailureKind × (List String → Option String)) := [
  (.processStart, firstLine processStart),
  (.selectorNotFound, missingElementLine),
  (.timeout, firstLine testTimeout),
  (.network, firstLine networkError),
  (.assertion, firstLine failedAssertion)]

end Diagnosis

/-- **The cause of a failure**, from the lines of the log. -/
def diagnose (lines : List String) : Diagnosis :=
  match Diagnosis.rules.findSome? fun (kind, rule) => (rule lines).map fun line => (kind, line) with
  | some (kind, line) => { kind, evidence := some line }
  | none => { kind := .unknown, evidence := none }

end Testplan
