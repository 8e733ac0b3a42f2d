/-!
# Errors of configuration and kinds of failure

Before any test runs, a persona or framework may be one that nobody registered, a required
value may be missing from the environment, or a file may be unreadable.

A test run that does not succeed fails in one of seven ways.  Only a locator that
found no element can be mended by choosing another.
-/
namespace Testplan

/-! ## Errors of configuration -/

/-- Why a required value is missing. -/
inductive MissingReason where
  /-- It is there but blank. -/
  | blank
  /-- It names a variable that has no value. -/
  | unset (name : String)
deriving DecidableEq, Repr

/-- The wording of the reason. -/
def MissingReason.message : MissingReason → String
  | blank => "비어 있습니다"
  | unset name => "$\x7b" ++ name ++ "\x7d 값을 찾을 수 없습니다"

/-- **An error of configuration.** -/
inductive ConfigError where
  | unknownPersona (persona : String)
  | unknownFramework (framework : String)
  | missingValue (field : String) (reason : MissingReason)
  /-- A file that is not there, is no text, or does not describe what it should. -/
  | unreadable (path : String)
deriving DecidableEq, Repr

/-- The wording of a configuration error. -/
def ConfigError.message : ConfigError → String
  | unknownPersona p => "알 수 없는 페르소나입니다: " ++ p
  | unknownFramework f => "알 수 없는 프레임워크입니다: " ++ f
  | missingValue field reason =>
    "필수 환경 값이 누락되었습니다: " ++ field ++ " (" ++ reason.message ++ ")"
  | unreadable path => "설정 파일을 읽을 수 없습니다: " ++ path

/-! ## Failures of a run -/

/-- **The ways in which a run fails.** -/
inductive FailureKind where
  /-- The test process could not be started. -/
  | processStart
  /-- A locator found no element. -/
  | selectorNotFound
  /-- A test or the whole run took too long. -/
  | timeout
  /-- The application could not be reached. -/
  | network
  /-- An expectation was not met. -/
  | assertion
  /-- The framework cannot run tests. -/
  | unsupported
  /-- Nothing is known about the failure. -/
  | unknown
deriving DecidableEq, Repr, Inhabited

namespace FailureKind

/-- All kinds of failure. -/
def all : List FailureKind :=
  [processStart, selectorNotFound, timeout, network, assertion, unsupported, unknown]

/-- The name of the kind in reports. -/
def name : FailureKind → String
  | processStart => "ProcessStart"
  | selectorNotFound => "SelectorNotFound"
  | timeout => "Timeout"
  | network => "Network"
  | assertion => "Assertion"
  | unsupported => "Unsupported"
  | unknown => "Unknown"

/-- The kind with a name. -/
def ofName? (s : String) : Option FailureKind := all.find? fun k => k.name = s

/-- Another locator may help. -/
def isHealable (k : FailureKind) : Bool := k = selectorNotFound

end FailureKind

/-- **The failure of a run.**  The exit code is that of the test process, if it ended by
itself. -/
structure JobFailure where
  kind : FailureKind
  message : String
  exitCode : Option Int := none
deriving DecidableEq, Repr

end Testplan
