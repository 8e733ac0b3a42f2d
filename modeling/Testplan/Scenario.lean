import Testplan.KeyTable
import Testplan.TextBlank
import Testplan.TextCut
/-!
# Steps, scenarios and the pages that they are about

A **step** is one action of a test, independent of any framework: a kind with an
optional target (a hint or a URL), an optional value and an optional note.  A
**scenario** is a list of steps that can run on its own, with what is known about
it for reports: identifier, title, kind of coverage, tags and risk.

The first page that a scenario goes to is its page (`Scenario.pageKey`).  Pages are compared
by their path on the site.  `urlPath` reduces an absolute URL or a reference to that path:
the scheme and the host go, the query and the fragment go, and the path gets a leading slash
if it has none.
-/
namespace Testplan

/-! ## Page paths -/

/-- The part of a reference before its query and its fragment. -/
def beforeQuery (cs : List Char) : List Char :=
  cs.takeWhile fun c => c ≠ '?' && c ≠ '#'

/-- A reference without scheme as a path with a leading slash. -/
def rootedPath (cs : List Char) : List Char :=
  match beforeQuery cs with
  | [] => ['/']
  | '/' :: rest => '/' :: rest
  | path => '/' :: path

/-- **The path of a URL**: what follows the host, without query and fragment; the root
if nothing follows. -/
def urlPath (raw : String) : String :=
  let cs := Text.trim raw.toList
  String.ofList <|
    match Text.cutAt "://".toList cs with
    | none => rootedPath cs
    | some (_, afterScheme) =>
      match afterScheme.dropWhile (· ≠ '/') with
      | [] => ['/']
      | path => rootedPath path

/-! ## Steps -/

/-- The kinds of step. -/
inductive StepKind where
  | goto
  | click
  | fill
  | expectText
  | expectVisible
  | upload
  | custom
deriving DecidableEq, Repr

namespace StepKind

/-- All kinds. -/
def all : List StepKind := [goto, click, fill, expectText, expectVisible, upload, custom]

/-- The written name of a kind. -/
def name : StepKind → String
  | goto => "goto"
  | click => "click"
  | fill => "fill"
  | expectText => "expect-text"
  | expectVisible => "expect-visible"
  | upload => "upload"
  | custom => "custom"

/-- The kind with a name. -/
def ofName? (s : String) : Option StepKind := all.find? fun k => k.name = s

end StepKind

/-- **A step** of a scenario. -/
structure Step where
  kind : StepKind
  target : Option String := none
  value : Option String := none
  note : Option String := none
deriving DecidableEq, Repr

namespace Step

/-- Opens a page. -/
def goto (url : String) : Step := { kind := .goto, target := some url }

/-- Clicks an element. -/
def click (target : String) : Step := { kind := .click, target := some target }

/-- Types a value into a field. -/
def fill (target value : String) : Step :=
  { kind := .fill, target := some target, value := some value }

/-- Expects a text on the page. -/
def expectText (text : String) : Step := { kind := .expectText, value := some text }

/-- Expects an element to be visible. -/
def expectVisible (target : String) : Step := { kind := .expectVisible, target := some target }

/-- Gives a file to an upload field. -/
def upload (target path : String) : Step :=
  { kind := .upload, target := some target, value := some path }

/-- A note for a human tester. -/
def custom (note : String) : Step := { kind := .custom, note := some note }

/-- The same step on another target. -/
def retargeted (s : Step) (target : String) : Step := { s with target := some target }

end Step

/-! ## Scenarios -/

/-- What a scenario covers. -/
inductive CoverageType where
  | statement
  | branch
  | edge
  | decision
  | security
  | regression
  | accessibility
  | other
deriving DecidableEq, Repr

namespace CoverageType

/-- All kinds of coverage. -/
def all : List CoverageType :=
  [statement, branch, edge, decision, security, regression, accessibility, other]

/-- The written name of a kind of coverage. -/
def name : CoverageType → String
  | statement => "statement"
  | branch => "branch"
  | edge => "edge"
  | decision => "decision"
  | security => "security"
  | regression => "regression"
  | accessibility => "accessibility"
  | other => "other"

/-- The kind of coverage with a name. -/
def ofName? (s : String) : Option CoverageType := all.find? fun k => k.name = s

end CoverageType

/-- How much a failure matters. -/
inductive Risk where
  | low
  | medium
  | high
deriving DecidableEq, Repr

namespace Risk

/-- All risks. -/
def all : List Risk := [low, medium, high]

/-- The written name of a risk. -/
def name : Risk → String
  | low => "low"
  | medium => "medium"
  | high => "high"

/-- The risk with a name. -/
def ofName? (s : String) : Option Risk := all.find? fun k => k.name = s

end Risk

/-- **A scenario**: steps that can run on their own. -/
structure Scenario where
  id : String
  title : String
  coverage : CoverageType
  description : Option String := none
  tags : TagSet := .empty
  risk : Option Risk := none
  steps : List Step
deriving DecidableEq

namespace Scenario

/-- A scenario that belongs on the security queue. -/
def isSecurity (s : Scenario) : Bool := s.coverage = .security

/-- The path of the first page that the scenario goes to, or the root. -/
def pageKey (s : Scenario) : String :=
  match s.steps.find? fun step => step.kind = .goto with
  | some { target := some url, .. } => urlPath url
  | _ => "/"

end Scenario

end Testplan
