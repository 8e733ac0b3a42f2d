import Testplan.Environment
import Testplan.Failure
import Testplan.Pattern
import Testplan.Plan
import Testplan.Roster
/-!
# Personas and compiled plans

A **persona** is a point of view on testing, and stands for a list of patterns.  The library
keeps the personas in the order of their registration; registering one again replaces its
patterns.

A plan is compiled from what a crawler found by the patterns of a persona, one
after the other.  The environment is resolved first, so that a plan never comes out
of a configuration that could not run; the persona is looked up before that.

The plan's base URL is that of the environment, else that of the discovery unless it
is blank, else the root.  Its coverage profile gives the share of each kind of
coverage among the scenarios in whole percent.
-/
namespace Testplan

/-! ## Personas -/

/-- **The personas with their patterns.** -/
structure PatternLibrary where
  bundles : Roster String (List Pattern)

namespace PatternLibrary

/-- The library without personas. -/
def empty : PatternLibrary := ⟨.empty⟩

/-- Registers a persona. -/
def register (l : PatternLibrary) (persona : String) (patterns : List Pattern) :
    PatternLibrary :=
  ⟨l.bundles.insert persona patterns⟩

/-- The library with the four personas that are always there. -/
def builtin : PatternLibrary :=
  (((empty.register "sdet"
      [.pageSmoke, .formHappyPath, .requiredValidation, .fileUpload, .linkNavigation]).register
    "manual" [.pageSmoke, .labelledFields, .linkNavigation]).register
    "automation" [.pageSmoke, .formHappyPath, .fileUpload, .linkNavigation]).register
    "security" [.pageSmoke, .injectionProbe]

/-- The patterns of a persona. -/
def bundle (l : PatternLibrary) (persona : String) : Except ConfigError (List Pattern) :=
  match l.bundles.get? persona with
  | some patterns => .ok patterns
  | none => .error (.unknownPersona persona)

/-- The personas in the order of registration. -/
def personas (l : PatternLibrary) : List String := l.bundles.keys

end PatternLibrary

/-! ## Compiling -/

/-- The share of one kind of coverage among scenarios, in percent rounded to a whole
number; none if no scenario is of the kind. -/
def coverageShare (cases : List Scenario) (kind : CoverageType) : Option Single :=
  let hits := (cases.filter fun c => c.coverage = kind).length
  if hits = 0 then none
  else some (((Single.ofNat hits).div (Single.ofNat cases.length)).mul (Single.ofNat 100)).round

/-- The coverage profile of the scenarios that `patterns` patterns made. -/
def coverageProfile (cases : List Scenario) (patterns : Nat) : CoverageProfile where
  statement := coverageShare cases .statement
  branch := coverageShare cases .branch
  decision := coverageShare cases .decision
  edge := coverageShare cases .edge
  security := coverageShare cases .security
  notes := [toString cases.length ++ " scenarios from " ++ toString patterns ++ " patterns"]

/-- The base URL of a plan. -/
def planBaseUrl (d : Discovery) (resolved : Environment) : String :=
  (resolved.baseUrl <|> d.baseUrl.filter fun u => !Text.isBlankText u).getD "/"

/-- **Compiles a plan** at a given time, as the first version of the lineage `fresh`. -/
def compilePlan (fresh : Uuid) (d : Discovery) (env : Environment) (process : Variables)
    (persona : String) (library : PatternLibrary) (generatedAt : Timestamp) :
    Except ConfigError Plan := do
  let patterns ← library.bundle persona
  let resolved ← env.resolve process
  let cases := patterns.flatMap fun p => p.scenarios d
  return (Plan.create fresh (planBaseUrl d resolved) persona cases generatedAt).withCoverage
    (coverageProfile cases patterns.length)

end Testplan
