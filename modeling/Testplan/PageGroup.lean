import Testplan.Action
import Testplan.Path
import Testplan.Plan
import Testplan.Roster
/-!
# Scenarios by page

Every framework gets one test file per page.  `Plan.groups` reads the scenarios of
a plan, puts those with actions under the page they start on, in order of first
appearance, and keeps their order; the others are failures, in plan order.

The file of a page is named by its **stem**, the slug of its path: letters and
digits with hyphens between them.  Pages with the same slug are numbered from 2
(`freshStem`), so that stems never repeat.
-/
namespace Testplan

/-! ## Stems -/

/-- Letters and digits in lower case, with one hyphen for each run of other
characters. -/
def hyphenate (afterHyphen : Bool) : List Char → List Char
  | [] => []
  | c :: cs =>
    if c.isAlphanum then c.toLower :: hyphenate false cs
    else if afterHyphen then hyphenate true cs
    else '-' :: hyphenate true cs

/-- The slug of a page path; `root` if it has no letters or digits. -/
def slug (path : String) : String :=
  let cs := Text.dropEndWhile (· = '-') ((hyphenate false path.toList).dropWhile (· = '-'))
  if cs.isEmpty then "root" else String.ofList cs

/-- `base` with a number. -/
def numberedStem (base : String) (n : Nat) : String := base ++ "-" ++ toString n

/-- `base`, or its first numbering from 2 on that is not taken. -/
def freshStem (base : String) (taken : List String) : String :=
  if base ∈ taken then
    (((List.range (taken.length + 1)).map fun n => numberedStem base (n + 2)).find?
      fun s => s ∉ taken).getD base
  else base

/-- Stems for a list of page paths, none of them taken or repeated. -/
def stemsFor (taken : List String) : List String → List String
  | [] => []
  | key :: keys =>
    let stem := freshStem (slug key) taken
    stem :: stemsFor (taken ++ [stem]) keys

/-! ## Groups -/

/-- A scenario with its actions. -/
abbrev ReadScenario := Scenario × List Action

/-- **The scenarios of a page**, with the stem of its file. -/
structure PageGroup where
  key : String
  stem : String
  cases : List ReadScenario

/-- The scenarios of a plan with their actions, or the step that has none. -/
def Plan.readings (p : Plan) : List (Except RenderFailure ReadScenario) :=
  p.cases.map fun s => s.actions.map fun actions => (s, actions)

/-- The scenarios that have actions, in plan order. -/
def Plan.readable (p : Plan) : List ReadScenario := p.readings.filterMap Except.toOption

/-- The scenarios left out, in plan order. -/
def Plan.failures (p : Plan) : List RenderFailure :=
  p.readings.filterMap fun
    | .error f => some f
    | .ok _ => none

/-- Scenarios under the pages that they start on, both in order of appearance. -/
def byPage (cases : List ReadScenario) : Roster String (List ReadScenario) :=
  cases.foldl (fun r c => r.alter c.1.pageKey fun old => old.getD [] ++ [c]) .empty

/-- **The page groups of a plan.** -/
def Plan.groups (p : Plan) : List PageGroup :=
  let pages := byPage p.readable
  (pages.entries.zip (stemsFor [] pages.keys)).map fun ((key, cases), stem) =>
    { key, stem, cases }

/-- The upload paths that a group's scenarios use, in order. -/
def PageGroup.uploads (g : PageGroup) : List String :=
  g.cases.flatMap fun (_, actions) => actions.filterMap fun
    | .upload _ path => some path
    | _ => none

end Testplan
