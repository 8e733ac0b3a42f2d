import Testplan.Action
import Testplan.Discovery
/-!
# Patterns: from a page to its scenarios

A **pattern** is a rule that makes scenarios out of what a crawler found, the same
ones whenever it finds the same.  There are seven: a visit to every page, filling
and submitting forms, submitting them empty, uploading files, following links,
finding fields by their labels, and putting injection payloads into text fields.

Scenarios are identified by the pattern, the path of the page and, where a page can
have several, a number (`caseId`).
-/
namespace Testplan

/-- **The patterns.** -/
inductive Pattern where
  | pageSmoke
  | formHappyPath
  | requiredValidation
  | fileUpload
  | linkNavigation
  | labelledFields
  | injectionProbe
deriving DecidableEq, Repr

namespace Pattern

/-- All patterns. -/
def all : List Pattern :=
  [pageSmoke, formHappyPath, requiredValidation, fileUpload, linkNavigation, labelledFields,
    injectionProbe]

/-- The written name of a pattern. -/
def name : Pattern → String
  | pageSmoke => "page-smoke"
  | formHappyPath => "form-happy-path"
  | requiredValidation => "required-validation"
  | fileUpload => "file-upload"
  | linkNavigation => "link-navigation"
  | labelledFields => "labelled-fields"
  | injectionProbe => "injection-probe"

/-- The pattern with a name. -/
def ofName? (s : String) : Option Pattern := all.find? fun p => p.name = s

/-! ## Parts of scenarios -/

/-- The file that upload scenarios use. -/
def uploadFixture : String := "fixtures/sample.pdf"

/-- The number of links of a page that are followed. -/
def followedLinks : Nat := 3

/-- The injection payloads, each with its tag. -/
def payloads : List (String × String) :=
  [("xss", "<script>alert(1)</script>"), ("sqli", "' OR '1'='1")]

/-- The identifier of a scenario. -/
def caseId (p : Pattern) (path : String) (index : Option Nat) : String :=
  match index with
  | none => p.name ++ ":" ++ path
  | some i => p.name ++ ":" ++ path ++ "#" ++ toString i

/-- The forms of a page, numbered from 0 if there are several. -/
def numberedForms (page : DiscoveredPage) : List (Option Nat × DiscoveredForm) :=
  page.forms.zipIdx.map fun (form, i) =>
    (if 1 < page.forms.length then some i else none, form)

/-- What the number of a form adds to a title. -/
def titleSuffix : Option Nat → String
  | none => ""
  | some i => " (form " ++ toString (i + 1) ++ ")"

/-- Submits a form. -/
def submitStep (form : DiscoveredForm) : Step := .click (Locator.button form.submit).render

/-- Fills a field, or gives it the upload fixture. -/
def fillStep (field : FieldDescriptor) : Step :=
  if field.isFile then .upload field.locator.render uploadFixture
  else .fill field.locator.render field.fillValue

/-- Expects a field to be visible. -/
def visibleStep (field : FieldDescriptor) : Step := .expectVisible field.locator.render

/-- Expects the landmark of a page, if it has one. -/
def landmarkSteps (page : Option DiscoveredPage) : List Step :=
  ((page.bind DiscoveredPage.landmark).map Step.expectText).toList

/-- A scenario for every form of every page for which `steps` makes any. -/
def perForm (d : Discovery)
    (scenario : DiscoveredPage → Option Nat → DiscoveredForm → Option Scenario) :
    List Scenario :=
  d.pages.flatMap fun page =>
    (numberedForms page).filterMap fun (index, form) => scenario page index form

/-! ## The patterns -/

/-- A visit to every page that expects its landmark. -/
def smokeScenarios (d : Discovery) : List Scenario :=
  d.pages.map fun page =>
    { id := pageSmoke.caseId page.path none
      title := "Page loads: " ++ page.path
      coverage := .statement
      tags := .ofTags ["smoke"]
      risk := some .low
      steps := .goto page.path :: landmarkSteps (some page) }

/-- Fills every field of every form and submits it. -/
def happyPathScenarios (d : Discovery) : List Scenario :=
  perForm d fun page index form =>
    if form.fields.isEmpty then none
    else some
      { id := formHappyPath.caseId page.path index
        title := "Submit form on " ++ page.path ++ titleSuffix index
        coverage := .branch
        description :=
          some "Fills every discovered field with a plausible value and submits."
        tags := .ofTags ["form", "happy-path"]
        risk := some .medium
        steps := .goto page.path :: form.fields.map fillStep ++ [submitStep form] }

/-- Submits every form empty and expects its required fields to be there still. -/
def validationScenarios (d : Discovery) : List Scenario :=
  perForm d fun page index form =>
    let required := form.fields.filter fun f => f.required && !f.isFile
    if required.isEmpty then none
    else some
      { id := requiredValidation.caseId page.path index
        title := "Required fields block empty submit on " ++ page.path ++ titleSuffix index
        coverage := .edge
        tags := .ofTags ["form", "validation"]
        risk := some .medium
        steps := .goto page.path :: submitStep form :: required.map visibleStep }

/-- Gives every upload field a file and submits the form. -/
def uploadScenarios (d : Discovery) : List Scenario :=
  perForm d fun page index form =>
    let files := form.fields.filter FieldDescriptor.isFile
    if files.isEmpty then none
    else some
      { id := fileUpload.caseId page.path index
        title := "Upload a file on " ++ page.path ++ titleSuffix index
        coverage := .edge
        tags := .ofTags ["form", "upload"]
        risk := some .medium
        steps := .goto page.path ::
          files.map (fun f => .upload f.locator.render uploadFixture) ++ [submitStep form] }

/-- Follows a link: by its text if it has one, otherwise by its address. -/
def followStep (link : DiscoveredLink) : Step :=
  match Text.present? link.text with
  | some text => .click (Locator.link (some text)).render
  | none => .goto link.href

/-- Follows the first links of every page and expects the landmark of the page that
they lead to, if it is known. -/
def linkScenarios (d : Discovery) : List Scenario :=
  d.pages.flatMap fun page =>
    (page.links.take followedLinks).zipIdx.map fun (link, index) =>
      { id := linkNavigation.caseId page.path (some index)
        title := "Navigate from " ++ page.path ++ " to " ++
          (Text.present? link.text).getD link.href
        coverage := .decision
        tags := .ofTags ["navigation"]
        risk := some .low
        steps := .goto page.path :: followStep link :: landmarkSteps (d.page? link.href) }

/-- Expects the labelled fields of every page to be found. -/
def labelScenarios (d : Discovery) : List Scenario :=
  d.pages.filterMap fun page =>
    let labelled := page.fields.filter fun f => (Text.present? f.label).isSome
    if labelled.isEmpty then none
    else some
      { id := labelledFields.caseId page.path none
        title := "Fields are reachable by label on " ++ page.path
        coverage := .accessibility
        tags := .ofTags ["a11y"]
        risk := some .low
        steps := .goto page.path :: labelled.map visibleStep }

/-- Puts each injection payload into the text fields of every form and submits it. -/
def injectionScenarios (d : Discovery) : List Scenario :=
  d.pages.flatMap fun page =>
    page.forms.zipIdx.flatMap fun (form, index) =>
      let targets := (form.fields.filter fun f => f.isTextual && !f.isFile).map fun f =>
        f.locator.render
      if targets.isEmpty then []
      else payloads.map fun (tag, payload) =>
        { id := injectionProbe.caseId page.path (some index) ++ ":" ++ tag
          title := "Injection probe (" ++ tag ++ ") on " ++ page.path
          coverage := .security
          tags := .ofTags ["security", tag]
          risk := some .high
          steps := .goto page.path :: targets.map (fun t => .fill t payload) ++
            [submitStep form,
              .custom (tag ++ " payload must not execute or surface a server error")] }

/-- **The scenarios that a pattern makes** of a discovery. -/
def scenarios : Pattern → Discovery → List Scenario
  | pageSmoke => smokeScenarios
  | formHappyPath => happyPathScenarios
  | requiredValidation => validationScenarios
  | fileUpload => uploadScenarios
  | linkNavigation => linkScenarios
  | labelledFields => labelScenarios
  | injectionProbe => injectionScenarios

end Pattern

end Testplan
