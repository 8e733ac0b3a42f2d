import Testplan.Rendering
/-!
# Cypress projects

One file of tests per page, a configuration, a support file and a package
description, for the framework Cypress with the commands of Testing Library.
Typing an empty text would be an error there, so an empty value only clears the
field.
-/
namespace Testplan.Cypress

def id : String := "cypress-js"

def displayName : String := "Cypress (JS)"

/-- The expression that finds an element. -/
def expression : Locator → String
  | .label t => "cy.findByLabelText(" ++ literal t ++ ")"
  | .placeholder t => "cy.findByPlaceholderText(" ++ literal t ++ ")"
  | .role r n =>
    "cy.findByRole(" ++ literal r.name ++ ", \x7b name: " ++ literal n ++ " \x7d)"
  | .text t => "cy.contains(" ++ literal t ++ ")"
  | .firstField => "cy.get(" ++ literal firstFieldCss ++ ").first()"
  | .firstOfRole r => "cy.get(" ++ literal r.tag ++ ").first()"
  | .name n => "cy.get(" ++ literal (attrSelector "" "name" n) ++ ")"
  | .inputType t => "cy.get(" ++ literal (attrSelector "input" "type" t) ++ ")"
  | .css s => "cy.get(" ++ literal s ++ ")"

/-- The line of an action. -/
def actionLine : Action → String
  | .goto url => "cy.visit(" ++ literal url ++ ");"
  | .click l => expression l ++ ".click();"
  | .fill l value =>
    if value.isEmpty then expression l ++ ".clear();"
    else expression l ++ ".clear().type(" ++ literal value ++
      ", \x7b parseSpecialCharSequences: false \x7d);"
  | .expectText t => "cy.contains(" ++ literal t ++ ").should(\"be.visible\");"
  | .expectVisible l => expression l ++ ".should(\"be.visible\");"
  | .upload l path => expression l ++ ".selectFile(" ++ literal path ++ ");"
  | .custom note => "// " ++ Text.oneLine note

/-- The lines of a scenario. -/
def caseLines (c : ReadScenario) : List String :=
  ["  it(" ++ literal c.1.title ++ ", () => \x7b"] ++
    c.2.map (fun a => "    " ++ actionLine a) ++ ["  \x7d);"]

/-- The lines of the scenarios of a page, with an empty line between scenarios. -/
def casesLines : List ReadScenario → List String
  | [] => []
  | [c] => caseLines c
  | c :: rest => caseLines c ++ "" :: casesLines rest

/-- The file of a page. -/
def pageFile (g : PageGroup) : RenderedFile where
  path := "cypress/e2e/" ++ g.stem ++ ".cy.js"
  content := ofLines <|
    ["// " ++ g.banner, "", "describe(" ++ literal g.key ++ ", () => \x7b"] ++
      casesLines g.cases ++ ["\x7d);"]

/-- The configuration. -/
def configFile (s : RenderSettings) (baseUrl : String) : RenderedFile where
  path := "cypress.config.js"
  content := ofLines [
    "const \x7b defineConfig \x7d = require(\"cypress\");",
    "",
    "module.exports = defineConfig(\x7b",
    "  reporter: \"json\",",
    "  reporterOptions: \x7b output: " ++ literal s.reportFile ++ " \x7d,",
    "  defaultCommandTimeout: " ++ toString s.testTimeoutMs ++ ",",
    "  pageLoadTimeout: " ++ toString s.testTimeoutMs ++ ",",
    "  video: false,",
    "  e2e: \x7b",
    "    baseUrl: process.env.CYPRESS_BASE_URL || process.env.BASE_URL || " ++
      literal baseUrl ++ ",",
    "    specPattern: \"cypress/e2e/**/*.cy.js\",",
    "    supportFile: \"cypress/support/e2e.js\",",
    "  \x7d,",
    "\x7d);"]

/-- The support file. -/
def supportFile : RenderedFile where
  path := "cypress/support/e2e.js"
  content := "import \"@testing-library/cypress/add-commands\";\n"

/-- The package description. -/
def packageFile : RenderedFile where
  path := "package.json"
  content := (JsonFile.object [
    ("devDependencies", .object [
      ("@testing-library/cypress", .text "^10.0.1"), ("cypress", .text "^13.6.0")]),
    ("name", .text "testforge-cypress"),
    ("private", .flag true),
    ("scripts",
      .object [("test", .text "cypress run --config-file cypress.config.js")])]).pretty ++ "\n"

/-- What starts the tests. -/
def runnerArgs : List String := ["cypress", "run", "--config-file", "cypress.config.js"]

/-- **The Cypress project of a plan.** -/
def render (s : RenderSettings) (p : Plan) : Rendering :=
  p.assemble id [packageFile, configFile s p.baseUrl, supportFile] pageFile

end Testplan.Cypress
