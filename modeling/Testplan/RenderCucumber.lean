import Testplan.Rendering
/-!
# Cucumber projects

One feature file per page in the language Gherkin, with step definitions that drive
Playwright.  A step names its element by the canonical hint, which the step
definitions read again, so feature files stay readable.

A Gherkin text is one line: runs of blanks become single spaces before quotes and
backslashes are escaped.  Steps with the keyword of the step before them are
written with `And`; notes are comments and do not count.
-/
namespace Testplan.Cucumber

def id : String := "cucumber-js"

def displayName : String := "Cucumber (JS)"

/-- The expression that finds an element: its canonical hint. -/
def expression (l : Locator) : String := l.render

/-- The keywords of steps. -/
inductive Keyword where
  | given
  | when
  | then
deriving DecidableEq, Repr

/-- The written keyword. -/
def Keyword.word : Keyword → String
  | .given => "Given"
  | .when => "When"
  | .then => "Then"

/-- A text argument of a step. -/
def argument (s : String) : String :=
  "\"" ++ String.ofList ((Text.oneLine s).toList.flatMap fun c =>
    if c = '\\' ∨ c = '"' then ['\\', c] else [c]) ++ "\""

/-- The keyword and the text of an action, unless it is a note.  The first step that
opens a page is given, the others are actions. -/
def stepText? (first : Bool) : Action → Option (Keyword × String)
  | .goto url => some (if first then .given else .when, "I open " ++ argument url)
  | .click l => some (.when, "I click " ++ argument (expression l))
  | .fill l value =>
    some (.when, "I fill " ++ argument (expression l) ++ " with " ++ argument value)
  | .upload l path =>
    some (.when, "I upload " ++ argument path ++ " to " ++ argument (expression l))
  | .expectText t => some (.then, "I should see text " ++ argument t)
  | .expectVisible l => some (.then, argument (expression l) ++ " should be visible")
  | .custom _ => none

/-- The line of an action after a step with keyword `previous`, and the keyword that
the next line follows. -/
def actionLine (previous : Option Keyword) (a : Action) : String × Option Keyword :=
  match stepText? previous.isNone a with
  | some (keyword, text) =>
    let word := if previous = some keyword then "And" else keyword.word
    ("    " ++ word ++ " " ++ text, some keyword)
  | none =>
    match a with
    | .custom note => ("    # " ++ Text.oneLine note, previous)
    | _ => ("", previous)

/-- The lines of actions after a step with keyword `previous`. -/
def actionLines (previous : Option Keyword) : List Action → List String
  | [] => []
  | a :: rest =>
    let (line, next) := actionLine previous a
    line :: actionLines next rest

/-- A tag, with a hyphen for every blank. -/
def tagText (tag : String) : String :=
  "@" ++ tag.map fun c => if Text.isBlank c then '-' else c

/-- The line with the tags of a scenario, if it has any. -/
def tagLines (s : Scenario) : List String :=
  if s.tags.keys.isEmpty then [] else ["  " ++ " ".intercalate (s.tags.keys.map tagText)]

/-- The lines of a scenario. -/
def caseLines (c : ReadScenario) : List String :=
  "" :: tagLines c.1 ++ ("  Scenario: " ++ Text.oneLine c.1.title) :: actionLines none c.2

/-- The file of a page. -/
def pageFile (g : PageGroup) : RenderedFile where
  path := "features/" ++ g.stem ++ ".feature"
  content := ofLines <|
    ["# " ++ g.banner, "Feature: " ++ Text.oneLine g.key] ++ g.cases.flatMap caseLines

/-- The step definitions, with the function that reads hints. -/
def stepsFile (s : RenderSettings) (baseUrl : String) : RenderedFile where
  path := "support/steps.js"
  content := ofLines [
    "const \x7b Given, When, Then, Before, After, setDefaultTimeout \x7d = require(\"@cucumber/cucumber\");",
    "const \x7b chromium, expect \x7d = require(\"@playwright/test\");",
    "",
    "setDefaultTimeout(" ++ toString s.testTimeoutMs ++ ");",
    "",
    "const BASE_URL = process.env.TM_BASE_URL || process.env.BASE_URL || " ++
      literal baseUrl ++ ";",
    "",
    "function locate(page, hint) \x7b",
    "  if (hint === \"field\") return page.locator(\"input, textarea, select\").first();",
    "  if (hint === \"button\") return page.locator(\"button\").first();",
    "  if (hint === \"link\") return page.locator(\"a\").first();",
    "  const eq = hint.indexOf(\"=\");",
    "  const prefix = eq > 0 ? hint.slice(0, eq) : \"\";",
    "  const value = eq > 0 ? hint.slice(eq + 1) : \"\";",
    "  switch (prefix) \x7b",
    "    case \"label\":",
    "      return page.getByLabel(value);",
    "    case \"placeholder\":",
    "      return page.getByPlaceholder(value);",
    "    case \"name\":",
    "      return page.locator(`[name=$\x7bJSON.stringify(value)\x7d]`);",
    "    case \"type\":",
    "      return page.locator(`input[type=$\x7bJSON.stringify(value)\x7d]`);",
    "    case \"button\":",
    "    case \"link\":",
    "      return page.getByRole(prefix, \x7b name: value \x7d);",
    "    case \"text\":",
    "      return page.getByText(value);",
    "    case \"css\":",
    "      return page.locator(value);",
    "    default:",
    "      return page.locator(hint);",
    "  \x7d",
    "\x7d",
    "",
    "Before(async function () \x7b",
    "  this.browser = await chromium.launch();",
    "  this.page = await this.browser.newPage(\x7b baseURL: BASE_URL \x7d);",
    "\x7d);",
    "",
    "After(async function () \x7b",
    "  if (this.browser) await this.browser.close();",
    "\x7d);",
    "",
    "Given(\"I open \x7bstring\x7d\", async function (url) \x7b",
    "  await this.page.goto(url);",
    "\x7d);",
    "",
    "When(\"I click \x7bstring\x7d\", async function (hint) \x7b",
    "  await locate(this.page, hint).click();",
    "\x7d);",
    "",
    "When(\"I fill \x7bstring\x7d with \x7bstring\x7d\", async function (hint, value) \x7b",
    "  await locate(this.page, hint).fill(value);",
    "\x7d);",
    "",
    "When(\"I upload \x7bstring\x7d to \x7bstring\x7d\", async function (file, hint) \x7b",
    "  await locate(this.page, hint).setInputFiles(file);",
    "\x7d);",
    "",
    "Then(\"I should see text \x7bstring\x7d\", async function (text) \x7b",
    "  await expect(this.page.getByText(text).first()).toBeVisible();",
    "\x7d);",
    "",
    "Then(\"\x7bstring\x7d should be visible\", async function (hint) \x7b",
    "  await expect(locate(this.page, hint)).toBeVisible();",
    "\x7d);"]

/-- The configuration. -/
def configFile (s : RenderSettings) : RenderedFile where
  path := "cucumber.js"
  content := ofLines [
    "module.exports = \x7b",
    "  default: \x7b",
    "    paths: [\"features/**/*.feature\"],",
    "    require: [\"support/**/*.js\"],",
    "    format: [\"progress\", " ++ literal ("json:" ++ s.reportFile) ++ "],",
    "  \x7d,",
    "\x7d;"]

/-- The package description. -/
def packageFile : RenderedFile where
  path := "package.json"
  content := (JsonFile.object [
    ("devDependencies", .object [
      ("@cucumber/cucumber", .text "^10.3.1"), ("@playwright/test", .text "^1.47.2")]),
    ("name", .text "testforge-cucumber"),
    ("private", .flag true),
    ("scripts", .object [("test", .text "cucumber-js --config cucumber.js")])]).pretty ++ "\n"

/-- What starts the tests. -/
def runnerArgs : List String := ["cucumber-js", "--config", "cucumber.js"]

/-- **The Cucumber project of a plan.** -/
def render (s : RenderSettings) (p : Plan) : Rendering :=
  p.assemble id [packageFile, configFile s, stepsFile s p.baseUrl] pageFile

end Testplan.Cucumber
