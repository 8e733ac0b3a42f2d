import Testplan.Rendering
/-!
# Playwright projects

One file of tests per page, a configuration and a package description, for the
framework Playwright.  A plan's texts enter the code only as literals, and notes
only as comments of one line.
-/
namespace Testplan.Playwright

def id : String := "playwright-ts"

def displayName : String := "Playwright (TS)"

/-- The expression that finds an element. -/
def expression : Locator → String
  | .label t => "page.getByLabel(" ++ literal t ++ ")"
  | .placeholder t => "page.getByPlaceholder(" ++ literal t ++ ")"
  | .role r n =>
    "page.getByRole(" ++ literal r.name ++ ", \x7b name: " ++ literal n ++ " \x7d)"
  | .text t => "page.getByText(" ++ literal t ++ ")"
  | .firstField => "page.locator(" ++ literal firstFieldCss ++ ").first()"
  | .firstOfRole r => "page.locator(" ++ literal r.tag ++ ").first()"
  | .name n => "page.locator(" ++ literal (attrSelector "" "name" n) ++ ")"
  | .inputType t => "page.locator(" ++ literal (attrSelector "input" "type" t) ++ ")"
  | .css s => "page.locator(" ++ literal s ++ ")"

/-- The line of an action. -/
def actionLine : Action → String
  | .goto url => "await page.goto(" ++ literal url ++ ");"
  | .click l => "await " ++ expression l ++ ".click();"
  | .fill l value => "await " ++ expression l ++ ".fill(" ++ literal value ++ ");"
  | .expectText t =>
    "await expect(page.getByText(" ++ literal t ++ ").first()).toBeVisible();"
  | .expectVisible l => "await expect(" ++ expression l ++ ").toBeVisible();"
  | .upload l path => "await " ++ expression l ++ ".setInputFiles(" ++ literal path ++ ");"
  | .custom note => "// " ++ Text.oneLine note

/-- The lines of a scenario. -/
def caseLines (c : ReadScenario) : List String :=
  ["", "test(" ++ literal c.1.title ++ ", async (\x7b page \x7d) => \x7b"] ++
    c.2.map (fun a => "  " ++ actionLine a) ++ ["\x7d);"]

/-- The file of a page. -/
def pageFile (g : PageGroup) : RenderedFile where
  path := "tests/" ++ g.stem ++ ".spec.ts"
  content := ofLines <|
    ["import \x7b test, expect \x7d from '@playwright/test';", "", "// " ++ g.banner] ++
      g.cases.flatMap caseLines

/-- The configuration. -/
def configFile (s : RenderSettings) (baseUrl : String) : RenderedFile where
  path := "playwright.config.ts"
  content := ofLines [
    "import \x7b defineConfig \x7d from '@playwright/test';",
    "",
    "export default defineConfig(\x7b",
    "  testDir: './tests',",
    "  timeout: " ++ toString s.testTimeoutMs ++ ",",
    "  retries: 0,",
    "  reporter: [['list'], ['json', \x7b outputFile: " ++ literal s.reportFile ++ " \x7d]],",
    "  use: \x7b",
    "    baseURL: process.env.TM_BASE_URL || process.env.PW_BASE_URL || " ++
      literal baseUrl ++ ",",
    "  \x7d,",
    "\x7d);"]

/-- The package description. -/
def packageFile : RenderedFile where
  path := "package.json"
  content := (JsonFile.object [
    ("devDependencies", .object [("@playwright/test", .text "^1.47.2")]),
    ("name", .text "testforge-playwright"),
    ("private", .flag true),
    ("scripts", .object [("test", .text "playwright test -c playwright.config.ts")])]).pretty ++
      "\n"

/-- What starts the tests. -/
def runnerArgs : List String := ["playwright", "test", "-c", "playwright.config.ts"]

/-- **The Playwright project of a plan.** -/
def render (s : RenderSettings) (p : Plan) : Rendering :=
  p.assemble id [packageFile, configFile s p.baseUrl] pageFile

end Testplan.Playwright
