import Testplan.Rendering
/-!
# Appium projects

One file of tests per page for WebdriverIO with Mocha, a session helper, a runner
configuration and a package description.  Elements are found by accessibility
labels and XPath expressions; XPath has no escapes, so a text with both kinds of
quote is a concatenation of literals (`xpathLiteral`).
-/
namespace Testplan.Appium

def id : String := "appium-js"

def displayName : String := "Appium (WebdriverIO)"

/-- A text as an XPath expression. -/
def xpathLiteral (s : String) : String :=
  if !s.toList.contains '\'' then "'" ++ s ++ "'"
  else if !s.toList.contains '"' then "\"" ++ s ++ "\""
  else
    let parts := (Text.splitAll (· = '\'') s.toList).map fun p => "'" ++ String.ofList p ++ "'"
    "concat(" ++ ", \"'\", ".intercalate parts ++ ")"

/-- The selector that finds an element. -/
def selector : Locator → String
  | .label t => "~" ++ t
  | .placeholder t => "//*[@placeholder=" ++ xpathLiteral t ++ "]"
  | .name n => "//*[@name=" ++ xpathLiteral n ++ "]"
  | .inputType t => "//input[@type=" ++ xpathLiteral t ++ "]"
  | .firstField => "(//input | //textarea | //select)[1]"
  | .role .button n =>
    "//*[self::button or @role='button'][normalize-space()=" ++ xpathLiteral n ++ "]"
  | .role .link n => "//a[normalize-space()=" ++ xpathLiteral n ++ "]"
  | .firstOfRole r => "(//" ++ r.tag ++ ")[1]"
  | .text t => "//*[text()[contains(normalize-space(), " ++ xpathLiteral t ++ ")]]"
  | .css s => s

/-- The expression that finds an element. -/
def expression (l : Locator) : String := "driver.$(" ++ literal (selector l) ++ ")"

/-- The line of an action. -/
def actionLine : Action → String
  | .goto url => "await open(driver, " ++ literal url ++ ");"
  | .click l => "await " ++ expression l ++ ".click();"
  | .fill l value => "await " ++ expression l ++ ".setValue(" ++ literal value ++ ");"
  | .expectText t => "await " ++ expression (.text t) ++ ".waitForDisplayed();"
  | .expectVisible l => "await " ++ expression l ++ ".waitForDisplayed();"
  | .upload l path =>
    "await upload(driver, " ++ literal (selector l) ++ ", " ++ literal path ++ ");"
  | .custom note => "// " ++ Text.oneLine note

/-- The lines of a scenario. -/
def caseLines (c : ReadScenario) : List String :=
  ["", "  it(" ++ literal c.1.title ++ ", async function () \x7b"] ++
    c.2.map (fun a => "    " ++ actionLine a) ++ ["  \x7d);"]

/-- The file of a page. -/
def pageFile (g : PageGroup) : RenderedFile where
  path := "test/" ++ g.stem ++ ".spec.js"
  content := ofLines <|
    ["// " ++ g.banner,
      "const \x7b openSession, open, upload \x7d = require(\"./support/session\");",
      "",
      "describe(" ++ literal g.key ++ ", function () \x7b",
      "  let driver;",
      "",
      "  before(async function () \x7b",
      "    driver = await openSession();",
      "  \x7d);",
      "",
      "  after(async function () \x7b",
      "    if (driver) await driver.deleteSession();",
      "  \x7d);"] ++ g.cases.flatMap caseLines ++ ["\x7d);"]

/-- The session helper. -/
def sessionFile (baseUrl : String) : RenderedFile where
  path := "test/support/session.js"
  content := ofLines [
    "const path = require(\"path\");",
    "const \x7b remote \x7d = require(\"webdriverio\");",
    "",
    "const BASE_URL = process.env.TM_BASE_URL || process.env.BASE_URL || " ++
      literal baseUrl ++ ";",
    "",
    "async function openSession() \x7b",
    "  const capabilities = process.env.TM_APPIUM_CAPS",
    "    ? JSON.parse(process.env.TM_APPIUM_CAPS)",
    "    : \x7b platformName: \"Android\", browserName: \"Chrome\", \"appium:automationName\": \"UiAutomator2\" \x7d;",
    "  return remote(\x7b",
    "    hostname: process.env.APPIUM_HOST || \"127.0.0.1\",",
    "    port: Number(process.env.APPIUM_PORT || 4723),",
    "    logLevel: \"warn\",",
    "    capabilities,",
    "  \x7d);",
    "\x7d",
    "",
    "async function open(driver, target) \x7b",
    "  await driver.url(new URL(target, BASE_URL).toString());",
    "\x7d",
    "",
    "async function upload(driver, selector, file) \x7b",
    "  const remotePath = await driver.uploadFile(path.resolve(__dirname, \"..\", \"..\", file));",
    "  await driver.$(selector).setValue(remotePath);",
    "\x7d",
    "",
    "module.exports = \x7b openSession, open, upload \x7d;"]

/-- The configuration of the test runner. -/
def mochaFile (s : RenderSettings) : RenderedFile where
  path := ".mocharc.json"
  content := (JsonFile.object [
    ("reporter", .text "json"),
    ("reporter-option", .list [.text ("output=" ++ s.reportFile)]),
    ("spec", .list [.text "test/**/*.spec.js"]),
    ("timeout", .number s.testTimeoutMs)]).pretty ++ "\n"

/-- The package description. -/
def packageFile : RenderedFile where
  path := "package.json"
  content := (JsonFile.object [
    ("devDependencies", .object [
      ("mocha", .text "^10.4.0"), ("webdriverio", .text "^8.36.0")]),
    ("name", .text "testforge-appium"),
    ("private", .flag true),
    ("scripts", .object [("test", .text "mocha --config .mocharc.json")])]).pretty ++ "\n"

/-- What starts the tests. -/
def runnerArgs : List String := ["mocha", "--config", ".mocharc.json"]

/-- **The Appium project of a plan.** -/
def render (s : RenderSettings) (p : Plan) : Rendering :=
  p.assemble id [packageFile, mochaFile s, sessionFile p.baseUrl] pageFile

end Testplan.Appium
