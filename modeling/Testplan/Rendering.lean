import Testplan.PageGroup
import Testplan.TextJson
/-!
# Rendered plans

Rendering turns a plan into the files of a test project for one framework.  A
`Rendering` holds those files, a manifest that says what was rendered, and the
scenarios that were left out.

What all frameworks share is here: how texts are quoted for generated code, the
settings that enter configuration files, the fixtures that upload steps need, and
the assembly of the result (`Plan.assemble`).
-/
namespace Testplan

/-! ## Quoting -/

/-- A selector for elements with an attribute value. -/
def attrSelector (tag attr value : String) : String :=
  tag ++ "[" ++ attr ++ "=\"" ++
    String.ofList (value.toList.flatMap fun c =>
      if c = '\\' ∨ c = '"' then ['\\', c] else [c]) ++ "\"]"

/-- The selector for the first field of a page. -/
def firstFieldCss : String := "input, textarea, select"

/-- The selector of a locator, if style sheets can express it. -/
def Locator.css? : Locator → Option String
  | name n => some (attrSelector "" "name" n)
  | inputType t => some (attrSelector "input" "type" t)
  | placeholder p => some (attrSelector "" "placeholder" p)
  | firstField => some firstFieldCss
  | firstOfRole r => some r.tag
  | css s => some s
  | label _ | role _ _ | text _ => none

/-- A text as a literal of the generated code. -/
abbrev literal (s : String) : String := Text.jsonLiteral s

/-- A text of lines, each ended by a line break. -/
def ofLines (lines : List String) : String := String.join (lines.map (· ++ "\n"))

/-! ## The parts of a rendering -/

/-- A file of the generated project; its path is relative to the project. -/
structure RenderedFile where
  path : String
  content : String
deriving DecidableEq

/-- What was rendered. -/
structure Manifest where
  adapter : String
  pages : List String
  count : Nat
deriving DecidableEq

/-- The file that holds the manifest. -/
def manifestPath : String := "manifest.json"

/-- The text of the manifest's file. -/
def Manifest.text (m : Manifest) : String :=
  (JsonFile.object [("adapter", .text m.adapter), ("pages", .list (m.pages.map .text)),
    ("count", .number m.count)]).pretty

/-- How much of a plan was rendered. -/
inductive RenderStatus where
  | complete
  | incomplete
  | notImplemented
deriving DecidableEq, Repr

/-- **A rendered plan.** -/
structure Rendering where
  files : List RenderedFile
  manifest : Manifest
  status : RenderStatus
  failures : List RenderFailure

/-- What enters the configuration of a generated project. -/
structure RenderSettings where
  testTimeoutMs : Nat := 30000
  reportFile : String := "report.json"
  installDependencies : Bool := false
deriving DecidableEq

/-! ## Upload fixtures -/

/-- The smallest document of the portable document format. -/
def pdfFixture : String :=
  ofLines [
    "%PDF-1.4",
    "1 0 obj << /Type /Catalog /Pages 2 0 R >> endobj",
    "2 0 obj << /Type /Pages /Kids [] /Count 0 >> endobj",
    "trailer << /Root 1 0 R >>",
    "%%EOF"]

/-- The fixture of all other kinds. -/
def textFixture : String := "testforge upload fixture\n"

/-- The fixture for an upload path. -/
def fixtureFor (path : String) : RenderedFile where
  path := path
  content :=
    if (Path.extension? path).any fun e => Text.sameIgnoringCase e "pdf" then pdfFixture
    else textFixture

/-- The paths of a list that stay inside the project and are not in `seen`, each once. -/
def newFixtures (seen : List String) : List String → List RenderedFile
  | [] => []
  | path :: rest =>
    match Path.contained? path with
    | none => newFixtures seen rest
    | some names =>
      let normal := Path.ofNames names
      if normal ∈ seen then newFixtures seen rest
      else fixtureFor normal :: newFixtures (seen ++ [normal]) rest

/-! ## Assembly -/

/-- The line that heads the file of a page. -/
def PageGroup.banner (g : PageGroup) : String :=
  "Page: " ++ g.key ++ " (" ++ toString g.cases.length ++ " tests)"

/-- **The rendering of a plan**, given the files of the framework and the file of each
page.  Fixtures for upload steps are added. -/
def Plan.assemble (p : Plan) (adapter : String) (fixed : List RenderedFile)
    (pageFile : PageGroup → RenderedFile) : Rendering :=
  let groups := p.groups
  let files := fixed ++ groups.map pageFile
  { files := files ++
      newFixtures (files.map RenderedFile.path) (groups.flatMap PageGroup.uploads)
    manifest :=
      { adapter
        pages := groups.map PageGroup.key
        count := groups.foldl (fun n g => n + g.cases.length) 0 }
    status := if p.failures.isEmpty then .complete else .incomplete
    failures := p.failures }

end Testplan
