import Testplan.Proofs.PageStems
import Testplan.Proofs.SingleLines
/-!
# What the file of a page is made of

The four frameworks that generate code write the file of a page in one way and differ in
what they write: a `Layout` says which lines stand before, between and after the blocks of
the scenarios, and which line an action gets.
-/
namespace Testplan

open Text (Unbroken unbroken_append unbroken_oneLine unbroken_jsonLiteral)

/-! ## Lines of actions -/

namespace Playwright

theorem unbroken_expression (l : Locator) : Unbroken (expression l) := by
  unfold expression
  cases l <;> dsimp only <;> simp only [unbroken_append, unbroken_jsonLiteral] <;> decide

theorem unbroken_actionLine (a : Action) : Unbroken (actionLine a) := by
  unfold actionLine
  cases a <;> dsimp only <;>
    simp only [unbroken_append, unbroken_jsonLiteral, unbroken_expression, unbroken_oneLine] <;>
    decide

end Playwright

namespace Cypress

theorem unbroken_expression (l : Locator) : Unbroken (expression l) := by
  unfold expression
  cases l <;> dsimp only <;> simp only [unbroken_append, unbroken_jsonLiteral] <;> decide

theorem unbroken_actionLine (a : Action) : Unbroken (actionLine a) := by
  unfold actionLine
  cases a with
  | fill l value =>
    dsimp only
    split <;> simp only [unbroken_append, unbroken_jsonLiteral, unbroken_expression] <;> decide
  | _ =>
    dsimp only
    simp only [unbroken_append, unbroken_jsonLiteral, unbroken_expression, unbroken_oneLine]
    decide

end Cypress

namespace Appium

theorem unbroken_expression (l : Locator) : Unbroken (expression l) := by
  unfold expression
  simp only [unbroken_append, unbroken_jsonLiteral]
  decide

theorem unbroken_actionLine (a : Action) : Unbroken (actionLine a) := by
  unfold actionLine
  cases a <;> dsimp only <;>
    simp only [unbroken_append, unbroken_jsonLiteral, unbroken_expression, unbroken_oneLine] <;>
    decide

end Appium

namespace Cucumber

theorem unbroken_argument (s : String) : Unbroken (argument s) := by
  have hline := unbroken_oneLine s
  unfold argument
  rw [unbroken_append, unbroken_append]
  refine ⟨⟨by decide, ?_⟩, by decide⟩
  rw [Unbroken, String.toList_ofList, List.mem_flatMap]
  rintro ⟨c, hc, hmem⟩
  split at hmem
  · next hquote =>
    rcases List.mem_cons.mp hmem with h | h
    · cases h
    · exact hline (List.mem_singleton.mp h ▸ hc)
  · exact hline (List.mem_singleton.mp hmem ▸ hc)

theorem unbroken_word (k : Keyword) : Unbroken k.word := by cases k <;> decide

theorem unbroken_stepText {first : Bool} {a : Action} {k : Keyword} {text : String}
    (h : stepText? first a = some (k, text)) : Unbroken text := by
  unfold stepText? at h
  cases a <;> cases h <;> simp only [unbroken_append, unbroken_argument] <;> decide

theorem unbroken_actionLine (previous : Option Keyword) (a : Action) :
    Unbroken (actionLine previous a).1 := by
  unfold actionLine
  cases h : stepText? previous.isNone a with
  | some step =>
    obtain ⟨k, text⟩ := step
    have htext := unbroken_stepText h
    dsimp only
    split <;> simp only [unbroken_append, unbroken_word, htext] <;> decide
  | none =>
    cases a with
    | custom note =>
      dsimp only
      simp only [unbroken_append, unbroken_oneLine]
      decide
    | _ => cases h

theorem unbroken_tagText (tag : String) : Unbroken (tagText tag) := by
  rw [tagText, unbroken_append]
  refine ⟨by decide, ?_⟩
  rw [Unbroken, String.toList_map, List.mem_map]
  rintro ⟨c, -, hc⟩
  split at hc
  · cases hc
  · next hblank => exact hblank (hc ▸ Text.isBlank_newline)

theorem unbroken_tagLines (s : Scenario) : ∀ line ∈ tagLines s, Unbroken line := by
  unfold tagLines
  split
  · simp
  · rw [List.forall_mem_singleton, unbroken_append]
    refine ⟨by decide, Text.unbroken_intercalate (by decide) fun tag htag => ?_⟩
    obtain ⟨t, -, rfl⟩ := List.mem_map.mp htag
    exact unbroken_tagText t

/-- The keyword that the line after some actions follows. -/
def keywordAfter (actions : List Action) : Option Keyword :=
  actions.foldl (fun previous a => (actionLine previous a).2) none

end Cucumber

/-! ## Layouts -/

/-- **How a framework writes the file of a page.** -/
structure Layout where
  path : String → String
  /-- The first lines of a file, for a page and the number of its scenarios. -/
  opening : String → Nat → List String
  /-- The first lines of the block of a scenario. -/
  heading : Scenario → List String
  /-- The line of an action that follows others. -/
  line : List Action → Action → String
  /-- The last lines of a block. -/
  closing : List String
  /-- The lines between two blocks. -/
  gap : List String
  /-- The last lines of a file. -/
  ending : List String

namespace Layout

/-- The lines of actions that follow others, one for each. -/
def linesAfter (l : Layout) (before : List Action) : List Action → List String
  | [] => []
  | a :: rest => l.line before a :: l.linesAfter (before ++ [a]) rest

/-- The block of a scenario. -/
def block (l : Layout) (c : ReadScenario) : List String :=
  l.heading c.1 ++ l.linesAfter [] c.2 ++ l.closing

/-- **The file of a page**: one block for each scenario. -/
def file (l : Layout) (g : PageGroup) : RenderedFile where
  path := l.path g.stem
  content := ofLines <|
    l.opening g.key g.cases.length ++ l.gap.intercalate (g.cases.map l.block) ++ l.ending

/-- Whatever a scenario says, its block has no other line breaks than those that end lines. -/
structure Unbroken (l : Layout) : Prop where
  heading : ∀ s, ∀ line ∈ l.heading s, Text.Unbroken line
  line : ∀ before a, Text.Unbroken (l.line before a)
  closing : ∀ line ∈ l.closing, Text.Unbroken line

theorem length_linesAfter (l : Layout) (before actions : List Action) :
    (l.linesAfter before actions).length = actions.length := by
  induction actions generalizing before with
  | nil => rfl
  | cons a rest ih => simp [linesAfter, ih]

/-- Where a line does not depend on the lines before it. -/
theorem linesAfter_eq_map {l : Layout} {line : Action → String}
    (h : ∀ before a, l.line before a = line a) (before actions : List Action) :
    l.linesAfter before actions = actions.map line := by
  induction actions generalizing before with
  | nil => rfl
  | cons a rest ih => rw [linesAfter, h, ih, List.map_cons]

theorem block_eq_map (l : Layout) {line : Action → String}
    (h : ∀ before a, l.line before a = line a) (c : ReadScenario) :
    l.block c = l.heading c.1 ++ c.2.map line ++ l.closing := by
  rw [block, linesAfter_eq_map h]

theorem Unbroken.linesAfter {l : Layout} (h : l.Unbroken) (before actions : List Action) :
    ∀ line ∈ l.linesAfter before actions, Text.Unbroken line := by
  induction actions generalizing before with
  | nil => simp [Layout.linesAfter]
  | cons a rest ih => exact List.forall_mem_cons.mpr ⟨h.line before a, ih _⟩

theorem Unbroken.block {l : Layout} (h : l.Unbroken) (c : ReadScenario) :
    ∀ line ∈ l.block c, Text.Unbroken line := by
  intro line hline
  simp only [Layout.block, List.mem_append] at hline
  rcases hline with (hline | hline) | hline
  · exact h.heading c.1 line hline
  · exact h.linesAfter [] c.2 line hline
  · exact h.closing line hline

theorem Unbroken.blocks {l : Layout} (h : l.Unbroken) (hgap : ∀ line ∈ l.gap, Text.Unbroken line)
    (cases : List ReadScenario) :
    ∀ line ∈ l.gap.intercalate (cases.map l.block), Text.Unbroken line := by
  induction cases with
  | nil => nofun
  | cons c rest ih =>
    cases rest with
    | nil => simpa using h.block c
    | cons d rest =>
      rw [List.map_cons, List.map_cons, List.intercalate_cons_cons, ← List.map_cons]
      simp only [List.forall_mem_append]
      exact ⟨⟨h.block c, hgap⟩, ih⟩

end Layout

/-- The line that heads the file of a page with a number of scenarios. -/
def bannerOf (key : String) (count : Nat) : String :=
  "Page: " ++ key ++ " (" ++ toString count ++ " tests)"

def Playwright.layout : Layout where
  path stem := "tests/" ++ stem ++ ".spec.ts"
  opening key count :=
    ["import \x7b test, expect \x7d from '@playwright/test';", "", "// " ++ bannerOf key count]
  heading s := ["", "test(" ++ literal s.title ++ ", async (\x7b page \x7d) => \x7b"]
  line _ a := "  " ++ actionLine a
  closing := ["\x7d);"]
  gap := []
  ending := []

def Cypress.layout : Layout where
  path stem := "cypress/e2e/" ++ stem ++ ".cy.js"
  opening key count :=
    ["// " ++ bannerOf key count, "", "describe(" ++ literal key ++ ", () => \x7b"]
  heading s := ["  it(" ++ literal s.title ++ ", () => \x7b"]
  line _ a := "    " ++ actionLine a
  closing := ["  \x7d);"]
  gap := [""]
  ending := ["\x7d);"]

def Cucumber.layout : Layout where
  path stem := "features/" ++ stem ++ ".feature"
  opening key count := ["# " ++ bannerOf key count, "Feature: " ++ Text.oneLine key]
  heading s := "" :: tagLines s ++ ["  Scenario: " ++ Text.oneLine s.title]
  line before a := (actionLine (keywordAfter before) a).1
  closing := []
  gap := []
  ending := []

def Appium.layout : Layout where
  path stem := "test/" ++ stem ++ ".spec.js"
  opening key count :=
    ["// " ++ bannerOf key count,
      "const \x7b openSession, open, upload \x7d = require(\"./support/session\");",
      "",
      "describe(" ++ literal key ++ ", function () \x7b",
      "  let driver;",
      "",
      "  before(async function () \x7b",
      "    driver = await openSession();",
      "  \x7d);",
      "",
      "  after(async function () \x7b",
      "    if (driver) await driver.deleteSession();",
      "  \x7d);"]
  heading s := ["", "  it(" ++ literal s.title ++ ", async function () \x7b"]
  line _ a := "    " ++ actionLine a
  closing := ["  \x7d);"]
  gap := []
  ending := ["\x7d);"]

theorem Playwright.pageFile_eq (g : PageGroup) : pageFile g = layout.file g := by
  have hblock : caseLines = layout.block :=
    funext fun c => (layout.block_eq_map (fun _ _ => rfl) c).symm
  simp only [pageFile, Layout.file, hblock, layout, intercalate_nil, List.flatMap_def,
    List.append_nil]
  rfl

theorem Cypress.casesLines_eq (cases : List ReadScenario) :
    casesLines cases = layout.gap.intercalate (cases.map layout.block) := by
  have hblock : caseLines = layout.block :=
    funext fun c => (layout.block_eq_map (fun _ _ => rfl) c).symm
  induction cases with
  | nil => rfl
  | cons c rest ih =>
    cases rest with
    | nil => simp [casesLines, hblock]
    | cons d rest =>
      have hjoin : layout.gap.intercalate ((c :: d :: rest).map layout.block) =
          layout.block c ++ layout.gap ++
            layout.gap.intercalate ((d :: rest).map layout.block) :=
        List.intercalate_cons_cons
      have hskip : casesLines (c :: d :: rest) = caseLines c ++ "" :: casesLines (d :: rest) :=
        rfl
      rw [hskip, hjoin, ih, hblock, List.append_assoc]
      rfl

theorem Cypress.pageFile_eq (g : PageGroup) : pageFile g = layout.file g := by
  simp only [pageFile, Layout.file, casesLines_eq]
  rfl

theorem Cucumber.actionLines_eq (before actions : List Action) :
    actionLines (keywordAfter before) actions = layout.linesAfter before actions := by
  induction actions generalizing before with
  | nil => rfl
  | cons a rest ih =>
    have hnext : (actionLine (keywordAfter before) a).2 = keywordAfter (before ++ [a]) := by
      simp [keywordAfter]
    rw [actionLines, Layout.linesAfter, ← ih, ← hnext]
    rfl

theorem Cucumber.pageFile_eq (g : PageGroup) : pageFile g = layout.file g := by
  have hblock : caseLines = layout.block := by
    funext c
    rw [caseLines, Layout.block, ← actionLines_eq]
    simp [layout, keywordAfter]
  simp only [pageFile, Layout.file, hblock, layout, intercalate_nil, List.flatMap_def,
    List.append_nil]
  rfl

theorem Appium.pageFile_eq (g : PageGroup) : pageFile g = layout.file g := by
  have hblock : caseLines = layout.block :=
    funext fun c => (layout.block_eq_map (fun _ _ => rfl) c).symm
  simp only [pageFile, Layout.file, hblock, layout, intercalate_nil, List.flatMap_def]
  rfl

theorem Playwright.layout_unbroken : layout.Unbroken where
  heading s := by
    simp only [layout, List.forall_mem_cons, unbroken_append, unbroken_jsonLiteral]
    decide
  line _ a := unbroken_append.mpr ⟨by decide, unbroken_actionLine a⟩
  closing := by decide

theorem Cypress.layout_unbroken : layout.Unbroken where
  heading s := by
    simp only [layout, List.forall_mem_cons, unbroken_append, unbroken_jsonLiteral]
    decide
  line _ a := unbroken_append.mpr ⟨by decide, unbroken_actionLine a⟩
  closing := by decide

theorem Cucumber.layout_unbroken : layout.Unbroken where
  heading s := by
    simp only [layout, List.cons_append, List.forall_mem_cons, List.forall_mem_append,
      unbroken_append, unbroken_oneLine]
    exact ⟨by decide, unbroken_tagLines s, ⟨by decide, trivial⟩, by simp⟩
  line before a := unbroken_actionLine (keywordAfter before) a
  closing := by decide

theorem Appium.layout_unbroken : layout.Unbroken where
  heading s := by
    simp only [layout, List.forall_mem_cons, unbroken_append, unbroken_jsonLiteral]
    decide
  line _ a := unbroken_append.mpr ⟨by decide, unbroken_actionLine a⟩
  closing := by decide

namespace Framework

/-- The layout of a framework that generates code. -/
def layout? : Framework → Option Layout
  | playwright => some Playwright.layout
  | cypress => some Cypress.layout
  | cucumber => some Cucumber.layout
  | appium => some Appium.layout
  | xctest => none

/-- The files of a project that hold no tests. -/
def supportFiles : Framework → RenderSettings → String → List RenderedFile
  | playwright, s, baseUrl => [Playwright.packageFile, Playwright.configFile s baseUrl]
  | cypress, s, baseUrl =>
    [Cypress.packageFile, Cypress.configFile s baseUrl, Cypress.supportFile]
  | cucumber, s, baseUrl =>
    [Cucumber.packageFile, Cucumber.configFile s, Cucumber.stepsFile s baseUrl]
  | appium, s, baseUrl => [Appium.packageFile, Appium.mochaFile s, Appium.sessionFile baseUrl]
  | xctest, _, _ => []

theorem exists_layout {f : Framework} (h : f ≠ .xctest) : ∃ l, f.layout? = some l := by
  cases f with
  | xctest => exact absurd rfl h
  | _ => exact ⟨_, rfl⟩

/-- The project of a plan is put together from the files without tests and the files of the
pages. -/
theorem render_eq_assemble {f : Framework} {l : Layout} (h : f.layout? = some l)
    (s : RenderSettings) (p : Plan) :
    f.render s p = p.assemble f.id (f.supportFiles s p.baseUrl) l.file := by
  have pages {pageFile : PageGroup → RenderedFile} (hpage : ∀ g, pageFile g = l.file g) :
      p.assemble f.id (f.supportFiles s p.baseUrl) pageFile =
        p.assemble f.id (f.supportFiles s p.baseUrl) l.file := by rw [funext hpage]
  cases f <;> cases h
  · exact pages Playwright.pageFile_eq
  · exact pages Cypress.pageFile_eq
  · exact pages Cucumber.pageFile_eq
  · exact pages Appium.pageFile_eq

theorem layout_unbroken {f : Framework} {l : Layout} (h : f.layout? = some l) :
    l.Unbroken := by
  cases f <;> cases h
  · exact Playwright.layout_unbroken
  · exact Cypress.layout_unbroken
  · exact Cucumber.layout_unbroken
  · exact Appium.layout_unbroken

end Framework

end Testplan
