import Testplan.Proofs.RenderedPages
/-!
# The shape of the file of a page

Line by line, the file of a page shows how many scenarios the page has, how many steps each of
them has and, in feature files, which of them have tags.  All else that a plan says stands inside
of lines.  A `FileForm` says what each line of a framework's files is made of, and
`FileForm.lines` what a whole file is made of.

Every text of a plan is quoted or put on one line, but for one: the comment at the top names the
page as it is (`Layout.HasBanner`), so each line break in the name of a page makes one more line.
A file has its shape if and only if there is none (`Framework.lines_fit_iff`).
-/
namespace Testplan

open Text (Unbroken unbroken_append unbroken_oneLine unbroken_jsonLiteral)

/-! ## Forms of lines -/

/-- **What a line is made of.** -/
inductive LineForm where
  /-- The same text in every plan. -/
  | fixed (line : String)
  /-- A JSON literal between fixed texts. -/
  | quoted (before after : String)
  /-- Any text between fixed texts. -/
  | around (before after : String)

/-- The line is made of what the form says. -/
def LineForm.Fits : LineForm → String → Prop
  | .fixed text, line => line = text
  | .quoted before after, line => ∃ t, line = before ++ literal t ++ after
  | .around before after, line => ∃ t, line = before ++ t ++ after

/-- What the shape of a block depends on. -/
structure BlockSize where
  tagged : Bool
  steps : Nat

/-- The number of steps of a scenario, and whether it has tags. -/
def Scenario.size (s : Scenario) : BlockSize := ⟨!s.tags.keys.isEmpty, s.steps.length⟩

/-- **What the lines of the files of pages are made of.** -/
structure FileForm where
  /-- The first lines of a file, for the number of scenarios. -/
  opening : Nat → List LineForm
  /-- The first lines of a block, for a scenario with or without tags. -/
  heading : Bool → List LineForm
  /-- The line of a step. -/
  step : LineForm
  /-- The last lines of a block. -/
  closing : List LineForm
  /-- The lines between two blocks. -/
  gap : List LineForm
  /-- The last lines of a file. -/
  ending : List LineForm

/-- The lines of a block. -/
def FileForm.block (form : FileForm) (size : BlockSize) : List LineForm :=
  form.heading size.tagged ++ List.replicate size.steps form.step ++ form.closing

/-- **The lines of a file** with blocks of given sizes.  The last line ends, so an empty one
follows. -/
def FileForm.lines (form : FileForm) (sizes : List BlockSize) : List LineForm :=
  form.opening sizes.length ++ form.gap.intercalate (sizes.map form.block) ++ form.ending ++
    [.fixed ""]

def Playwright.fileForm : FileForm where
  opening count :=
    [.fixed "import \x7b test, expect \x7d from '@playwright/test';", .fixed "",
      .around "// Page: " (" (" ++ toString count ++ " tests)")]
  heading _ := [.fixed "", .quoted "test(" ", async (\x7b page \x7d) => \x7b"]
  step := .around "  " ""
  closing := [.fixed "\x7d);"]
  gap := []
  ending := []

def Cypress.fileForm : FileForm where
  opening count :=
    [.around "// Page: " (" (" ++ toString count ++ " tests)"), .fixed "",
      .quoted "describe(" ", () => \x7b"]
  heading _ := [.quoted "  it(" ", () => \x7b"]
  step := .around "    " ""
  closing := [.fixed "  \x7d);"]
  gap := [.fixed ""]
  ending := [.fixed "\x7d);"]

def Cucumber.fileForm : FileForm where
  opening count :=
    [.around "# Page: " (" (" ++ toString count ++ " tests)"), .around "Feature: " ""]
  heading tagged :=
    .fixed "" :: (if tagged then [.around "  @" ""] else []) ++ [.around "  Scenario: " ""]
  step := .around "    " ""
  closing := []
  gap := []
  ending := []

def Appium.fileForm : FileForm where
  opening count :=
    [.around "// Page: " (" (" ++ toString count ++ " tests)"),
      .fixed "const \x7b openSession, open, upload \x7d = require(\"./support/session\");",
      .fixed "",
      .quoted "describe(" ", function () \x7b",
      .fixed "  let driver;",
      .fixed "",
      .fixed "  before(async function () \x7b",
      .fixed "    driver = await openSession();",
      .fixed "  \x7d);",
      .fixed "",
      .fixed "  after(async function () \x7b",
      .fixed "    if (driver) await driver.deleteSession();",
      .fixed "  \x7d);"]
  heading _ := [.fixed "", .quoted "  it(" ", async function () \x7b"]
  step := .around "    " ""
  closing := [.fixed "  \x7d);"]
  gap := []
  ending := [.fixed "\x7d);"]

/-- The form of the files of a framework that generates code. -/
def Framework.fileForm? : Framework → Option FileForm
  | playwright => some Playwright.fileForm
  | cypress => some Cypress.fileForm
  | cucumber => some Cucumber.fileForm
  | appium => some Appium.fileForm
  | xctest => none

/-! ## Layouts of a form -/

/-- All lines fit. -/
abbrev AllFit := List.Forall₂ LineForm.Fits

theorem AllFit.append {forms forms' : List LineForm} {lines lines' : List String}
    (h : AllFit forms lines) (h' : AllFit forms' lines') :
    AllFit (forms ++ forms') (lines ++ lines') :=
  List.rel_append h h'

theorem AllFit.intercalate {gap : List LineForm} {between : List String} (hgap : AllFit gap between)
    {blocks : List (List LineForm)} {texts : List (List String)}
    (h : List.Forall₂ AllFit blocks texts) :
    AllFit (gap.intercalate blocks) (between.intercalate texts) := by
  induction h with
  | nil => exact .nil
  | @cons block text blocks texts hblock hrest ih =>
    cases hrest with
    | nil => simpa using hblock
    | cons hnext hmore =>
      rw [List.intercalate_cons_cons, List.intercalate_cons_cons]
      exact (hblock.append hgap).append ih

/-- **A layout writes files of a form.** -/
structure Layout.HasForm (l : Layout) (form : FileForm) : Prop where
  opening : ∀ key count, AllFit (form.opening count) (l.opening key count)
  heading : ∀ s, AllFit (form.heading s.size.tagged) (l.heading s)
  line : ∀ before a, form.step.Fits (l.line before a)
  closing : AllFit form.closing l.closing
  gap : AllFit form.gap l.gap
  ending : AllFit form.ending l.ending

/-- **One line names the page** as it is, and no other line is ever broken. -/
structure Layout.HasBanner (l : Layout) : Prop extends l.Unbroken where
  opening : ∀ key count, ∃ before mark after,
    l.opening key count = before ++ (mark ++ bannerOf key count) :: after ∧
      ∀ line ∈ before ++ mark :: after, Text.Unbroken line
  gap : ∀ line ∈ l.gap, Text.Unbroken line
  ending : ∀ line ∈ l.ending, Text.Unbroken line

theorem fits_banner (mark key : String) (count : Nat) :
    (LineForm.around (mark ++ "Page: ") (" (" ++ toString count ++ " tests)")).Fits
      (mark ++ bannerOf key count) :=
  ⟨key, by simp only [bannerOf, String.append_assoc]⟩

theorem fits_around (before t : String) : (LineForm.around before "").Fits (before ++ t) :=
  ⟨t, String.append_empty.symm⟩

theorem breaks_bannerOf (key : String) (count : Nat) : breaks (bannerOf key count) = breaks key := by
  have hcount : breaks (toString count) = 0 := breaks_eq_zero_iff.mpr fun hmem =>
    absurd (digits_toString hmem) (by decide)
  have hbefore : breaks "Page: " = 0 := by decide
  have hbetween : breaks " (" = 0 := by decide
  have hafter : breaks " tests)" = 0 := by decide
  simp only [bannerOf, breaks_append, hcount, hbefore, hbetween, hafter]
  omega

namespace Playwright

theorem layout_hasForm : layout.HasForm fileForm where
  opening key count := .cons rfl (.cons rfl (.cons (fits_banner "// " key count) .nil))
  heading s := .cons rfl (.cons ⟨s.title, rfl⟩ .nil)
  line _ a := fits_around "  " (actionLine a)
  closing := .cons rfl .nil
  gap := .nil
  ending := .nil

theorem layout_hasBanner : layout.HasBanner where
  toUnbroken := layout_unbroken
  opening key count :=
    ⟨["import \x7b test, expect \x7d from '@playwright/test';", ""], "// ", [], rfl, by decide⟩
  gap := by simp [layout]
  ending := by simp [layout]

end Playwright

namespace Cypress

theorem layout_hasForm : layout.HasForm fileForm where
  opening key count := .cons (fits_banner "// " key count) (.cons rfl (.cons ⟨key, rfl⟩ .nil))
  heading s := .cons ⟨s.title, rfl⟩ .nil
  line _ a := fits_around "    " (actionLine a)
  closing := .cons rfl .nil
  gap := .cons rfl .nil
  ending := .cons rfl .nil

theorem layout_hasBanner : layout.HasBanner where
  toUnbroken := layout_unbroken
  opening key count := by
    refine ⟨[], "// ", ["", "describe(" ++ literal key ++ ", () => \x7b"], rfl, ?_⟩
    simp only [List.nil_append, List.forall_mem_cons, unbroken_append, unbroken_jsonLiteral]
    decide
  gap := by decide
  ending := by decide

end Cypress

namespace Cucumber

theorem allFit_tagLines (s : Scenario) :
    AllFit (if s.size.tagged then [.around "  @" ""] else []) (tagLines s) := by
  rw [tagLines, Scenario.size]
  cases s.tags.keys with
  | nil => exact .nil
  | cons tag others =>
    obtain ⟨t, ht⟩ : ∃ t, " ".intercalate ((tag :: others).map tagText) = "@" ++ t := by
      rw [List.map_cons, tagText]
      cases others with
      | nil => exact ⟨_, String.intercalate_singleton⟩
      | cons other others =>
        rw [List.map_cons, String.intercalate_cons_cons, String.append_assoc, String.append_assoc]
        exact ⟨_, rfl⟩
    refine .cons ⟨t, ?_⟩ .nil
    rw [ht, ← String.append_assoc]
    exact String.append_empty.symm

theorem exists_actionLine (previous : Option Keyword) (a : Action) :
    ∃ t, (actionLine previous a).1 = "    " ++ t := by
  cases a with
  | custom note => exact ⟨"# " ++ Text.oneLine note, by rw [← String.append_assoc]; rfl⟩
  | _ => exact ⟨_, by simp only [actionLine, stepText?, String.append_assoc]; rfl⟩

theorem layout_hasForm : layout.HasForm fileForm where
  opening key count := .cons (fits_banner "# " key count)
    (.cons (fits_around "Feature: " (Text.oneLine key)) .nil)
  heading s :=
    AllFit.append (.cons rfl (allFit_tagLines s)) (.cons (fits_around _ (Text.oneLine s.title)) .nil)
  line before a := by
    obtain ⟨t, ht⟩ := exists_actionLine (keywordAfter before) a
    exact ⟨t, ht.trans String.append_empty.symm⟩
  closing := .nil
  gap := .nil
  ending := .nil

theorem layout_hasBanner : layout.HasBanner where
  toUnbroken := layout_unbroken
  opening key count := by
    refine ⟨[], "# ", ["Feature: " ++ Text.oneLine key], rfl, ?_⟩
    simp only [List.nil_append, List.forall_mem_cons, unbroken_append, unbroken_oneLine]
    decide
  gap := by simp [layout]
  ending := by simp [layout]

end Cucumber

namespace Appium

theorem layout_hasForm : layout.HasForm fileForm where
  opening key count := .cons (fits_banner "// " key count) (.cons rfl (.cons rfl (.cons ⟨key, rfl⟩
    (.cons rfl (.cons rfl (.cons rfl (.cons rfl (.cons rfl (.cons rfl (.cons rfl (.cons rfl
      (.cons rfl .nil))))))))))))
  heading s := .cons rfl (.cons ⟨s.title, rfl⟩ .nil)
  line _ a := fits_around "    " (actionLine a)
  closing := .cons rfl .nil
  gap := .nil
  ending := .cons rfl .nil

theorem layout_hasBanner : layout.HasBanner where
  toUnbroken := layout_unbroken
  opening key count := by
    refine ⟨[], "// ", _, rfl, ?_⟩
    simp only [List.nil_append, List.forall_mem_cons, unbroken_append, unbroken_jsonLiteral]
    decide
  gap := by simp [layout]
  ending := by decide

end Appium

/-! ## Files of a form -/

namespace Layout

variable {l : Layout} {form : FileForm}

/-- The lines of the file of a page. -/
def lines (l : Layout) (g : PageGroup) : List String :=
  l.opening g.key g.cases.length ++ l.gap.intercalate (g.cases.map l.block) ++ l.ending

theorem HasForm.allFit_linesAfter (h : l.HasForm form) (before actions : List Action) :
    AllFit (List.replicate actions.length form.step) (l.linesAfter before actions) := by
  induction actions generalizing before with
  | nil => exact .nil
  | cons a rest ih => exact .cons (h.line before a) (ih _)

theorem HasForm.allFit_block (h : l.HasForm form) {c : ReadScenario}
    (hc : c.2.length = c.1.steps.length) : AllFit (form.block c.1.size) (l.block c) := by
  have hsteps := h.allFit_linesAfter [] c.2
  rw [hc] at hsteps
  exact ((h.heading c.1).append hsteps).append h.closing

/-- Every line that is written fits. -/
theorem HasForm.allFit_lines (h : l.HasForm form) {g : PageGroup}
    (hg : ∀ c ∈ g.cases, c.2.length = c.1.steps.length) :
    AllFit (form.lines (g.cases.map fun c => c.1.size)) (l.lines g ++ [""]) := by
  have hblocks : List.Forall₂ AllFit ((g.cases.map fun c => c.1.size).map form.block)
      (g.cases.map l.block) := by
    rw [List.map_map, List.forall₂_map_left_iff, List.forall₂_map_right_iff, List.forall₂_same]
    exact fun c hc => h.allFit_block (hg c hc)
  have hopening := h.opening g.key g.cases.length
  rw [FileForm.lines, List.length_map]
  exact ((hopening.append (h.gap.intercalate hblocks)).append h.ending).append (.cons rfl .nil)

/-- There are as many line breaks within lines as in the name of the page. -/
theorem HasBanner.breaks_lines (h : l.HasBanner) (g : PageGroup) :
    breaks (String.join (l.lines g)) = breaks g.key := by
  have hnone {lines : List String} (hlines : ∀ line ∈ lines, Text.Unbroken line) :
      breaks (String.join lines) = 0 := breaks_eq_zero_iff.mpr (unbroken_join_iff.mpr hlines)
  obtain ⟨before, mark, after, hopening, hunbroken⟩ := h.opening g.key g.cases.length
  rw [List.forall_mem_append, List.forall_mem_cons] at hunbroken
  obtain ⟨hbefore, hmark, hafter⟩ := hunbroken
  simp only [lines, hopening, String.join_append, String.join_cons, breaks_append, breaks_bannerOf,
    hnone hbefore, hnone hafter, breaks_eq_zero_iff.mpr hmark, hnone (h.blocks h.gap g.cases),
    hnone h.ending]
  omega

/-- Each line break in the name of the page makes one more line. -/
theorem HasBanner.length_linesIn (h : l.HasBanner) (g : PageGroup) :
    (linesIn (l.file g).content).length = (l.lines g).length + breaks g.key + 1 := by
  have hcontent : (l.file g).content = ofLines (l.lines g) := rfl
  rw [hcontent, length_linesIn_ofLines, h.breaks_lines]

/-- If there is none, each line is what was written to it. -/
theorem HasBanner.linesIn_file (h : l.HasBanner) {g : PageGroup} (hg : Text.Unbroken g.key) :
    linesIn (l.file g).content = l.lines g ++ [""] := by
  have hnone : breaks (String.join (l.lines g)) = 0 :=
    (h.breaks_lines g).trans (breaks_eq_zero_iff.mpr hg)
  exact linesIn_ofLines (unbroken_join_iff.mp (breaks_eq_zero_iff.mp hnone))

end Layout

namespace Framework

theorem exists_form {f : Framework} (hf : f ≠ .xctest) : ∃ l form,
    f.layout? = some l ∧ f.fileForm? = some form ∧ l.HasForm form ∧ l.HasBanner := by
  cases f with
  | playwright =>
    exact ⟨_, _, rfl, rfl, Playwright.layout_hasForm, Playwright.layout_hasBanner⟩
  | cypress => exact ⟨_, _, rfl, rfl, Cypress.layout_hasForm, Cypress.layout_hasBanner⟩
  | cucumber => exact ⟨_, _, rfl, rfl, Cucumber.layout_hasForm, Cucumber.layout_hasBanner⟩
  | appium => exact ⟨_, _, rfl, rfl, Appium.layout_hasForm, Appium.layout_hasBanner⟩
  | xctest => exact absurd rfl hf

/-- **The file of a page has its shape if and only if the name of the page is on one line.**  The
shape is fixed by the numbers of steps of the scenarios and by which of them have tags; each line
break in the name is one line too many.  If there is none, each line is what was written to it. -/
theorem lines_fit_iff {f : Framework} (hf : f ≠ .xctest) (s : RenderSettings) {p : Plan}
    {g : PageGroup} (hg : g ∈ p.groups) : ∃ l form,
    f.layout? = some l ∧ f.fileForm? = some form ∧ l.file g ∈ (f.render s p).files ∧
    (linesIn (l.file g).content).length =
      (form.lines (g.cases.map fun c => c.1.size)).length + breaks g.key ∧
    (AllFit (form.lines (g.cases.map fun c => c.1.size)) (linesIn (l.file g).content) ↔
      Unbroken g.key) ∧
    (Unbroken g.key → linesIn (l.file g).content = l.lines g ++ [""]) := by
  obtain ⟨l, form, hl, hform, hhas, hbanner⟩ := exists_form hf
  have hrendered := renderedBy hl s p
  have hsteps : ∀ c ∈ g.cases, c.2.length = c.1.steps.length := fun c hc =>
    (l.length_linesAfter [] c.2).symm.trans (hrendered.lines g hg c hc)
  have hfile : l.file g ∈ (f.render s p).files := by
    obtain ⟨fixtures, hfiles, -⟩ := hrendered.files
    rw [hfiles]
    exact List.mem_append_left _ (List.mem_append_right _ (List.mem_map_of_mem hg))
  have hfit := hhas.allFit_lines hsteps
  have hlength : (linesIn (l.file g).content).length =
      (form.lines (g.cases.map fun c => c.1.size)).length + breaks g.key := by
    rw [hbanner.length_linesIn, hfit.length_eq, List.length_append, List.length_singleton]
    omega
  refine ⟨l, form, hl, hform, hfile, hlength, ⟨fun h => ?_, fun h => ?_⟩, hbanner.linesIn_file⟩
  · have hsame := h.length_eq
    exact breaks_eq_zero_iff.mp (by omega)
  · rw [hbanner.linesIn_file h]
    exact hfit

end Framework

namespace Sample

/-- A plan that opens a page. -/
def opening (url : String) : Plan where
  id := ⟨uuid 1000, 1, none⟩
  baseUrl := "/"
  cases := [{ id := "open", title := "Open", coverage := .statement, steps := [.goto url] }]
  info := ⟨"sdet", 1, ⟨0, 0⟩⟩

/-- The page of the plan. -/
def openedPage (url stem : String) : PageGroup where
  key := url
  stem := stem
  cases := [({ id := "open", title := "Open", coverage := .statement, steps := [.goto url] },
    [.goto url])]

theorem openedPage_mem_groups : openedPage "/a" "a" ∈ (opening "/a").groups := by
  have hgroups : (opening "/a").groups = [openedPage "/a" "a"] := by rfl
  rw [hgroups]
  exact List.mem_singleton_self _

end Sample

/-- The page that is opened has a file of seven lines, and what follows the last is empty. -/
theorem Framework.opened_lines_fit : playwright ≠ .xctest ∧
    Sample.openedPage "/a" "a" ∈ (Sample.opening "/a").groups ∧
    AllFit (Playwright.fileForm.lines [⟨false, 1⟩])
      (linesIn (Playwright.layout.file (Sample.openedPage "/a" "a")).content) := by
  have hg := Sample.openedPage_mem_groups
  obtain ⟨l, form, hl, hform, -, -, hiff, -⟩ := lines_fit_iff (f := .playwright) (by decide) {} hg
  cases hl
  cases hform
  exact ⟨by decide, hg, hiff.mpr (by decide)⟩

/-- A page whose name has a line break gets one line more for the same steps: what is behind the
line break is a line of code. -/
theorem Framework.page_name_makes_line :
    Sample.openedPage "/a" "a" ∈ (Sample.opening "/a").groups ∧
    Sample.openedPage "/a\nalert(1)" "a-alert-1" ∈ (Sample.opening "/a\nalert(1)").groups ∧
    (linesIn (Playwright.layout.file (Sample.openedPage "/a" "a")).content).length = 8 ∧
    (linesIn
      (Playwright.layout.file (Sample.openedPage "/a\nalert(1)" "a-alert-1")).content).length = 9 ∧
    "alert(1) (1 tests)" ∈
      linesIn (Playwright.layout.file (Sample.openedPage "/a\nalert(1)" "a-alert-1")).content := by
  have hgroups : (Sample.opening "/a\nalert(1)").groups =
      [Sample.openedPage "/a\nalert(1)" "a-alert-1"] := by rfl
  refine ⟨Sample.openedPage_mem_groups, ?_, ?_, ?_, by decide +kernel⟩
  · rw [hgroups]
    exact List.mem_singleton_self _
  · exact Playwright.layout_hasBanner.length_linesIn _
  · exact Playwright.layout_hasBanner.length_linesIn _

end Testplan
