import Testplan.Proofs.PageFiles
import Testplan.Proofs.Schedule
/-!
# Rendering shares out a plan, in every framework alike

A plan is rendered by page: every scenario either failed, or has its block in the file of one
page (`Framework.render_shares_out`).  What failed and which pages there are depends on the
plan alone, so all frameworks that generate code give the same account of a plan; and a
scenario that failed leaves no trace in any file, since two plans that differ in such
scenarios only have the same files.
-/
namespace Testplan

/-- A scenario is sieved in one way. -/
theorem Sieved.unique {cases : List Scenario} {rendered others : List ReadScenario}
    {failures problems : List RenderFailure} (h : Sieved cases rendered failures)
    (h' : Sieved cases others problems) : rendered = others := by
  induction h generalizing others problems with
  | nil =>
    cases h'
    rfl
  | read hr _ ih =>
    cases h' with
    | read hr' rest =>
      cases (Scenario.actions_eq_ok_iff.mpr hr).symm.trans (Scenario.actions_eq_ok_iff.mpr hr')
      rw [ih rest]
    | stop hstop => exact absurd hstop hr.not_stopsAt
  | stop hstop _ ih =>
    cases h' with
    | read hr => exact absurd hstop hr.not_stopsAt
    | stop _ rest => exact ih rest

theorem Plan.groups_congr {p q : Plan} (h : p.readable = q.readable) : p.groups = q.groups := by
  rw [groups, groups, h]

theorem Plan.sum_cases_groups (p : Plan) :
    p.groups.foldl (fun n g => n + g.cases.length) 0 = p.readable.length := by
  rw [← p.sharedOut.whole.length_eq, List.length_flatMap, List.sum_eq_foldl, List.foldl_map]

theorem exists_fixtureFor_of_mem_newFixtures {seen paths : List String} {file : RenderedFile}
    (h : file ∈ newFixtures seen paths) : ∃ path, file = fixtureFor path := by
  induction paths generalizing seen with
  | nil => cases h
  | cons path rest ih =>
    rw [newFixtures] at h
    split at h
    · exact ih h
    · dsimp only at h
      split at h
      · exact ih h
      · rcases List.mem_cons.mp h with rfl | h
        · exact ⟨_, rfl⟩
        · exact ih h

/-- **What the rendering of a plan holds**, for a framework with a layout. -/
structure Plan.RenderedBy (p : Plan) (f : Framework) (s : RenderSettings) (l : Layout)
    (r : Rendering) : Prop where
  /-- Every scenario was read and stands in one page group, or it failed. -/
  shared : p.SharedOut p.readable p.groups r.failures
  /-- The manifest lists the pages of the groups and counts the scenarios in them. -/
  pages : r.manifest.pages = p.groups.map PageGroup.key
  count : r.manifest.count = (p.groups.flatMap PageGroup.cases).length
  count_failures : r.manifest.count + r.failures.length = p.cases.length
  complete_iff : r.status = .complete ↔ r.failures = []
  incomplete_iff : r.status = .incomplete ↔ r.failures ≠ []
  /-- There is one test file for each page group, beside files that hold no scenarios. -/
  files : ∃ fixtures,
    r.files = f.supportFiles s p.baseUrl ++ p.groups.map l.file ++ fixtures ∧
      ∀ file ∈ fixtures, ∃ path, file = fixtureFor path
  test_paths_distinct : (p.groups.map fun g => (l.file g).path).Nodup
  /-- A block has one line for each step. -/
  lines : ∀ g ∈ p.groups, ∀ c ∈ g.cases, (l.linesAfter [] c.2).length = c.1.steps.length
  unbroken : ∀ c, ∀ line ∈ l.block c, Text.Unbroken line
  /-- Scenarios that fail make no difference to the files. -/
  indifferent : ∀ (q : Plan) failures, q.baseUrl = p.baseUrl →
    Sieved q.cases p.readable failures → (f.render s q).files = r.files

theorem Framework.path_injective {f : Framework} {l : Layout} (h : f.layout? = some l) :
    Function.Injective l.path := by
  intro a b hab
  cases f <;> cases h
  · simpa [Playwright.layout, String.append_right_inj] using hab
  · simpa [Cypress.layout, String.append_right_inj] using hab
  · simpa [Cucumber.layout, String.append_right_inj] using hab
  · simpa [Appium.layout, String.append_right_inj] using hab

theorem Framework.renderedBy {f : Framework} {l : Layout} (h : f.layout? = some l)
    (s : RenderSettings) (p : Plan) : p.RenderedBy f s l (f.render s p) where
  shared := by
    rw [render_eq_assemble h]
    exact p.sharedOut
  pages := by
    rw [render_eq_assemble h]
    rfl
  count := by
    rw [render_eq_assemble h, p.sharedOut.whole.length_eq]
    exact p.sum_cases_groups
  count_failures := by
    rw [render_eq_assemble h, ← p.sieved.length_eq]
    exact congrArg (· + p.failures.length) p.sum_cases_groups
  complete_iff := by
    rw [render_eq_assemble h]
    simp [Plan.assemble]
  incomplete_iff := by
    rw [render_eq_assemble h]
    simp [Plan.assemble]
  files := by
    rw [render_eq_assemble h]
    exact ⟨_, rfl, fun file => exists_fixtureFor_of_mem_newFixtures⟩
  test_paths_distinct := by
    have hnodup := p.nodup_stems.map (path_injective h)
    rwa [List.map_map] at hnodup
  lines := by
    intro g hg c hc
    rw [Layout.length_linesAfter]
    rw [Plan.cases_of_mem_groups hg] at hc
    exact (p.sieved.reads (List.mem_of_mem_filter hc)).2.length_eq.symm
  unbroken := (layout_unbroken h).block
  indifferent := by
    intro q failures hbase hq
    have hreadable : q.readable = p.readable := q.sieved.unique hq
    rw [render_eq_assemble h, render_eq_assemble h, hbase]
    simp only [Plan.assemble, Plan.groups_congr hreadable]

/-- **Every framework that generates code shares out a plan**, and all of them in the same
way. -/
theorem Framework.render_shares_out {f : Framework} (hf : f ≠ .xctest) (s : RenderSettings)
    (p : Plan) :
    (∃ l, f.layout? = some l ∧ p.RenderedBy f s l (f.render s p)) ∧
    ∀ (g : Framework) (t : RenderSettings), g ≠ .xctest →
      (g.render t p).manifest.pages = (f.render s p).manifest.pages ∧
      (g.render t p).manifest.count = (f.render s p).manifest.count ∧
      (g.render t p).status = (f.render s p).status ∧
      (g.render t p).failures = (f.render s p).failures := by
  obtain ⟨l, hl⟩ := exists_layout hf
  refine ⟨⟨l, hl, renderedBy hl s p⟩, fun g t hg => ?_⟩
  obtain ⟨k, hk⟩ := exists_layout hg
  rw [render_eq_assemble hl, render_eq_assemble hk]
  exact ⟨rfl, rfl, rfl, rfl⟩

namespace Sample

/-- Four scenarios on two pages, one of which clicks nothing. -/
def pages : Plan where
  id := ⟨uuid 1000, 1, none⟩
  baseUrl := "/"
  cases := [
    { id := "a", title := "A", coverage := .statement, steps := [.goto "/login", .click "label="] },
    { id := "b", title := "B", coverage := .statement, steps := [.goto "/login", .click "button"] },
    { id := "c", title := "C", coverage := .statement, steps := [.goto "/", .custom "look"] },
    { id := "d", title := "D", coverage := .statement, steps := [.goto "/login?next=1"] }]
  info := ⟨"sdet", 4, ⟨0, 0⟩⟩

end Sample

/-- A scenario that clicks nothing is set apart, and the others stand on their pages. -/
theorem Framework.bad_click_set_apart :
    playwright ≠ .xctest ∧
    (∃ l, playwright.layout? = some l ∧
      Sample.pages.RenderedBy playwright {} l (playwright.render {} Sample.pages)) ∧
    (playwright.render {} Sample.pages).manifest.pages = ["/login", "/"] ∧
    (cucumber.render {} Sample.pages).manifest.count = 3 ∧
    (playwright.render {} Sample.pages).failures.map RenderFailure.stepIndex = [1] := by
  have h := render_shares_out (f := .playwright) (by decide) {} Sample.pages
  refine ⟨by decide, h.1, by decide +kernel, ?_, by decide +kernel⟩
  rw [(h.2 .cucumber {} (by decide)).2.1]
  decide +kernel

end Testplan
