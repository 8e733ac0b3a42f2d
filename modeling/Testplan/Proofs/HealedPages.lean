import Testplan.Proofs.HealedActions
/-!
# What healing changes in the files of a project

The page groups of a healed plan are those of the plan that failed, with corrected actions
(`Plan.groups_map`).  The file of a page tells its actions apart: nothing in a line breaks it,
so the lines are read off the text (`ofLines_inj`), the blocks of the scenarios off the lines,
since their lengths are known (`intercalate_inj`), and the actions off the blocks, since the
line of a corrected action is another one (`Layout.linesAfter_inj`).  So the files of a project
change as soon as an action of a scenario that is rendered is corrected
(`Framework.files_eq_iff`).
-/
namespace Testplan

/-! ## Page groups -/

/-- The page groups follow from what was read, scenario by scenario. -/
theorem Plan.groups_eq (p : Plan) :
    p.groups = ((pagesOf p.readable).zip (stemsFor [] (pagesOf p.readable))).map fun page =>
      ⟨page.1, page.2, onPage p.readable page.1⟩ := by
  have hgroup : p.groups = (p.groups.map fun g => (g.key, g.stem)).map fun page =>
      ⟨page.1, page.2, onPage p.readable page.1⟩ := by
    rw [List.map_map]
    refine ((List.map_congr_left fun g hg => ?_).trans (List.map_id _)).symm
    rw [Function.comp_apply, ← cases_of_mem_groups hg]
    rfl
  have hpages : (p.groups.map fun g => (g.key, g.stem)) =
      (pagesOf p.readable).zip (stemsFor [] (pagesOf p.readable)) := by
    rw [← p.map_key_groups, ← p.map_stem_groups, List.zip_map']
  rw [hgroup, hpages]

/-- A change of scenarios that leaves their pages alone changes no more than the scenarios of
the groups. -/
theorem Plan.groups_map {p q : Plan} {change : ReadScenario → ReadScenario}
    (hpage : ∀ c, (change c).1.pageKey = c.1.pageKey) (hq : q.readable = p.readable.map change) :
    q.groups = p.groups.map fun g => { g with cases := g.cases.map change } := by
  have hpages : pagesOf q.readable = pagesOf p.readable := by
    simp [pagesOf, hq, Function.comp_def, hpage]
  have honPage (key : String) : onPage q.readable key = (onPage p.readable key).map change := by
    simp [onPage, hq, List.filter_map, Function.comp_def, hpage]
  rw [groups_eq, groups_eq, hpages, List.map_map]
  simp only [honPage, Function.comp_def]

/-! ## Files of pages -/

theorem ofLines_append (a b : List String) : ofLines (a ++ b) = ofLines a ++ ofLines b := by
  simp [ofLines]

/-- Lines without line breaks are read off the text that they make. -/
theorem ofLines_inj {a b : List String} (ha : ∀ line ∈ a, Text.Unbroken line)
    (hb : ∀ line ∈ b, Text.Unbroken line) (h : ofLines a = ofLines b) : a = b := by
  have hlines := congrArg linesIn h
  rw [linesIn_ofLines ha, linesIn_ofLines hb] at hlines
  exact List.append_cancel_right hlines

namespace Layout

variable {f : Framework} {lay : Layout} (hf : f.layout? = some lay)
include hf

/-- The lines of corrected actions tell the actions apart. -/
theorem linesAfter_inj {actions others : List Action}
    (h : List.Forall₂ (fun a b => b = a ∨ a.Corrected b) actions others) (before : List Action)
    (heq : lay.linesAfter before actions = lay.linesAfter before others) : others = actions := by
  induction h generalizing before with
  | nil => rfl
  | @cons a b actions others hab _ ih =>
    obtain ⟨hline, hlines⟩ := List.cons.inj heq
    rcases hab with rfl | hab
    · rw [ih _ hlines]
    · exact absurd hline (Framework.line_ne_of_corrected hf hab before)

theorem unbroken_gap : ∀ line ∈ lay.gap, Text.Unbroken line := by
  cases f <;> cases hf <;> decide

theorem unbroken_blocks (cases : List ReadScenario) :
    ∀ line ∈ lay.gap.intercalate (cases.map lay.block), Text.Unbroken line :=
  (Framework.layout_unbroken hf).blocks (unbroken_gap hf) cases

/-- **The file of a page tells its actions**: it changes as soon as an action is corrected. -/
theorem file_eq_iff {g : PageGroup} {change : ReadScenario → ReadScenario}
    (hheading : ∀ c, lay.heading (change c).1 = lay.heading c.1)
    (hactions : ∀ c ∈ g.cases, List.Forall₂ (fun a b => b = a ∨ a.Corrected b) c.2 (change c).2) :
    lay.file { g with cases := g.cases.map change } = lay.file g ↔
      ∀ c ∈ g.cases, (change c).2 = c.2 := by
  have hblock (c : ReadScenario) : lay.block (change c) =
      lay.heading c.1 ++ lay.linesAfter [] (change c).2 ++ lay.closing := by
    rw [block, hheading]
  constructor
  · intro h c hc
    have hcontent := congrArg RenderedFile.content h
    simp only [file, List.length_map, ofLines_append, String.append_left_inj,
      String.append_right_inj] at hcontent
    have hlines := ofLines_inj (unbroken_blocks hf _) (unbroken_blocks hf _) hcontent
    have hblocks : (g.cases.map change).map lay.block = g.cases.map lay.block := by
      refine intercalate_inj ?_ hlines
      rw [List.map_map, List.forall₂_map_left_iff, List.forall₂_map_right_iff, List.forall₂_same]
      intro c hc
      rw [Function.comp_apply, hblock, block]
      simp [length_linesAfter, (hactions c hc).length_eq]
    rw [List.map_map, List.map_inj_left] at hblocks
    have hsame := hblocks c hc
    rw [Function.comp_apply, hblock, block, List.append_left_inj, List.append_right_inj] at hsame
    exact linesAfter_inj hf (hactions c hc) [] hsame.symm
  · intro h
    have hblocks : (g.cases.map change).map lay.block = g.cases.map lay.block := by
      rw [List.map_map]
      refine List.map_congr_left fun c hc => ?_
      rw [Function.comp_apply, hblock, block, h c hc]
    simp only [file, hblocks, List.length_map]

theorem heading_repaired (s : Scenario) (hint new : String) :
    lay.heading (s.repaired hint new) = lay.heading s := by
  cases f <;> cases hf <;> rfl

end Layout

/-! ## Files of projects -/

section Corrections

variable {hint : String} {l : Locator} (hl : Locator.parse hint = .ok l) {new : Locator}
  (hnew : Locator.parse new.render = .ok new) (hr : l.Replaced new)
include hl hnew hr

/-- **The files of a project tell the actions of the plan**: they change as soon as an action of
a scenario that is rendered is corrected. -/
theorem Framework.files_eq_iff {f : Framework} {lay : Layout} (hf : f.layout? = some lay)
    (s : RenderSettings) {p q : Plan} (hbase : q.baseUrl = p.baseUrl)
    (hq : q.cases = p.cases.map fun s => s.repaired hint new.render) :
    (f.render s q).files = (f.render s p).files ↔
      ∀ c ∈ p.readable, (repairedReading hint new.render c).2 = c.2 := by
  have hgroups : q.groups = p.groups.map fun g =>
      { g with cases := g.cases.map (repairedReading hint new.render) } :=
    Plan.groups_map (fun c => c.1.pageKey_repaired hint new.render)
      (Plan.readable_repaired hl hnew hr hq)
  have hfile {g : PageGroup} (hg : g ∈ p.groups) :
      lay.file { g with cases := g.cases.map (repairedReading hint new.render) } = lay.file g ↔
        ∀ c ∈ g.cases, (repairedReading hint new.render c).2 = c.2 := by
    refine Layout.file_eq_iff hf (fun c => Layout.heading_repaired hf c.1 hint new.render) ?_
    intro c hc
    rw [Plan.cases_of_mem_groups hg] at hc
    exact Plan.corrected_of_mem_readable hl hnew hr (List.mem_of_mem_filter hc)
  rw [render_eq_assemble hf, render_eq_assemble hf, hbase]
  simp only [Plan.assemble, hgroups, List.map_map, List.flatMap_map]
  constructor
  · intro h c hc
    rw [List.append_assoc, List.append_assoc] at h
    have hfiles := (List.append_inj (List.append_cancel_left h) (by simp)).1
    obtain ⟨g, ⟨hg, hcg⟩, -⟩ := p.sharedOut.one_group c hc
    exact (hfile hg).mp (List.map_inj_left.mp hfiles g hg) c hcg
  · intro h
    have hmem {g : PageGroup} (hg : g ∈ p.groups) :
        ∀ c ∈ g.cases, (repairedReading hint new.render c).2 = c.2 := by
      intro c hc
      rw [Plan.cases_of_mem_groups hg] at hc
      exact h c (List.mem_of_mem_filter hc)
    have hfiles : p.groups.map (lay.file ∘ fun g =>
          { g with cases := g.cases.map (repairedReading hint new.render) }) =
        p.groups.map lay.file :=
      List.map_congr_left fun g hg => (hfile hg).mpr (hmem hg)
    have huploads : (p.groups.flatMap fun g => PageGroup.uploads
          { g with cases := g.cases.map (repairedReading hint new.render) }) =
        p.groups.flatMap PageGroup.uploads := by
      refine List.flatMap_congr fun g hg => ?_
      simp only [PageGroup.uploads, List.flatMap_map]
      exact List.flatMap_congr fun c hc => by rw [hmem hg c hc]
    rw [hfiles, huploads]

end Corrections

end Testplan
