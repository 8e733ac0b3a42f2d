import Testplan.Proofs.PageFiles
import Testplan.Proofs.PageStems
import Testplan.Proofs.PathNames
import Testplan.Proofs.Schedule
/-!
# The paths of a project

Every file of a project has a path of proper names (`Framework.proper_fileNames`): it is
relative and climbs nowhere, whatever the pages and uploads of the plan are called.

A project has its own files, which are those of the framework and those of the pages.  After
them come the fixtures, one for each upload path that stays inside the project and leads to no
file of its own, in the order in which the test files use them (`newFixtures_eq`).  No two
files have the same path (`Framework.paths_safe`).
-/
namespace Testplan

/-! ## The files of a framework and of pages -/

/-- The names of the files without tests. -/
def Framework.supportNames : Framework → List (List String)
  | playwright => [["package.json"], ["playwright.config.ts"]]
  | cypress => [["package.json"], ["cypress.config.js"], ["cypress", "support", "e2e.js"]]
  | cucumber => [["package.json"], ["cucumber.js"], ["support", "steps.js"]]
  | appium => [["package.json"], [".mocharc.json"], ["test", "support", "session.js"]]
  | xctest => []

/-- The directories in which a framework has the files of pages. -/
def Framework.testDirectory : Framework → List String
  | playwright => ["tests"]
  | cypress => ["cypress", "e2e"]
  | cucumber => ["features"]
  | appium => ["test"]
  | xctest => []

/-- What follows the stem in the name of a page's file. -/
def Framework.testSuffix : Framework → String
  | playwright => ".spec.ts"
  | cypress => ".cy.js"
  | cucumber => ".feature"
  | appium => ".spec.js"
  | xctest => ""

/-- The names of the file of a page. -/
def Framework.testNames (f : Framework) (stem : String) : List String :=
  f.testDirectory ++ [stem ++ f.testSuffix]

/-- The names of a project's own files. -/
def Framework.ownNames (f : Framework) (p : Plan) : List (List String) :=
  f.supportNames ++ p.groups.map fun g => f.testNames g.stem

namespace Framework

variable {f : Framework} {l : Layout}

theorem map_path_supportFiles (f : Framework) (s : RenderSettings) (baseUrl : String) :
    (f.supportFiles s baseUrl).map RenderedFile.path = f.supportNames.map Path.ofNames := by
  cases f <;> rfl

theorem layout_path (h : f.layout? = some l) (stem : String) :
    l.path stem = Path.ofNames (f.testNames stem) := by
  rw [← String.toList_inj]
  cases f <;> cases h <;>
    simp [Path.ofNames, testNames, testDirectory, testSuffix, Playwright.layout, Cypress.layout,
      Cucumber.layout, Appium.layout]

theorem proper_supportNames (f : Framework) : ∀ names ∈ f.supportNames, Path.Proper names := by
  cases f <;> decide

theorem proper_testNames (hf : f ≠ .xctest) {stem : String}
    (h : ∀ c ∈ stem.toList, isStemChar c) : Path.Proper (f.testNames stem) := by
  have hdirectory : ∀ s ∈ f.testDirectory, Path.IsName s := by cases f <;> decide
  have hlong : 2 < f.testSuffix.length := by
    cases f with
    | xctest => exact absurd rfl hf
    | _ => decide
  have hslash : '/' ∉ f.testSuffix.toList := by cases f <;> decide
  have hname : Path.IsName (stem ++ f.testSuffix) := by
    refine Path.isName_of_length (by rw [String.length_append]; omega) ?_
    rw [String.toList_append, List.mem_append]
    exact not_or.mpr ⟨fun hc => absurd (h _ hc) (by decide), hslash⟩
  refine ⟨by simp [testNames], fun s hs => ?_⟩
  rcases List.mem_append.mp hs with hs | hs
  · exact hdirectory s hs
  · exact List.mem_singleton.mp hs ▸ hname

theorem testNames_injective (f : Framework) : Function.Injective f.testNames := by
  intro a b h
  simpa [testNames, String.append_left_inj] using h

/-- No page has its file where a file without tests is. -/
theorem testNames_notMem (f : Framework) (stem : String) :
    f.testNames stem ∉ f.supportNames := by
  cases f <;> simp [testNames, testDirectory, supportNames]

theorem proper_ownNames (hf : f ≠ .xctest) (p : Plan) :
    ∀ names ∈ f.ownNames p, Path.Proper names := by
  intro names h
  rcases List.mem_append.mp h with h | h
  · exact f.proper_supportNames names h
  · obtain ⟨g, hg, rfl⟩ := List.mem_map.mp h
    exact proper_testNames hf (Plan.stem_chars hg)

theorem nodup_ownNames (f : Framework) (p : Plan) : (f.ownNames p).Nodup := by
  have hsupport : f.supportNames.Nodup := by cases f <;> decide
  have htests := p.nodup_stems.map f.testNames_injective
  rw [List.map_map] at htests
  refine List.nodup_append.mpr ⟨hsupport, htests, ?_⟩
  rintro names hnames _ hmem rfl
  obtain ⟨g, -, rfl⟩ := List.mem_map.mp hmem
  exact f.testNames_notMem g.stem hnames

end Framework

/-! ## Fixtures -/

/-- The names of the upload paths that stay inside the project, in the order in which the
test files use them. -/
def Plan.uploadNames (p : Plan) : List (List String) :=
  (p.groups.flatMap PageGroup.uploads).filterMap Path.contained?

theorem PageGroup.mem_uploads_iff {g : PageGroup} {path : String} :
    path ∈ g.uploads ↔ ∃ c ∈ g.cases, ∃ l, .upload l path ∈ c.2 := by
  rw [uploads, List.mem_flatMap]
  refine exists_congr fun c => and_congr_right fun _ => ?_
  rw [List.mem_filterMap]
  constructor
  · rintro ⟨a, ha, hpath⟩
    cases a with
    | upload l q =>
      cases hpath
      exact ⟨l, ha⟩
    | _ => cases hpath
  · rintro ⟨l, ha⟩
    exact ⟨_, ha, rfl⟩

/-- A scenario of the plan that can be rendered uploads a file inside the project. -/
def Plan.Uploads (p : Plan) (names : List String) : Prop :=
  ∃ s ∈ p.cases, ∃ actions, s.Reads actions ∧
    ∃ l path, .upload l path ∈ actions ∧ Path.Inside path names

theorem Plan.mem_uploadNames_iff {p : Plan} {names : List String} :
    names ∈ p.uploadNames ↔ p.Uploads names := by
  rw [uploadNames, List.mem_filterMap]
  constructor
  · rintro ⟨path, hpath, hnames⟩
    obtain ⟨g, hg, hpath⟩ := List.mem_flatMap.mp hpath
    obtain ⟨c, hc, l, hupload⟩ := PageGroup.mem_uploads_iff.mp hpath
    rw [cases_of_mem_groups hg] at hc
    obtain ⟨hcase, hreads⟩ := p.sieved.reads (List.mem_of_mem_filter hc)
    exact ⟨c.1, hcase, c.2, hreads, l, path, hupload, Path.contained?_eq_some_iff.mp hnames⟩
  · rintro ⟨s, hs, actions, hreads, l, path, hupload, hinside⟩
    obtain ⟨g, ⟨hg, hc⟩, -⟩ := p.sharedOut.one_group _ (p.sieved.mem_of_reads hs hreads)
    have hpath := PageGroup.mem_uploads_iff.mpr ⟨_, hc, l, hupload⟩
    exact ⟨path, List.mem_flatMap.mpr ⟨g, hg, hpath⟩, Path.contained?_eq_some_iff.mpr hinside⟩

/-- The fixtures are the paths inside the project that are new, each where it came first. -/
theorem newFixtures_eq {taken : List (List String)} (h : ∀ names ∈ taken, Path.Proper names)
    (paths : List String) :
    newFixtures (taken.map Path.ofNames) paths =
      ((paths.filterMap Path.contained?).filter (· ∉ taken)).eraseDups.map
        (fixtureFor <| Path.ofNames ·) := by
  induction paths generalizing taken with
  | nil => rfl
  | cons path rest ih =>
    cases hnames : Path.contained? path with
    | none =>
      rw [newFixtures, hnames, List.filterMap_cons_none hnames]
      exact ih h
    | some names =>
      rw [newFixtures, hnames, List.filterMap_cons_some hnames]
      have hproper := (Path.contained?_eq_some_iff.mp hnames).proper
      have hmem : Path.ofNames names ∈ taken.map Path.ofNames ↔ names ∈ taken := by
        constructor
        · intro hm
          obtain ⟨other, hother, heq⟩ := List.mem_map.mp hm
          exact Path.ofNames_inj (h other hother) hproper heq ▸ hother
        · exact List.mem_map_of_mem
      dsimp only
      split
      · next hseen =>
        rw [ih h, List.filter_cons_of_neg (by simpa using hmem.mp hseen)]
      · next hnew =>
        have htaken : ∀ other ∈ taken ++ [names], Path.Proper other :=
          List.forall_mem_append.mpr ⟨h, by simpa using hproper⟩
        have hsnoc : taken.map Path.ofNames ++ [Path.ofNames names] =
            (taken ++ [names]).map Path.ofNames := by simp
        have hfilter : (rest.filterMap Path.contained?).filter (· ∉ taken ++ [names]) =
            (rest.filterMap Path.contained?).filter
              fun other => !other == names && decide (other ∉ taken) :=
          List.filter_congr fun other _ => by simp [Bool.and_comm, beq_eq_decide]
        rw [hsnoc, ih htaken, List.filter_cons_of_pos (by simpa using mt hmem.mpr hnew),
          List.eraseDups_cons, List.map_cons, List.filter_filter, hfilter]

/-- The names of the fixtures of a project: those of the upload paths that stay inside and
that no own file has, each where it came first. -/
def Framework.fixtureNames (f : Framework) (p : Plan) : List (List String) :=
  (p.uploadNames.filter (· ∉ f.ownNames p)).eraseDups

/-- The names of all files of a project. -/
def Framework.fileNames (f : Framework) (p : Plan) : List (List String) :=
  f.ownNames p ++ f.fixtureNames p

namespace Framework

variable {f : Framework} {l : Layout}

theorem mem_fixtureNames_iff {p : Plan} {names : List String} :
    names ∈ f.fixtureNames p ↔ names ∈ p.uploadNames ∧ names ∉ f.ownNames p := by
  simp [fixtureNames]

theorem map_path_ownFiles (h : f.layout? = some l) (s : RenderSettings) (p : Plan) :
    (f.supportFiles s p.baseUrl ++ p.groups.map l.file).map RenderedFile.path =
      (f.ownNames p).map Path.ofNames := by
  rw [ownNames, List.map_append, List.map_append, map_path_supportFiles, List.map_map,
    List.map_map]
  exact congrArg _ (List.map_congr_left fun g _ => layout_path h g.stem)

/-- The files of a project are its own and its fixtures. -/
theorem files_render (hf : f ≠ .xctest) (h : f.layout? = some l) (s : RenderSettings) (p : Plan) :
    (f.render s p).files =
      f.supportFiles s p.baseUrl ++ p.groups.map l.file ++
        (f.fixtureNames p).map (fixtureFor <| Path.ofNames ·) := by
  rw [render_eq_assemble h]
  unfold Plan.assemble
  dsimp only
  rw [map_path_ownFiles h, newFixtures_eq (proper_ownNames hf p)]
  rfl

theorem map_path_files (hf : f ≠ .xctest) (s : RenderSettings) (p : Plan) :
    (f.render s p).files.map RenderedFile.path = (f.fileNames p).map Path.ofNames := by
  obtain ⟨l, h⟩ := exists_layout hf
  rw [files_render hf h, List.map_append, map_path_ownFiles h, fileNames, List.map_append,
    List.map_map]
  rfl

theorem proper_fileNames (hf : f ≠ .xctest) (p : Plan) :
    ∀ names ∈ f.fileNames p, Path.Proper names := by
  refine List.forall_mem_append.mpr ⟨proper_ownNames hf p, fun names h => ?_⟩
  obtain ⟨_, _, _, _, _, _, _, hinside⟩ :=
    Plan.mem_uploadNames_iff.mp (mem_fixtureNames_iff.mp h).1
  exact hinside.proper

theorem nodup_fileNames (f : Framework) (p : Plan) : (f.fileNames p).Nodup := by
  refine List.nodup_append.mpr ⟨f.nodup_ownNames p, nodup_eraseDups _, ?_⟩
  rintro names hown _ hfixture rfl
  exact (mem_fixtureNames_iff.mp hfixture).2 hown

end Framework

/-! ## Safe paths -/

/-- The paths of files, part by part. -/
def pathsOf (files : List RenderedFile) : List (List Path.Part) :=
  files.map fun file => Path.parts file.path

/-- Files with paths of proper names. -/
theorem pathsOf_eq {files : List RenderedFile} {lists : List (List String)}
    (h : files.map RenderedFile.path = lists.map Path.ofNames)
    (hproper : ∀ names ∈ lists, Path.Proper names) :
    pathsOf files = lists.map (List.map .name) := by
  have hparts := congrArg (List.map Path.parts) h
  rw [List.map_map, List.map_map] at hparts
  exact hparts.trans (List.map_congr_left fun names hnames =>
    Path.parts_ofNames (hproper names hnames))

theorem map_name_injective : Function.Injective (List.map Path.Part.name) :=
  Path.name_injective.list_map

/-- **Files with safe paths**, where `own` are those that the project has in any case. -/
structure Plan.SafelyPlaced (p : Plan) (own files : List RenderedFile) : Prop where
  /-- No two files have the same path. -/
  distinct : (pathsOf files).Nodup
  /-- A path is relative and goes down only. -/
  relative : ∀ file ∈ files, Path.isAbsolute file.path = false ∧
    .root ∉ Path.parts file.path ∧ .above ∉ Path.parts file.path
  /-- An upload path that stays inside leads to a file. -/
  uploads : ∀ names, p.Uploads names → names.map .name ∈ pathsOf files
  /-- Beyond its own the project has the files that are uploaded, if they are inside and are
  not there yet, in the order in which the tests use them. -/
  fixtures : ∃ fixtures, files = own ++ fixtures ∧
    (∀ names, names.map .name ∈ pathsOf fixtures ↔
      p.Uploads names ∧ names.map .name ∉ pathsOf own) ∧
    pathsOf fixtures =
      ((p.uploadNames.map (List.map .name)).filter (· ∉ pathsOf own)).eraseDups

/-- **The paths of a project are safe and distinct.** -/
theorem Framework.paths_safe {f : Framework} (hf : f ≠ .xctest) (s : RenderSettings)
    (p : Plan) :
    ∃ l, f.layout? = some l ∧
      p.SafelyPlaced (f.supportFiles s p.baseUrl ++ p.groups.map l.file)
        (f.render s p).files := by
  obtain ⟨l, hl⟩ := exists_layout hf
  have hfiles := pathsOf_eq (map_path_files hf s p) (proper_fileNames hf p)
  have hown := pathsOf_eq (map_path_ownFiles hl s p) (proper_ownNames hf p)
  have hfixtures : pathsOf ((f.fixtureNames p).map (fixtureFor <| Path.ofNames ·)) =
      (f.fixtureNames p).map (List.map .name) := by
    refine pathsOf_eq (by rw [List.map_map]; rfl) fun names hnames => ?_
    exact proper_fileNames hf p names (List.mem_append_right _ hnames)
  refine ⟨l, hl, ?_, ?_, ?_, _, files_render hf hl s p, fun names => ?_, ?_⟩
  · rw [hfiles]
    exact (f.nodup_fileNames p).map map_name_injective
  · intro file hfile
    have hpath : file.path ∈ (f.fileNames p).map Path.ofNames :=
      map_path_files hf s p ▸ List.mem_map_of_mem hfile
    obtain ⟨names, hnames, heq⟩ := List.mem_map.mp hpath
    have hproper := proper_fileNames hf p names hnames
    rw [← heq, hproper.isAbsolute_ofNames, Path.parts_ofNames hproper]
    simp
  · intro names hnames
    rw [hfiles, List.mem_map_of_injective map_name_injective]
    by_cases hthere : names ∈ f.ownNames p
    · exact List.mem_append_left _ hthere
    · refine List.mem_append_right _ (mem_fixtureNames_iff.mpr ⟨?_, hthere⟩)
      exact Plan.mem_uploadNames_iff.mpr hnames
  · rw [hfixtures, hown, List.mem_map_of_injective map_name_injective,
      List.mem_map_of_injective map_name_injective, mem_fixtureNames_iff,
      Plan.mem_uploadNames_iff]
  · rw [hfixtures, hown, List.filter_map, eraseDups_map map_name_injective, fixtureNames]
    congr 2
    refine List.filter_congr fun names _ => ?_
    exact decide_eq_decide.mpr (not_congr (List.mem_map_of_injective map_name_injective).symm)

namespace Sample

/-- Two pages with one slug, and uploads from the project and from elsewhere. -/
def uploads : Plan where
  id := ⟨uuid 1000, 1, none⟩
  baseUrl := "/"
  cases := [
    { id := "a", title := "A", coverage := .statement,
      steps := [.goto "/in-box", .upload "label=CV" "./data//cv.pdf",
        .upload "label=CV" "../cv.pdf", .upload "label=CV" "data/cv.pdf"] },
    { id := "b", title := "B", coverage := .statement,
      steps := [.goto "/in_box", .upload "label=CV" "package.json",
        .upload "label=CV" "/etc/hosts", .upload "label=CV" "cv.txt"] }]
  info := ⟨"sdet", 2, ⟨0, 0⟩⟩

end Sample

/-- Only new files from inside the project become fixtures. -/
theorem Framework.new_fixtures_only :
    playwright ≠ .xctest ∧
    (∃ l, playwright.layout? = some l ∧
      Sample.uploads.SafelyPlaced
        (playwright.supportFiles {} Sample.uploads.baseUrl ++ Sample.uploads.groups.map l.file)
        (playwright.render {} Sample.uploads).files) ∧
    (playwright.render {} Sample.uploads).files.map RenderedFile.path =
      ["package.json", "playwright.config.ts", "tests/in-box.spec.ts", "tests/in-box-2.spec.ts",
        "data/cv.pdf", "cv.txt"] :=
  ⟨by decide, paths_safe (by decide) {} Sample.uploads, by decide +kernel⟩

end Testplan
