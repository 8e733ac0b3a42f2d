import Testplan.Proofs.ProjectOnDisk
import Testplan.Proofs.ProjectPaths
/-!
# Which projects can be written

The files that a project has in any case are never in each other's way
(`Framework.not_above_own`).  Fixtures may be: an upload path only has to be different from
the paths of the other files, so it may be a directory of another file or lead below one, and
it may be the path of the manifest, which is not among the files.

So the project of a plan can be written into an empty directory and read back from it exactly
when the uploads of the plan fit in (`Plan.UploadsFit`) and the path of the directory does not
start with a dot (`Framework.written_intact_iff`).
-/
namespace Testplan

/-! ## The manifest is not a fixture's text -/

theorem Manifest.head?_text (m : Manifest) : m.text.toList.head? = some '\x7b' := by
  simp [text, JsonFile.pretty, JsonFile.prettyAt]

theorem fixtureFor_content (path : String) :
    (fixtureFor path).content = pdfFixture ∨ (fixtureFor path).content = textFixture := by
  rw [fixtureFor]
  split
  · exact .inl rfl
  · exact .inr rfl

theorem fixtureFor_content_ne_text (path : String) (m : Manifest) :
    (fixtureFor path).content ≠ m.text := by
  intro h
  have hhead := m.head?_text
  rw [← h] at hhead
  have hpdf : pdfFixture.toList.head? ≠ some '\x7b' := by
    rw [pdfFixture, ofLines, String.toList_join]
    decide
  have htext : textFixture.toList.head? ≠ some '\x7b' := by
    rw [textFixture]
    decide
  rcases fixtureFor_content path with hc | hc
  · exact hpdf (hc ▸ hhead)
  · exact htext (hc ▸ hhead)

/-! ## The own files of a project are not in each other's way -/

namespace Framework

variable {f : Framework}

/-- The file of a page and one without tests are in different places. -/
theorem not_prefix_testNames (hf : f ≠ .xctest) {names : List String}
    (h : names ∈ f.supportNames ++ [[manifestPath]]) (stem : String) :
    ¬ names <+: f.testNames stem ∧ ¬ f.testNames stem <+: names := by
  -- one directory has both kinds of files, but the name of a page's file has a dot
  have hsupport : stem ++ appium.testSuffix ≠ "support" := by
    intro heq
    have hdot : '.' ∈ "support".toList := by
      rw [← heq]
      simp [testSuffix]
    revert hdot
    decide
  cases f with
  | xctest => exact absurd rfl hf
  | appium =>
    revert names
    simp [supportNames, testNames, testDirectory, manifestPath, List.cons_prefix_cons, hsupport,
      hsupport.symm]
  | _ =>
    revert names
    simp [supportNames, testNames, testDirectory, manifestPath, List.cons_prefix_cons]

theorem not_above_supportNames (f : Framework) :
    ∀ a ∈ f.supportNames ++ [[manifestPath]], ∀ b ∈ f.supportNames ++ [[manifestPath]],
      ¬ Path.Above a b := by
  cases f <;> decide

theorem length_testNames (f : Framework) (stem : String) :
    (f.testNames stem).length = f.testDirectory.length + 1 := by
  simp [testNames]

theorem not_above_own (hf : f ≠ .xctest) (p : Plan) :
    ∀ a ∈ f.ownNames p ++ [[manifestPath]], ∀ b ∈ f.ownNames p ++ [[manifestPath]],
      ¬ Path.Above a b := by
  have hcases : ∀ a ∈ f.ownNames p ++ [[manifestPath]],
      a ∈ f.supportNames ++ [[manifestPath]] ∨ ∃ stem, a = f.testNames stem := by
    intro a ha
    simp only [ownNames, List.mem_append, List.mem_map] at ha ⊢
    rcases ha with (ha | ⟨g, -, rfl⟩) | ha
    · exact .inl (.inl ha)
    · exact .inr ⟨g.stem, rfl⟩
    · exact .inl (.inr ha)
  intro a ha b hb
  rcases hcases a ha with ha | ⟨stem, rfl⟩ <;> rcases hcases b hb with hb | ⟨other, rfl⟩
  · exact f.not_above_supportNames a ha b hb
  · exact fun habove => (not_prefix_testNames hf ha other).1 habove.1
  · exact fun habove => (not_prefix_testNames hf hb stem).2 habove.1
  · intro habove
    exact habove.2 (habove.1.eq_of_length (by rw [length_testNames, length_testNames]))

theorem manifest_notMem_ownNames (hf : f ≠ .xctest) (p : Plan) :
    [manifestPath] ∉ f.ownNames p := by
  intro h
  rcases List.mem_append.mp h with h | h
  · revert h
    cases f <;> decide
  · obtain ⟨g, -, heq⟩ := List.mem_map.mp h
    have hmem : [manifestPath] ∈ f.supportNames ++ [[manifestPath]] := by simp
    exact (not_prefix_testNames hf hmem g.stem).1 (heq.symm ▸ List.prefix_rfl)

end Framework

/-- **Uploads that fit in** among the files that a project has in any case: none leads to the
manifest, and none is above or below the path of another file. -/
structure Plan.UploadsFit (p : Plan) (own : List (List String)) : Prop where
  not_manifest : ¬ p.Uploads [manifestPath]
  apart : ∀ names, p.Uploads names → ∀ other,
    p.Uploads other ∨ other ∈ own ∨ other = [manifestPath] →
      ¬ Path.Above names other ∧ ¬ Path.Above other names

/-- The uploads fit in exactly if no file of the project is above another, and none is the
manifest. -/
theorem Plan.uploadsFit_iff {p : Plan} {f : Framework} (hf : f ≠ .xctest) :
    p.UploadsFit (f.ownNames p) ↔
      (f.fileNames p ++ [[manifestPath]]).Nodup ∧
        ∀ a ∈ f.fileNames p ++ [[manifestPath]], ∀ b ∈ f.fileNames p ++ [[manifestPath]],
          ¬ Path.Above a b := by
  have hmem {names : List String} : names ∈ f.fileNames p ++ [[manifestPath]] ↔
      p.Uploads names ∨ names ∈ f.ownNames p ++ [[manifestPath]] := by
    simp only [Framework.fileNames, List.mem_append, Framework.mem_fixtureNames_iff,
      mem_uploadNames_iff]
    tauto
  constructor
  · intro h
    constructor
    · refine List.nodup_append.mpr ⟨f.nodup_fileNames p, by simp, ?_⟩
      rintro names hnames _ hmanifest rfl
      obtain rfl := List.mem_singleton.mp hmanifest
      rcases List.mem_append.mp hnames with hown | hfixture
      · exact Framework.manifest_notMem_ownNames hf p hown
      · exact h.not_manifest (mem_uploadNames_iff.mp (Framework.mem_fixtureNames_iff.mp hfixture).1)
    · intro a ha b hb
      have hother {names : List String}
          (hnames : p.Uploads names ∨ names ∈ f.ownNames p ++ [[manifestPath]]) :
          p.Uploads names ∨ names ∈ f.ownNames p ∨ names = [manifestPath] := by simpa using hnames
      rcases hmem.mp ha with hua | hoa
      · exact (h.apart a hua b (hother (hmem.mp hb))).1
      · rcases hmem.mp hb with hub | hob
        · exact (h.apart b hub a (hother (.inr hoa))).2
        · exact Framework.not_above_own hf p a hoa b hob
  · rintro ⟨hnodup, hapart⟩
    refine ⟨fun hmanifest => ?_, fun names hnames other hother => ?_⟩
    · have hfile : [manifestPath] ∈ f.fileNames p := by
        refine List.mem_append_right _ (Framework.mem_fixtureNames_iff.mpr ⟨?_, ?_⟩)
        · exact mem_uploadNames_iff.mpr hmanifest
        · exact Framework.manifest_notMem_ownNames hf p
      exact (List.nodup_append.mp hnodup).2.2 _ hfile _ (by simp) rfl
    · have hnames' := hmem.mpr (.inl hnames)
      have hother' : other ∈ f.fileNames p ++ [[manifestPath]] := hmem.mpr (by simpa using hother)
      exact ⟨hapart names hnames' other hother', hapart other hother' names hnames'⟩

/-! ## Written projects -/

/-- Files with paths of names are files given by these names. -/
theorem exists_namedFiles {files : List RenderedFile} {lists : List (List String)}
    (h : files.map RenderedFile.path = lists.map Path.ofNames) :
    ∃ named : List NamedFile, named.map NamedFile.rendered = files ∧
      named.map NamedFile.names = lists := by
  induction files generalizing lists with
  | nil => exact ⟨[], rfl, (List.map_eq_nil_iff.mp h.symm).symm⟩
  | cons file rest ih =>
    cases lists with
    | nil => cases h
    | cons names lists =>
      obtain ⟨hpath, hrest⟩ := List.cons_eq_cons.mp h
      obtain ⟨named, hfiles, hnames⟩ := ih hrest
      refine ⟨⟨names, file.content⟩ :: named, ?_, by rw [List.map_cons, hnames]⟩
      rw [List.map_cons, hfiles, NamedFile.rendered, ← hpath]

/-- Only a fixture can have the path of the manifest. -/
theorem Framework.content_ne_text {f : Framework} (hf : f ≠ .xctest) (s : RenderSettings)
    (p : Plan) {file : RenderedFile} (hfile : file ∈ (f.render s p).files)
    (hpath : file.path = manifestPath) (m : Manifest) : file.content ≠ m.text := by
  obtain ⟨l, hl⟩ := exists_layout hf
  rw [files_render hf hl] at hfile
  rcases List.mem_append.mp hfile with hown | hfixture
  · have hmem : manifestPath ∈ (f.ownNames p).map Path.ofNames := by
      rw [← map_path_ownFiles hl s p, ← hpath]
      exact List.mem_map_of_mem hown
    obtain ⟨names, hnames, heq⟩ := List.mem_map.mp hmem
    have hmanifest : names = [manifestPath] :=
      Path.ofNames_inj (proper_ownNames hf p names hnames) FileTree.proper_manifestPath heq
    exact absurd (hmanifest ▸ hnames) (manifest_notMem_ownNames hf p)
  · obtain ⟨names, -, rfl⟩ := List.mem_map.mp hfixture
    exact fixtureFor_content_ne_text _ m

/-- **A project can be written and read back exactly when its uploads fit in**, and the path of
its directory does not start with a dot. -/
theorem Framework.written_intact_iff {f : Framework} (hf : f ≠ .xctest) (s : RenderSettings)
    (p : Plan) {t : FileTree} {cwd place : Place} {root : String}
    (hroot : t.Rooted cwd root place) (hempty : t.hasEntries place = false) :
    (∃ v, t.writeProject cwd root (f.render s p).files (f.render s p).manifest = (v, none) ∧
      v.Keeps cwd root (f.render s p).files (f.render s p).manifest) ↔
    (Path.parts root).head? ≠ some .here ∧ p.UploadsFit (f.ownNames p) := by
  obtain ⟨named, hfiles, hnames⟩ := exists_namedFiles (map_path_files hf s p)
  have hproper : ∀ d ∈ named, Path.Proper d.names := fun d hd =>
    proper_fileNames hf p d.names (hnames ▸ List.mem_map_of_mem hd)
  have hnodup : (named.map NamedFile.names).Nodup := hnames ▸ f.nodup_fileNames p
  have hall (m : Manifest) : (named ++ [FileTree.manifestFile m]).map NamedFile.names =
      f.fileNames p ++ [[manifestPath]] := by
    rw [List.map_append, hnames]
    rfl
  have hapart (m : Manifest) : NamedFile.Apart (named ++ [FileTree.manifestFile m]) ↔
      ∀ a ∈ f.fileNames p ++ [[manifestPath]], ∀ b ∈ f.fileNames p ++ [[manifestPath]],
        ¬ Path.Above a b := by
    simp only [NamedFile.Apart, ← hall m, List.forall_mem_map]
  have hholds := FileTree.Holds.of_hasEntries hempty
  rw [Plan.uploadsFit_iff hf, ← hfiles]
  constructor
  · rintro ⟨v, hwritten, hkeeps⟩
    have hcontent : ∀ d ∈ named, d.names = [manifestPath] →
        d.content ≠ (f.render s p).manifest.text := by
      intro d hd hpath
      have hfile : d.rendered ∈ (f.render s p).files := hfiles ▸ List.mem_map_of_mem hd
      exact content_ne_text hf s p hfile (by rw [NamedFile.path_rendered, hpath]; rfl) _
    have h := hroot.apart_of_keeps hholds hproper hnodup hcontent hwritten hkeeps
    rwa [hall, hapart] at h
  · rintro ⟨hdot, hnodup', hap⟩
    rw [← hall (f.render s p).manifest] at hnodup'
    exact hroot.keeps_of_apart hholds hdot hproper hnodup' ((hapart _).mpr hap)

namespace Sample

/-- A tree with one directory, which is empty. -/
def outTree : FileTree := FileTree.empty.put ["out"] .directory

theorem rooted_outTree : outTree.Rooted [] "out" ["out"] :=
  ⟨by decide, by decide +kernel, by decide⟩

/-- A plan with one scenario, which uploads a file. -/
def uploading (path : String) : Plan where
  id := ⟨uuid 1000, 1, none⟩
  baseUrl := "/"
  cases := [
    { id := "a", title := "A", coverage := .statement,
      steps := [.goto "/", .upload "label=CV" path] }]
  info := ⟨"sdet", 1, ⟨0, 0⟩⟩

/-- The project of the plan. -/
def project (path : String) : Rendering := Framework.playwright.render {} (uploading path)

end Sample

/-- A file that is uploaded from a directory of its own fits in, so the project is written. -/
theorem Framework.upload_fits_in :
    playwright ≠ .xctest ∧ Sample.outTree.Rooted [] "out" ["out"] ∧
    Sample.outTree.hasEntries ["out"] = false ∧
    ∃ v, Sample.outTree.writeProject [] "out" (Sample.project "data/cv.pdf").files
        (Sample.project "data/cv.pdf").manifest = (v, none) ∧
      v.Keeps [] "out" (Sample.project "data/cv.pdf").files
        (Sample.project "data/cv.pdf").manifest := by
  refine ⟨by decide, Sample.rooted_outTree, by decide, ?_⟩
  have huploads : (Sample.uploading "data/cv.pdf").uploadNames = [["data", "cv.pdf"]] := by
    decide +kernel
  have hown : playwright.ownNames (Sample.uploading "data/cv.pdf") =
      [["package.json"], ["playwright.config.ts"], ["tests", "root.spec.ts"]] := by
    decide +kernel
  refine (written_intact_iff (f := .playwright) (by decide) {} _ Sample.rooted_outTree
    (by decide)).mpr ⟨by decide, ?_, ?_⟩
  · rw [← Plan.mem_uploadNames_iff, huploads]
    decide
  · simp only [← Plan.mem_uploadNames_iff, huploads, hown, List.mem_singleton, forall_eq]
    rintro other (rfl | hother | rfl)
    · decide
    · revert other
      decide
    · decide

namespace Sample

/-- What comes of writing the project of a plan that uploads a file. -/
def written (root path : String) : FileTree × Option WriteError :=
  outTree.writeProject [] root (project path).files (project path).manifest

end Sample

/-- **An upload can be in the way.**  One called like the directory of the test files stops the
writing; one called like the manifest is replaced by it, and nothing is reported.  Below a
directory that is given with a dot, all files are written and reported as missing. -/
theorem Framework.upload_in_the_way :
    (Sample.written "out" "tests").2 = some (.file "out/tests") ∧
    (Sample.written "out" "manifest.json").2 = none ∧
    ¬ (Sample.written "out" "manifest.json").1.Keeps [] "out"
      (Sample.project "manifest.json").files (Sample.project "manifest.json").manifest ∧
    (Sample.written "./out" "data/cv.pdf").2 ≠ none := by
  refine ⟨by decide +kernel, by decide +kernel, fun h => ?_, by decide +kernel⟩
  have hread := h.files (fixtureFor "manifest.json") (by decide +kernel)
  revert hread
  decide +kernel

end Testplan
