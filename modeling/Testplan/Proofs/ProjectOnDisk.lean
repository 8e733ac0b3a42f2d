import Testplan.Proofs.TreeWriting
/-!
# When a project can be written and read back

Files with proper names are written one after another below an empty directory.  At every
moment the directory holds the files that were written and the directories above them, and
nothing else (`Holds`).  So the next file can be written exactly when none of these files is
above it and it is above none of them (`Holds.fits_iff`), and all can be written exactly when
no file is above another (`writeFiles_run`).

Then the manifest is written, and the files are looked for.  In the end every file can be read
back, and the manifest, exactly when no file has the path of the manifest or is above or below
another, and the path of the directory does not start with a dot (`Rooted.keeps_of_apart`,
`Rooted.apart_of_keeps`).
-/
namespace Testplan

/-- A file with the names that lead to it. -/
structure NamedFile where
  names : List String
  content : String

namespace NamedFile

/-- The file of a rendering. -/
def rendered (d : NamedFile) : RenderedFile := ⟨Path.ofNames d.names, d.content⟩

@[simp] theorem path_rendered (d : NamedFile) : d.rendered.path = Path.ofNames d.names := rfl

@[simp] theorem content_rendered (d : NamedFile) : d.rendered.content = d.content := rfl

/-- No file is above another. -/
def Apart (files : List NamedFile) : Prop :=
  ∀ d ∈ files, ∀ e ∈ files, ¬ Path.Above d.names e.names

/-- A file more is apart from the others, above and below. -/
theorem apart_concat_iff {files : List NamedFile} {d : NamedFile} :
    Apart (files ++ [d]) ↔ Apart files ∧
      ∀ e ∈ files, ¬ Path.Above e.names d.names ∧ ¬ Path.Above d.names e.names := by
  have hself : ¬ Path.Above d.names d.names := fun habove => habove.2 rfl
  simp only [Apart, List.forall_mem_append, List.forall_mem_singleton, hself, not_false_eq_true,
    and_true, forall_and, and_assoc]
  exact and_congr_right fun _ => and_comm

theorem Apart.of_append {files more : List NamedFile} (h : Apart (files ++ more)) :
    Apart files :=
  fun d hd e he => h d (List.mem_append_left _ hd) e (List.mem_append_left _ he)

end NamedFile

namespace FileTree

variable {t t' : FileTree} {cwd place : Place} {root : String}

/-! ## One file -/

/-- **Only one file was written**: it is in its place, with directories on its way. -/
structure Written (t t' : FileTree) (place : Place) (d : NamedFile) : Prop where
  file : t'.node? (place ++ d.names) = some (.file d.content)
  way : ∀ before ≠ [], Path.Above before d.names →
    t'.node? (place ++ before) = some .directory
  rest : ∀ q, ¬ OnWay place d.names q → t'.node? q = t.node? q

/-- No file is on the way along names, and no directory at their end. -/
structure Fits (t : FileTree) (place : Place) (names : List String) : Prop where
  way : ∀ before ≠ [], Path.Above before names → t.file? (place ++ before) = none
  place : t.isDirectory (place ++ names) = false

/-- The directory of a file is made unless a file is on the way. -/
theorem Rooted.makeParent?_way (h : t.Rooted cwd root place) {names : List String}
    (hnames : Path.Proper names)
    (hway : ∀ before ≠ [], Path.Above before names → t.file? (place ++ before) = none) :
    ∃ t', t.makeParent? cwd (Path.join root (Path.ofNames names)) = .ok t' ∧
      t'.Rooted cwd root place ∧
      (∀ before ≠ [], Path.Above before names → t'.node? (place ++ before) = some .directory) ∧
      ∀ q, ¬ OnWay place names.dropLast q → t'.node? q = t.node? q := by
  have hfree : ∀ q, OnWay place names.dropLast q → t.file? q = none := by
    rintro q ⟨before, hpre, hne, rfl⟩
    exact hway before hne ((Path.prefix_dropLast_iff hnames.ne_nil).mp hpre)
  obtain ⟨t', hmade, hdirs, hrest⟩ := makeFrom?_names hfree
  obtain ⟨e, hparent⟩ := h.makeParent?_join hnames
  refine ⟨t', by rw [hparent, hmade], h.mono fun q hq => ?_, fun before hne habove => ?_, hrest⟩
  · by_cases hon : OnWay place names.dropLast q
    · exact hdirs q hon
    · rw [isDirectory_iff, hrest q hon]
      exact isDirectory_iff.mp hq
  · refine isDirectory_iff.mp (hdirs _ ⟨before, ?_, hne, rfl⟩)
    exact (Path.prefix_dropLast_iff hnames.ne_nil).mpr habove

/-- Where the directories of a file are, the file is written in its place. -/
theorem Rooted.write?_way (h : t.Rooted cwd root place) {names : List String}
    (hnames : Path.Proper names)
    (hway : ∀ before ≠ [], Path.Above before names → t.node? (place ++ before) = some .directory)
    (content : String) :
    t.write? cwd (Path.join root (Path.ofNames names)) content =
      if t.isDirectory (place ++ names) then none
      else some (t.put (place ++ names) (.file content)) := by
  have hfollow : t.follow? place (names.map .name) = some (place ++ names) := by
    refine follow?_names fun before hpre hne => ?_
    by_cases hnil : before = []
    · simpa [hnil] using h.directory
    · exact isDirectory_iff.mpr (hway before hnil ⟨hpre, hne⟩)
  rw [h.write?_join hnames, hfollow]
  rfl

theorem Rooted.put_file (h : t.Rooted cwd root place) {q : Place} (hq : q ≠ [])
    (hdir : t.isDirectory q = false) (content : String) :
    (t.put q (.file content)).Rooted cwd root place := by
  refine h.mono fun r hr => ?_
  have hne : r ≠ q := by
    rintro rfl
    rw [hdir] at hr
    cases hr
  rw [isDirectory_iff, node?_put t hq, if_neg hne]
  exact isDirectory_iff.mp hr

/-- A file that is put below its directories is all that changes. -/
theorem written_put {d : NamedFile} (hd : d.names ≠ [])
    (hway : ∀ before ≠ [], Path.Above before d.names →
      t.node? (place ++ before) = some .directory) :
    t.Written (t.put (place ++ d.names) (.file d.content)) place d := by
  have hne : place ++ d.names ≠ [] := by simp [hd]
  refine ⟨?_, fun before hnil habove => ?_, fun q hq => ?_⟩
  · rw [node?_put t hne, if_pos rfl]
  · rw [node?_put t hne, if_neg fun heq => habove.2 (List.append_cancel_left heq)]
    exact hway before hnil habove
  · rw [node?_put t hne, if_neg]
    rintro rfl
    exact hq ⟨d.names, List.prefix_rfl, hd, rfl⟩

theorem writeFiles_cons (t : FileTree) (cwd : Place) (root : String) (d : NamedFile)
    (rest : List RenderedFile) :
    t.writeFiles cwd root (d.rendered :: rest) =
      match t.makeParent? cwd (Path.join root (Path.ofNames d.names)) with
      | .error e => (t, some e)
      | .ok u =>
        match u.write? cwd (Path.join root (Path.ofNames d.names)) d.content with
        | none => (u, some (.file (Path.join root (Path.ofNames d.names))))
        | some u' => u'.writeFiles cwd root rest := by
  -- the equations of the function are not asked for: finding them would follow the path
  delta writeFiles
  rfl

/-- A file that fits is written. -/
theorem Rooted.writeFiles_fits (h : t.Rooted cwd root place) {d : NamedFile}
    (hd : Path.Proper d.names) (hfits : t.Fits place d.names) (rest : List RenderedFile) :
    ∃ t', t.Written t' place d ∧ t'.Rooted cwd root place ∧
      t.writeFiles cwd root (d.rendered :: rest) = t'.writeFiles cwd root rest := by
  obtain ⟨u, hmade, hroot, hway, hrest⟩ := h.makeParent?_way hd hfits.way
  have hne : place ++ d.names ≠ [] := by simp [hd.ne_nil]
  have hend : ¬ OnWay place d.names.dropLast (place ++ d.names) := by
    rintro ⟨before, hpre, -, heq⟩
    have habove := (Path.prefix_dropLast_iff hd.ne_nil).mp hpre
    exact habove.2 (List.append_cancel_left heq).symm
  have hdir : u.isDirectory (place ++ d.names) = false := by
    rw [isDirectory, hrest _ hend]
    exact hfits.place
  have hwrite := hroot.write?_way hd hway d.content
  rw [hdir, if_neg (by simp)] at hwrite
  have hput : u.Written (u.put (place ++ d.names) (.file d.content)) place d :=
    written_put hd.ne_nil hway
  refine ⟨_, ⟨hput.file, hput.way, fun q hq => ?_⟩, hroot.put_file hne hdir d.content,
    by simp only [writeFiles_cons, hmade, hwrite]⟩
  rw [hput.rest q hq, hrest]
  rintro ⟨before, hpre, hnil, rfl⟩
  exact hq ⟨before, ((Path.prefix_dropLast_iff hd.ne_nil).mp hpre).1, hnil, rfl⟩

/-- A file that does not fit is an error. -/
theorem Rooted.writeFiles_not_fits (h : t.Rooted cwd root place) {d : NamedFile}
    (hd : Path.Proper d.names) (hfits : ¬ t.Fits place d.names) (rest : List RenderedFile) :
    (t.writeFiles cwd root (d.rendered :: rest)).2 ≠ none := by
  rw [writeFiles_cons]
  by_cases hway : ∀ before ≠ [], Path.Above before d.names → t.file? (place ++ before) = none
  · -- then a directory is in the place of the file, and stays there
    have hdir : t.isDirectory (place ++ d.names) = true := by
      by_contra hnot
      exact hfits ⟨hway, by simpa using hnot⟩
    obtain ⟨u, hmade, hroot, hmadeWay, hrest⟩ := h.makeParent?_way hd hway
    have hstays : u.isDirectory (place ++ d.names) = true := by
      by_cases hon : OnWay place d.names.dropLast (place ++ d.names)
      · obtain ⟨before, hpre, hnil, heq⟩ := hon
        rw [heq]
        exact isDirectory_iff.mpr
          (hmadeWay before hnil ((Path.prefix_dropLast_iff hd.ne_nil).mp hpre))
      · rw [isDirectory, hrest _ hon]
        exact hdir
    have hwrite := hroot.write?_way hd hmadeWay d.content
    rw [if_pos hstays] at hwrite
    simp only [hmade, hwrite]
    exact Option.some_ne_none _
  · -- then its directory cannot be made
    push Not at hway
    obtain ⟨before, hnil, habove, hfile⟩ := hway
    have hmake : t.makeFrom? place (d.names.dropLast.map .name) = none := by
      refine makeFrom?_names_eq_none (q := place ++ before) ?_ (Option.isSome_iff_ne_none.mpr hfile)
      exact ⟨before, (Path.prefix_dropLast_iff hd.ne_nil).mpr habove, hnil, rfl⟩
    obtain ⟨e, herror⟩ := h.makeParent?_join hd
    rw [hmake] at herror
    simp only [herror]
    exact Option.some_ne_none e

/-! ## One file after another -/

/-- **What a directory holds** after some files were written below it: these files and the
directories above them. -/
structure Holds (t : FileTree) (place : Place) (done : List NamedFile) : Prop where
  file_iff : ∀ d : NamedFile, d.names ≠ [] →
    (t.node? (place ++ d.names) = some (.file d.content) ↔ d ∈ done)
  directory_iff : ∀ names ≠ [],
    t.node? (place ++ names) = some .directory ↔ ∃ d ∈ done, Path.Above names d.names

namespace Holds

variable {done : List NamedFile}

/-- An empty directory holds no files. -/
theorem of_hasEntries (h : t.hasEntries place = false) : t.Holds place [] := by
  have hnone : ∀ names ≠ [], t.node? (place ++ names) = none := by
    intro names hnames
    have hne : place ++ names ≠ [] := by simp [hnames]
    rw [node?_eq_get? t hne]
    cases hget : t.nodes.get? (place ++ names) with
    | none => rfl
    | some n =>
      have hkey := List.any_eq_false.mp h _ (Roster.mem_keys_iff.mpr ⟨n, hget⟩)
      have hlen : 0 < names.length := List.length_pos_of_ne_nil hnames
      simp [hlen] at hkey
  exact ⟨fun d hd => by simp [hnone d.names hd], fun names hnames => by simp [hnone names hnames]⟩

/-- A file fits if it is neither above nor below a file that is there. -/
theorem fits_iff (h : t.Holds place done) (hdone : ∀ d ∈ done, d.names ≠ []) {names : List String}
    (hnames : names ≠ []) :
    t.Fits place names ↔
      ∀ d ∈ done, ¬ Path.Above d.names names ∧ ¬ Path.Above names d.names := by
  constructor
  · intro hfits d hd
    refine ⟨fun habove => ?_, fun habove => ?_⟩
    · have hfile := (h.file_iff d (hdone d hd)).mpr hd
      have hnone := hfits.way d.names (hdone d hd) habove
      rw [file?_eq_some_iff.mpr hfile] at hnone
      cases hnone
    · have hdir := isDirectory_iff.mpr ((h.directory_iff names hnames).mpr ⟨d, hd, habove⟩)
      rw [hfits.place] at hdir
      cases hdir
  · intro hapart
    refine ⟨fun before hne habove => ?_, ?_⟩
    · cases hfile : t.file? (place ++ before) with
      | none => rfl
      | some content =>
        have hd := (h.file_iff ⟨before, content⟩ hne).mp (file?_eq_some_iff.mp hfile)
        exact absurd habove (hapart _ hd).1
    · cases hdir : t.isDirectory (place ++ names) with
      | false => rfl
      | true =>
        obtain ⟨d, hd, habove⟩ := (h.directory_iff names hnames).mp (isDirectory_iff.mp hdir)
        exact absurd habove (hapart d hd).2

/-- A new file that is apart from the others joins them. -/
theorem written {d : NamedFile} (h : t.Holds place done) (hw : t.Written t' place d)
    (hd : d.names ≠ []) (hnew : ∀ e ∈ done, e.names ≠ d.names)
    (hapart : ∀ e ∈ done, ¬ Path.Above e.names d.names ∧ ¬ Path.Above d.names e.names) :
    t'.Holds place (done ++ [d]) := by
  have hother {names : List String} (hnames : names ≠ []) (hne : names ≠ d.names)
      (hnot : ¬ Path.Above names d.names) :
      t'.node? (place ++ names) = t.node? (place ++ names) := by
    refine hw.rest _ ?_
    rintro ⟨before, hpre, -, heq⟩
    obtain rfl := List.append_cancel_left heq
    exact hnot ⟨hpre, hne⟩
  constructor
  · intro e he
    rw [List.mem_append, List.mem_singleton]
    by_cases heq : e.names = d.names
    · rw [heq, hw.file]
      constructor
      · intro hcontent
        obtain ⟨names, content⟩ := e
        cases heq
        cases hcontent
        exact .inr rfl
      · rintro (hmem | rfl)
        · exact absurd heq (hnew e hmem)
        · rfl
    · have hne : e ≠ d := fun h => heq (h ▸ rfl)
      by_cases habove : Path.Above e.names d.names
      · rw [hw.way _ he habove]
        simp only [Option.some.injEq, reduceCtorEq, hne, or_false, false_iff]
        exact fun hmem => (hapart e hmem).1 habove
      · rw [hother he heq habove, h.file_iff e he]
        simp [hne]
  · intro names hnames
    simp only [List.mem_append, List.mem_singleton, or_and_right, exists_or, exists_eq_left]
    by_cases heq : names = d.names
    · rw [heq, hw.file]
      simp only [Option.some.injEq, reduceCtorEq, false_iff, not_or]
      refine ⟨?_, fun habove => habove.2 rfl⟩
      rintro ⟨e, he, habove⟩
      exact (hapart e he).2 habove
    · by_cases habove : Path.Above names d.names
      · simp [hw.way _ hnames habove, habove]
      · rw [hother hnames heq habove, h.directory_iff names hnames]
        simp [habove]

/-- What a directory holds can be read. -/
theorem read?_join (h : t.Holds place done) (hr : t.Rooted cwd root place) {d : NamedFile}
    (hd : d ∈ done) (hnames : Path.Proper d.names) :
    t.read? cwd (Path.join root (Path.ofNames d.names)) = some d.content := by
  have hfollow : t.follow? place (d.names.map .name) = some (place ++ d.names) := by
    refine follow?_names fun before hpre hne => ?_
    by_cases hnil : before = []
    · simpa [hnil] using hr.directory
    · exact isDirectory_iff.mpr ((h.directory_iff before hnil).mpr ⟨d, hd, hpre, hne⟩)
  rw [hr.read?_join hnames, hfollow]
  exact file?_eq_some_iff.mpr ((h.file_iff d hnames.ne_nil).mpr hd)

end Holds

/-- **Files are written one after another exactly as far as they are apart.** -/
theorem writeFiles_run (hr : t.Rooted cwd root place) {done rest : List NamedFile}
    (hproper : ∀ d ∈ done ++ rest, Path.Proper d.names)
    (hnodup : ((done ++ rest).map NamedFile.names).Nodup) (hdone : NamedFile.Apart done)
    (h : t.Holds place done) :
    (NamedFile.Apart (done ++ rest) ∧
      ∃ t', t.writeFiles cwd root (rest.map NamedFile.rendered) = (t', none) ∧
        t'.Rooted cwd root place ∧ t'.Holds place (done ++ rest)) ∨
    (¬ NamedFile.Apart (done ++ rest) ∧
      (t.writeFiles cwd root (rest.map NamedFile.rendered)).2 ≠ none) := by
  induction rest generalizing t done with
  | nil =>
    rw [List.append_nil]
    exact .inl ⟨hdone, t, rfl, hr, h⟩
  | cons d rest ih =>
    obtain ⟨hdoneProper, hrestProper⟩ := List.forall_mem_append.mp hproper
    have hd : Path.Proper d.names := hrestProper d List.mem_cons_self
    have hfits := h.fits_iff (fun e he => (hdoneProper e he).ne_nil) hd.ne_nil
    have hsnoc : done ++ d :: rest = done ++ [d] ++ rest := by simp
    rw [List.map_cons]
    by_cases hfit : t.Fits place d.names
    · have hapart := hfits.mp hfit
      have hnew : ∀ e ∈ done, e.names ≠ d.names := by
        rw [List.map_append, List.nodup_append] at hnodup
        intro e he
        exact hnodup.2.2 e.names (List.mem_map_of_mem he) d.names
          (List.mem_map_of_mem List.mem_cons_self)
      obtain ⟨t', hwritten, hr', hstep⟩ :=
        hr.writeFiles_fits hd hfit (rest.map NamedFile.rendered)
      have hdone' := NamedFile.apart_concat_iff.mpr ⟨hdone, hapart⟩
      rw [hsnoc] at hproper hnodup ⊢
      rw [hstep]
      exact ih hr' hproper hnodup hdone' (h.written hwritten hd.ne_nil hnew hapart)
    · refine .inr ⟨fun hapart => hfit (hfits.mpr ?_), hr.writeFiles_not_fits hd hfit _⟩
      rw [hsnoc] at hapart
      exact (NamedFile.apart_concat_iff.mp hapart.of_append).2

/-- Into an empty directory, files are written exactly if they are apart. -/
theorem writeFiles_empty (hr : t.Rooted cwd root place) {files : List NamedFile}
    (hproper : ∀ d ∈ files, Path.Proper d.names) (hnodup : (files.map NamedFile.names).Nodup)
    (h : t.Holds place []) :
    (NamedFile.Apart files ∧
      ∃ t', t.writeFiles cwd root (files.map NamedFile.rendered) = (t', none) ∧
        t'.Rooted cwd root place ∧ t'.Holds place files) ∨
    (¬ NamedFile.Apart files ∧
      (t.writeFiles cwd root (files.map NamedFile.rendered)).2 ≠ none) := by
  have hproper' : ∀ d ∈ [] ++ files, Path.Proper d.names := hproper
  exact writeFiles_run hr hproper' hnodup (fun d hd => nomatch hd) h

/-! ## The manifest and the look for the files -/

/-- The manifest with its name. -/
def manifestFile (m : Manifest) : NamedFile := ⟨[manifestPath], m.text⟩

@[simp] theorem names_manifestFile (m : Manifest) : (manifestFile m).names = [manifestPath] := rfl

theorem ofNames_manifestPath : Path.ofNames [manifestPath] = manifestPath := rfl

theorem proper_manifestPath : Path.Proper [manifestPath] := by decide

/-- Nothing is above the manifest. -/
theorem not_above_manifest {before : List String} (hne : before ≠ []) :
    ¬ Path.Above before [manifestPath] := by
  rintro ⟨hpre, hnot⟩
  obtain ⟨s, rest, rfl⟩ := List.exists_cons_of_ne_nil hne
  obtain ⟨rfl, hrest⟩ := List.cons_prefix_cons.mp hpre
  exact hnot (by rw [List.prefix_nil.mp hrest])

/-- What is written is listed, unless the path of the directory starts with a dot. -/
theorem Holds.mem_listed {done : List NamedFile} (h : t.Holds place done)
    (hr : t.Rooted cwd root place) (hdot : (Path.parts root).head? ≠ some .here) {d : NamedFile}
    (hd : d ∈ done) (hnames : Path.Proper d.names) :
    Path.parts (Path.ofNames d.names) ∈ t.listed cwd root := by
  have hne : place ++ d.names ≠ [] := by simp [hnames.ne_nil]
  have hget : t.nodes.get? (place ++ d.names) = some (.file d.content) := by
    rw [← node?_eq_get? t hne]
    exact (h.file_iff d hnames.ne_nil).mpr hd
  rw [Path.parts_ofNames hnames, listed, if_neg hdot, hr.leads]
  refine List.mem_map.mpr ⟨(d.names, d.content),
    List.mem_filterMap.mpr ⟨_, Roster.mem_of_get? hget, ?_⟩, rfl⟩
  simp

theorem Holds.missingBelow_eq_nil {done : List NamedFile} (h : t.Holds place done)
    (hr : t.Rooted cwd root place) (hdot : (Path.parts root).head? ≠ some .here)
    (hproper : ∀ d ∈ done, Path.Proper d.names) :
    t.missingBelow cwd root (done.map fun d => Path.ofNames d.names) = [] := by
  rw [missingBelow, List.filter_eq_nil_iff]
  intro path hpath
  obtain ⟨d, hd, rfl⟩ := List.mem_map.mp hpath
  simpa using h.mem_listed hr hdot hd (hproper d hd)

/-- **The project is below the directory**, file by file. -/
structure Keeps (t : FileTree) (cwd : Place) (root : String) (files : List RenderedFile)
    (m : Manifest) : Prop where
  files : ∀ f ∈ files, t.read? cwd (Path.join root f.path) = some f.content
  manifest : t.read? cwd (Path.join root manifestPath) = some m.text

/-- A project is written if its files and the manifest are, and none of them is missed. -/
theorem Rooted.writeProject_eq_none_iff (h : t.Rooted cwd root place) {files : List RenderedFile}
    {m : Manifest} {v : FileTree} :
    t.writeProject cwd root files m = (v, none) ↔
      ∃ u, t.writeFiles cwd root files = (u, none) ∧
        u.write? cwd (Path.join root manifestPath) m.text = some v ∧
        v.missingBelow cwd root (files.map RenderedFile.path ++ [manifestPath]) = [] := by
  have hmake : t.makeDirectories? cwd root = some t := by
    have hroot := h.makeFrom?_append []
    rw [List.append_nil] at hroot
    rw [makeDirectories?, hroot]
    rfl
  unfold writeProject
  simp only [hmake]
  cases hfiles : t.writeFiles cwd root files with
  | mk u error =>
    cases error with
    | some e => simp
    | none =>
      cases hmanifest : u.write? cwd (Path.join root manifestPath) m.text with
      | none => simp [hmanifest]
      | some w => simp +contextual [hmanifest]

/-- The manifest is written unless a file is below its path. -/
theorem Rooted.write?_manifest (h : t.Rooted cwd root place) (m : Manifest) :
    t.write? cwd (Path.join root manifestPath) m.text =
      if t.isDirectory (place ++ [manifestPath]) then none
      else some (t.put (place ++ [manifestPath]) (.file m.text)) :=
  h.write?_way proper_manifestPath (fun _ hne habove => absurd habove (not_above_manifest hne))
    m.text

section Project

variable {files : List NamedFile} {m : Manifest}

/-- Files that are apart from each other and from the manifest are written, and kept. -/
theorem Rooted.keeps_of_apart (hr : t.Rooted cwd root place) (h : t.Holds place [])
    (hdot : (Path.parts root).head? ≠ some .here)
    (hproper : ∀ d ∈ files, Path.Proper d.names)
    (hnodup : ((files ++ [manifestFile m]).map NamedFile.names).Nodup)
    (hapart : NamedFile.Apart (files ++ [manifestFile m])) :
    ∃ v, t.writeProject cwd root (files.map NamedFile.rendered) m = (v, none) ∧
      v.Keeps cwd root (files.map NamedFile.rendered) m := by
  have hm : manifestFile m ∈ files ++ [manifestFile m] := by simp
  have hnodup' : (files.map NamedFile.names).Nodup ∧
      ∀ d ∈ files, d.names ≠ (manifestFile m).names := by
    rw [List.map_append, List.nodup_append] at hnodup
    exact ⟨hnodup.1, fun d hd => hnodup.2.2 _ (List.mem_map_of_mem hd) _ (by simp)⟩
  obtain ⟨hfiles, hlast⟩ := NamedFile.apart_concat_iff.mp hapart
  obtain ⟨-, u, hwrite, hu, hholds⟩ :=
    (writeFiles_empty hr hproper hnodup'.1 h).resolve_right fun hnot => hnot.1 hfiles
  -- the manifest is the last file
  have hfits : u.Fits place (manifestFile m).names :=
    (hholds.fits_iff (fun d hd => (hproper d hd).ne_nil) (by simp [manifestFile])).mpr hlast
  have hmanifest := hu.write?_manifest m
  have hplace : u.isDirectory (place ++ [manifestPath]) = false := hfits.place
  rw [hplace, if_neg (by simp)] at hmanifest
  have hne : place ++ [manifestPath] ≠ [] := by simp
  have hwritten : u.Written (u.put (place ++ [manifestPath]) (.file m.text)) place
      (manifestFile m) :=
    written_put (d := manifestFile m) proper_manifestPath.ne_nil fun before hbefore habove =>
      absurd habove (not_above_manifest hbefore)
  have hv := hu.put_file hne hplace m.text
  have hall := hholds.written hwritten (by simp [manifestFile]) hnodup'.2 hlast
  have hproper' : ∀ d ∈ files ++ [manifestFile m], Path.Proper d.names :=
    List.forall_mem_append.mpr ⟨hproper, fun d hd =>
      List.mem_singleton.mp hd ▸ proper_manifestPath⟩
  have hpaths : (files.map NamedFile.rendered).map RenderedFile.path ++ [manifestPath] =
      (files ++ [manifestFile m]).map fun d => Path.ofNames d.names := by
    rw [List.map_map, List.map_append]
    rfl
  have hmissing := hall.missingBelow_eq_nil hv hdot hproper'
  refine ⟨u.put (place ++ [manifestPath]) (.file m.text), ?_, ⟨?_, ?_⟩⟩
  · exact hr.writeProject_eq_none_iff.mpr ⟨u, hwrite, hmanifest, hpaths ▸ hmissing⟩
  · intro f hf
    obtain ⟨d, hd, rfl⟩ := List.mem_map.mp hf
    rw [NamedFile.path_rendered, NamedFile.content_rendered]
    exact hall.read?_join hv (List.mem_append_left _ hd) (hproper d hd)
  · have hread := hall.read?_join hv hm proper_manifestPath
    rwa [names_manifestFile, ofNames_manifestPath] at hread

/-- What was written and kept was apart: no other file has the path of the manifest, which
would take its place, and every file that is above another one is in the way. -/
theorem Rooted.apart_of_keeps (hr : t.Rooted cwd root place) (h : t.Holds place [])
    (hproper : ∀ d ∈ files, Path.Proper d.names) (hnodup : (files.map NamedFile.names).Nodup)
    (hcontent : ∀ d ∈ files, d.names = [manifestPath] → d.content ≠ m.text) {v : FileTree}
    (hwritten : t.writeProject cwd root (files.map NamedFile.rendered) m = (v, none))
    (hkeeps : v.Keeps cwd root (files.map NamedFile.rendered) m) :
    (Path.parts root).head? ≠ some .here ∧
      ((files ++ [manifestFile m]).map NamedFile.names).Nodup ∧
      NamedFile.Apart (files ++ [manifestFile m]) := by
  obtain ⟨u, hfiles, hmanifest, hmissing⟩ := hr.writeProject_eq_none_iff.mp hwritten
  rcases writeFiles_empty hr hproper hnodup h with
    ⟨hapart, u', hfiles', hu, hholds⟩ | ⟨-, herror⟩
  · cases hfiles.symm.trans hfiles'
    rw [hu.write?_manifest m] at hmanifest
    have hdir : ¬ u.isDirectory (place ++ [manifestPath]) := by
      intro hdir
      rw [if_pos hdir] at hmanifest
      cases hmanifest
    refine ⟨fun hdot => ?_, ?_, ?_⟩
    · -- then the listing is empty, and the manifest is missed
      rw [missingBelow, listed, if_pos hdot] at hmissing
      simp at hmissing
    · rw [List.map_append, List.nodup_append]
      refine ⟨hnodup, by simp, ?_⟩
      rintro _ hnames _ hmanifest rfl
      obtain ⟨d, hd, hd'⟩ := List.mem_map.mp hnames
      have hpath : d.names = [manifestPath] := by
        rw [hd', List.mem_singleton.mp hmanifest]
        rfl
      have hread := hkeeps.files d.rendered (List.mem_map_of_mem hd)
      rw [NamedFile.path_rendered, hpath, ofNames_manifestPath, hkeeps.manifest] at hread
      exact hcontent d hd hpath (Option.some.inj hread).symm
    · refine NamedFile.apart_concat_iff.mpr ⟨hapart, fun e he => ⟨?_, fun habove => ?_⟩⟩
      · exact not_above_manifest (hproper e he).ne_nil
      · refine hdir (isDirectory_iff.mpr ?_)
        exact (hholds.directory_iff _ proper_manifestPath.ne_nil).mpr ⟨e, he, habove⟩
  · rw [hfiles] at herror
    exact absurd rfl herror

end Project

end FileTree

end Testplan
