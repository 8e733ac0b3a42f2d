import Testplan.ProjectWriting
import Testplan.Proofs.PathNames
import Testplan.Proofs.Records
/-!
# What writing does to a tree of files

Paths are followed and made part by part, so a path that leads to a directory stays a path
to it as long as no directory goes away (`follow?_mono`), and making it again changes nothing
(`makeFrom?_of_follow?`).

Below a directory, making the directories along proper names fails exactly where a file is on
the way (`makeFrom?_names`, `makeFrom?_names_eq_none`).  So a file with proper names is
written below a directory unless a file is on its way or a directory is in its place, and
writing changes nothing but its way and its place (`Written`).
-/
namespace Testplan.FileTree

open Testplan.Path (Part)

/-! ## Places -/

@[simp] theorem node?_nil (t : FileTree) : t.node? [] = some .directory := rfl

theorem node?_eq_get? (t : FileTree) {p : Place} (hp : p ≠ []) : t.node? p = t.nodes.get? p := by
  rw [node?, if_neg (by simpa using hp)]

theorem node?_put (t : FileTree) {p : Place} (hp : p ≠ []) (n : FileNode) (q : Place) :
    (t.put p n).node? q = if q = p then some n else t.node? q := by
  by_cases hq : q = []
  · rw [hq, if_neg (Ne.symm hp), node?_nil, node?_nil]
  · rw [node?_eq_get? _ hq, node?_eq_get? _ hq]
    exact Roster.get?_insert t.nodes p q n

theorem isDirectory_iff {t : FileTree} {p : Place} :
    t.isDirectory p = true ↔ t.node? p = some .directory := by
  simp [isDirectory]

theorem file?_eq_some_iff {t : FileTree} {p : Place} {content : String} :
    t.file? p = some content ↔ t.node? p = some (.file content) := by
  unfold file?
  cases t.node? p with
  | none => simp
  | some n => cases n <;> simp

/-! ## Following and making -/

section Following

variable {t t' : FileTree} {p place : Place}

theorem follow?_append (ps qs : List Part) :
    t.follow? p (ps ++ qs) = (t.follow? p ps).bind (t.follow? · qs) := by
  induction ps generalizing p with
  | nil => rfl
  | cons part ps ih =>
    cases part with
    | root => exact ih
    | here | above | name =>
      simp only [List.cons_append, follow?]
      split
      · exact ih
      · rfl

theorem makeFrom?_append (ps qs : List Part) :
    t.makeFrom? p (ps ++ qs) = (t.makeFrom? p ps).bind fun made => made.1.makeFrom? made.2 qs := by
  induction ps generalizing t p with
  | nil => rfl
  | cons part ps ih =>
    cases part with
    | root | here | above => exact ih
    | name =>
      simp only [List.cons_append, makeFrom?]
      split
      · exact ih
      · rfl
      · exact ih

/-- Paths still lead where they led if all directories are still there. -/
theorem follow?_mono (hkept : ∀ q, t.isDirectory q → t'.isDirectory q) {ps : List Part}
    (h : t.follow? p ps = some place) : t'.follow? p ps = some place := by
  induction ps generalizing p with
  | nil => exact h
  | cons part ps ih =>
    cases part with
    | root => exact ih h
    | here | above | name =>
      rw [follow?] at h ⊢
      split at h
      · next hdir =>
        rw [if_pos (hkept _ hdir)]
        exact ih h
      · cases h

/-- On the way to a directory there are directories. -/
theorem isDirectory_of_follow? {ps : List Part} (hroot : .root ∉ ps)
    (h : t.follow? p ps = some place) (hplace : t.isDirectory place) : t.isDirectory p := by
  cases ps with
  | nil =>
    cases h
    exact hplace
  | cons part ps =>
    cases part with
    | root => exact absurd List.mem_cons_self hroot
    | here | above | name =>
      rw [follow?] at h
      split at h
      · next hdir => exact hdir
      · cases h

/-- A path to a directory can be made, and nothing changes. -/
theorem makeFrom?_of_follow? {ps : List Part} (hroot : .root ∉ ps)
    (h : t.follow? p ps = some place) (hplace : t.isDirectory place) :
    t.makeFrom? p ps = some (t, place) := by
  induction ps generalizing p with
  | nil =>
    cases h
    rfl
  | cons part ps ih =>
    have hrest : .root ∉ ps := fun hmem => hroot (List.mem_cons_of_mem _ hmem)
    cases part with
    | root => exact absurd List.mem_cons_self hroot
    | here | above =>
      rw [follow?] at h
      split at h
      · exact ih hrest h
      · cases h
    | name s =>
      rw [follow?] at h
      split at h
      · have hnext := isDirectory_iff.mp (isDirectory_of_follow? hrest h hplace)
        rw [makeFrom?, hnext]
        exact ih hrest h
      · cases h

end Following

/-! ## Along names -/

/-- On the way from a place along names, beyond the place itself. -/
def OnWay (p : Place) (names : List String) (q : Place) : Prop :=
  ∃ before, before <+: names ∧ before ≠ [] ∧ q = p ++ before

theorem onWay_cons {p : Place} {s : String} {names : List String} {q : Place} :
    OnWay p (s :: names) q ↔ q = p ++ [s] ∨ OnWay (p ++ [s]) names q := by
  constructor
  · rintro ⟨before, hpre, hne, rfl⟩
    obtain ⟨first, rest, rfl⟩ := List.exists_cons_of_ne_nil hne
    obtain ⟨rfl, hrest⟩ := List.cons_prefix_cons.mp hpre
    by_cases hnil : rest = []
    · exact .inl (by rw [hnil])
    · exact .inr ⟨rest, hrest, hnil, by simp⟩
  · rintro (rfl | ⟨rest, hrest, -, rfl⟩)
    · exact ⟨[s], by simp, by simp, rfl⟩
    · exact ⟨s :: rest, List.cons_prefix_cons.mpr ⟨rfl, hrest⟩, by simp, by simp⟩

theorem ne_of_onWay {p q : Place} {names : List String} (h : OnWay p names q) : q ≠ p := by
  obtain ⟨before, -, hne, rfl⟩ := h
  simpa using hne

/-- Along names whose directories are there, the way leads to the place below. -/
theorem follow?_names {t : FileTree} {p : Place} {names : List String}
    (h : ∀ before, before <+: names → before ≠ names → t.isDirectory (p ++ before)) :
    t.follow? p (names.map .name) = some (p ++ names) := by
  induction names generalizing p with
  | nil => simp [follow?]
  | cons s names ih =>
    have hp : t.isDirectory p := by simpa using h [] ⟨_, rfl⟩ (by simp)
    rw [List.map_cons, follow?, if_pos hp, ih, List.append_assoc, List.singleton_append]
    intro before hpre hne
    simpa using h (s :: before) (List.cons_prefix_cons.mpr ⟨rfl, hpre⟩) (by simpa using hne)

/-- **Making the directories along names**, where no file is on the way. -/
theorem makeFrom?_names {t : FileTree} {p : Place} {names : List String}
    (h : ∀ q, OnWay p names q → t.file? q = none) :
    ∃ t', t.makeFrom? p (names.map .name) = some (t', p ++ names) ∧
      (∀ q, OnWay p names q → t'.isDirectory q) ∧
      ∀ q, ¬ OnWay p names q → t'.node? q = t.node? q := by
  induction names generalizing t p with
  | nil =>
    refine ⟨t, by simp [makeFrom?], ?_, fun _ _ => rfl⟩
    rintro q ⟨before, hpre, hne, -⟩
    exact absurd (List.prefix_nil.mp hpre) hne
  | cons s names ih =>
    have hnext : t.file? (p ++ [s]) = none := h _ (onWay_cons.mpr (.inl rfl))
    have hne : p ++ [s] ≠ [] := by simp
    -- the tree from which the rest of the way is made
    have hfrom : ∃ u : FileTree, (t.makeFrom? p ((s :: names).map .name) =
        u.makeFrom? (p ++ [s]) (names.map .name)) ∧
        ∀ q, u.node? q = if q = p ++ [s] then some .directory else t.node? q := by
      rw [List.map_cons, makeFrom?]
      cases hnode : t.node? (p ++ [s]) with
      | none => exact ⟨_, rfl, node?_put t hne .directory⟩
      | some n =>
        cases n with
        | directory =>
          refine ⟨t, rfl, fun q => ?_⟩
          split
          · next hq => rw [hq, hnode]
          · rfl
        | file content =>
          rw [file?_eq_some_iff.mpr hnode] at hnext
          cases hnext
    obtain ⟨u, hmake, hu⟩ := hfrom
    have hfree : ∀ q, OnWay (p ++ [s]) names q → u.file? q = none := by
      intro q hq
      have hsame : u.node? q = t.node? q := by rw [hu, if_neg (ne_of_onWay hq)]
      rw [file?, hsame]
      exact h q (onWay_cons.mpr (.inr hq))
    obtain ⟨t', hmade, hway, hrest⟩ := ih hfree
    refine ⟨t', ?_, fun q hq => ?_, fun q hq => ?_⟩
    · rw [hmake, hmade, List.append_assoc, List.singleton_append]
    · by_cases hbeyond : OnWay (p ++ [s]) names q
      · exact hway q hbeyond
      · obtain rfl := (onWay_cons.mp hq).resolve_right hbeyond
        rw [isDirectory_iff, hrest _ hbeyond, hu, if_pos rfl]
    · obtain ⟨hother, hbeyond⟩ := not_or.mp (mt onWay_cons.mpr hq)
      rw [hrest q hbeyond, hu, if_neg hother]

/-- A file on the way stops the making of directories. -/
theorem makeFrom?_names_eq_none {t : FileTree} {p q : Place} {names : List String}
    (hq : OnWay p names q) (h : (t.file? q).isSome) :
    t.makeFrom? p (names.map .name) = none := by
  induction names generalizing t p with
  | nil =>
    obtain ⟨before, hpre, hne, -⟩ := hq
    exact absurd (List.prefix_nil.mp hpre) hne
  | cons s names ih =>
    rw [List.map_cons, makeFrom?]
    cases hnode : t.node? (p ++ [s]) with
    | none =>
      have hbeyond : OnWay (p ++ [s]) names q := by
        refine (onWay_cons.mp hq).resolve_left ?_
        rintro rfl
        rw [file?, hnode] at h
        cases h
      refine ih hbeyond ?_
      rwa [file?, node?_put t (by simp), if_neg (ne_of_onWay hbeyond)]
    | some n =>
      cases n with
      | directory =>
        refine ih ((onWay_cons.mp hq).resolve_left ?_) h
        rintro rfl
        rw [file?, hnode] at h
        cases h
      | file content => rfl

/-! ## Writing below a directory -/

/-- A path that leads to a directory. -/
structure Rooted (t : FileTree) (cwd : Place) (root : String) (place : Place) : Prop where
  named : root.isEmpty = false
  leads : t.locate? cwd root = some place
  directory : t.isDirectory place

namespace Rooted

variable {t t' : FileTree} {cwd place : Place} {root : String}

theorem mono (h : t.Rooted cwd root place)
    (hkept : ∀ q, t.isDirectory q → t'.isDirectory q) : t'.Rooted cwd root place :=
  ⟨h.named, follow?_mono hkept h.leads, hkept _ h.directory⟩

theorem locate?_join (h : t.Rooted cwd root place) {names : List String}
    (hnames : Path.Proper names) :
    t.locate? cwd (Path.join root (Path.ofNames names)) =
      t.follow? place (names.map .name) := by
  rw [locate?, Path.parts_join h.named hnames, follow?_append, ← locate?, h.leads]
  rfl

theorem makeFrom?_append (h : t.Rooted cwd root place) (ps : List Part) :
    t.makeFrom? cwd (Path.parts root ++ ps) = t.makeFrom? place ps := by
  have hmake : t.makeFrom? cwd (Path.parts root) = some (t, place) := by
    have hleads := h.leads
    rw [locate?] at hleads
    have htail := Path.root_notMem_tail root
    cases hparts : Path.parts root with
    | nil =>
      rw [hparts] at hleads
      exact makeFrom?_of_follow? (by simp) hleads h.directory
    | cons first rest =>
      rw [hparts] at hleads htail
      cases first with
      | root => exact makeFrom?_of_follow? (p := []) htail hleads h.directory
      | here | above | name =>
        exact makeFrom?_of_follow? (by simpa using htail) hleads h.directory
  rw [FileTree.makeFrom?_append, hmake]
  rfl

theorem makeParent?_join (h : t.Rooted cwd root place) {names : List String}
    (hnames : Path.Proper names) :
    ∃ e, t.makeParent? cwd (Path.join root (Path.ofNames names)) =
      match t.makeFrom? place (names.dropLast.map .name) with
      | some made => .ok made.1
      | none => .error e := by
  have hparts := Path.parts_join h.named hnames
  obtain ⟨kept, last, rfl⟩ := (List.eq_nil_or_concat names).resolve_left hnames.ne_nil
  rw [List.concat_eq_append] at hparts hnames ⊢
  rw [List.map_append, ← List.append_assoc, List.map_singleton] at hparts
  have hroot : Path.parts (Path.join root (Path.ofNames (kept ++ [last]))) ≠ [.root] := by
    intro he
    have hlast := congrArg List.getLast? (hparts.symm.trans he)
    simp at hlast
  obtain ⟨q, hq⟩ := Path.exists_parent (by simp [hparts]) hroot
  have hqparts : Path.parts q = Path.parts root ++ kept.map .name := by
    rw [Path.parts_parent hq, hparts, List.dropLast_concat]
  refine ⟨t.directoryError cwd q, ?_⟩
  have hmake : t.makeDirectories? cwd q = (t.makeFrom? place (kept.map .name)).map Prod.fst := by
    rw [makeDirectories?, hqparts, h.makeFrom?_append]
  rw [makeParent?, hq, List.dropLast_concat]
  dsimp only
  rw [hmake]
  cases t.makeFrom? place (kept.map .name) <;> rfl

theorem isFilePath (root : String) {names : List String} (hnames : Path.Proper names) :
    ¬ ((Path.join root (Path.ofNames names)).isEmpty = true ∨
      (Path.join root (Path.ofNames names)).toList.getLast? = some '/') := by
  obtain ⟨c, hc, hlast⟩ := Path.exists_last_join root hnames
  rw [hlast, String.isEmpty_iff]
  rintro (he | he)
  · rw [he] at hlast
    cases hlast
  · exact hc (Option.some.inj he)

theorem write?_join (h : t.Rooted cwd root place) {names : List String}
    (hnames : Path.Proper names) (content : String) :
    t.write? cwd (Path.join root (Path.ofNames names)) content =
      (t.follow? place (names.map .name)).bind fun q =>
        if t.isDirectory q then none else some (t.put q (.file content)) := by
  rw [write?, if_neg (isFilePath root hnames), h.locate?_join hnames]
  rfl

theorem read?_join (h : t.Rooted cwd root place) {names : List String}
    (hnames : Path.Proper names) :
    t.read? cwd (Path.join root (Path.ofNames names)) =
      (t.follow? place (names.map .name)).bind t.file? := by
  rw [read?, if_neg (isFilePath root hnames), h.locate?_join hnames]

end Rooted

end Testplan.FileTree
