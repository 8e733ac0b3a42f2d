import Testplan.Path
import Testplan.Proofs.TextsAndLists
/-!
# Paths that are made of names

A list of **proper** names is written as a path and read back from it
(`Path.parts_ofNames`).  The paths that stay inside a directory are those that consist of
names, but for a dot in front (`Path.contained?_eq_some_iff`).  Joining such a path to a
directory puts its names after the parts of the directory (`Path.parts_join`), and the
parent of a path has its parts without the last (`Path.parts_parent`).
-/
namespace Testplan.Path

/-! ## Segments -/

theorem segments_ne_nil (path : String) : segments path ≠ [] := by
  rw [segments, Text.splitAll_eq_splitOnP, ne_eq, List.map_eq_nil_iff]
  exact List.splitOnP_ne_nil _ _

theorem segments_append_slash (a b : String) :
    segments (a ++ "/" ++ b) = segments a ++ segments b := by
  have hcs : (a ++ "/" ++ b).toList = a.toList ++ '/' :: b.toList := by simp
  simp only [segments, Text.splitAll_eq_splitOnP]
  rw [hcs, List.splitOnP_append_cons _ _ (by decide), List.map_append]

theorem segments_of_notMem {s : String} (h : '/' ∉ s.toList) : segments s = [s] := by
  rw [segments, Text.splitAll_eq_splitOnP, List.splitOnP_eq_singleton]
  · simp
  · intro c hc
    simpa using fun e : c = '/' => h (e ▸ hc)

/-- Texts without slashes are the segments of the path that they make. -/
theorem segments_ofNames {names : List String} (hne : names ≠ [])
    (h : ∀ s ∈ names, '/' ∉ s.toList) : segments (ofNames names) = names := by
  induction names with
  | nil => exact absurd rfl hne
  | cons s rest ih =>
    obtain ⟨hs, hrest⟩ := List.forall_mem_cons.mp h
    cases rest with
    | nil => simpa [ofNames] using segments_of_notMem hs
    | cons t rest =>
      rw [ofNames, String.intercalate_cons_cons, segments_append_slash, segments_of_notMem hs]
      exact congrArg (s :: ·) (ih (List.cons_ne_nil t rest) hrest)

theorem notMem_of_mem_segments {path s : String} (h : s ∈ segments path) :
    '/' ∉ s.toList := by
  obtain ⟨cs, hcs, rfl⟩ := List.mem_map.mp h
  rw [String.toList_ofList]
  exact fun hmem => Text.not_of_mem_splitAll hcs '/' hmem (by decide)

/-- A path is absolute if it has a slash and no text before it. -/
theorem isAbsolute_iff {path : String} :
    isAbsolute path ↔ ∃ s rest, segments path = "" :: s :: rest := by
  unfold isAbsolute segments
  cases path.toList with
  | nil => simp [Text.splitAll]
  | cons c cs =>
    rw [Text.splitAll]
    obtain ⟨piece, rest, hcs⟩ := List.exists_cons_of_ne_nil (Text.splitAll_ne_nil (· = '/') cs)
    by_cases hc : c = '/'
    · simp [hc, hcs]
    · simp [hc, hcs]

/-! ## Parts -/

/-- A name that is a part of paths. -/
structure IsName (s : String) : Prop where
  not_empty : s.isEmpty = false
  not_dot : s ≠ "."
  not_dots : s ≠ ".."
  no_slash : '/' ∉ s.toList

/-- A list of names that leads somewhere. -/
structure Proper (names : List String) : Prop where
  ne_nil : names ≠ []
  isName : ∀ s ∈ names, IsName s

instance (s : String) : Decidable (IsName s) :=
  decidable_of_iff (s.isEmpty = false ∧ s ≠ "." ∧ s ≠ ".." ∧ '/' ∉ s.toList)
    ⟨fun ⟨a, b, c, d⟩ => ⟨a, b, c, d⟩, fun ⟨a, b, c, d⟩ => ⟨a, b, c, d⟩⟩

instance (names : List String) : Decidable (Proper names) :=
  decidable_of_iff (names ≠ [] ∧ ∀ s ∈ names, IsName s)
    ⟨fun ⟨a, b⟩ => ⟨a, b⟩, fun ⟨a, b⟩ => ⟨a, b⟩⟩

/-- What is longer than two dots and has no slash is a name. -/
theorem isName_of_length {s : String} (hlen : 2 < s.length) (h : '/' ∉ s.toList) : IsName s where
  not_empty := by
    rw [Bool.eq_false_iff, ne_eq, String.isEmpty_iff]
    rintro rfl
    exact absurd hlen (by decide)
  not_dot := by
    rintro rfl
    exact absurd hlen (by decide)
  not_dots := by
    rintro rfl
    exact absurd hlen (by decide)
  no_slash := h

theorem partOf?_eq_name_iff {segment s : String} :
    partOf? segment = some (.name s) ↔
      segment = s ∧ s.isEmpty = false ∧ s ≠ "." ∧ s ≠ ".." := by
  unfold partOf?
  split
  · next h =>
    constructor
    · intro e
      cases e
    · rintro ⟨rfl, he, hd, -⟩
      rcases h with h | h
      · exact absurd h (by simp [he])
      · exact absurd h hd
  · next h =>
    obtain ⟨he, hd⟩ := not_or.mp h
    split
    · next hdots =>
      constructor
      · intro e
        cases e
      · rintro ⟨rfl, -, -, hnot⟩
        exact absurd hdots hnot
    · next hdots =>
      constructor
      · intro e
        cases e
        exact ⟨rfl, by simpa using he, hd, hdots⟩
      · rintro ⟨rfl, -⟩
        rfl

theorem isName_of_mem_parts {path s : String} (h : .name s ∈ parts path) : IsName s := by
  have hrest : .name s ∈ (segments path).filterMap partOf? := by
    unfold parts at h
    dsimp only at h
    split at h
    · simpa using h
    · split at h
      · simpa using h
      · exact h
  obtain ⟨segment, hmem, hpart⟩ := List.mem_filterMap.mp hrest
  obtain ⟨rfl, he, hd, hdd⟩ := partOf?_eq_name_iff.mp hpart
  exact ⟨he, hd, hdd, notMem_of_mem_segments hmem⟩

theorem IsName.partOf? {s : String} (h : IsName s) : partOf? s = some (.name s) :=
  partOf?_eq_name_iff.mpr ⟨rfl, h.not_empty, h.not_dot, h.not_dots⟩

theorem filterMap_partOf? {names : List String} (h : ∀ s ∈ names, IsName s) :
    names.filterMap partOf? = names.map .name := by
  rw [← List.filterMap_eq_map]
  exact List.filterMap_congr fun s hs => (h s hs).partOf?

theorem Proper.segments_ofNames {names : List String} (h : Proper names) :
    segments (ofNames names) = names :=
  Path.segments_ofNames h.ne_nil fun s hs => (h.isName s hs).no_slash

theorem Proper.isAbsolute_ofNames {names : List String} (h : Proper names) :
    isAbsolute (ofNames names) = false := by
  rw [Bool.eq_false_iff, ne_eq, isAbsolute_iff, h.segments_ofNames]
  rintro ⟨s, rest, rfl⟩
  exact absurd (h.isName "" List.mem_cons_self).not_empty (by decide)

theorem Proper.head?_ne_dot {names : List String} (h : Proper names) :
    names.head? ≠ some "." := by
  intro hd
  exact (h.isName "." (List.mem_of_head? hd)).not_dot rfl

/-- The path with proper names consists of these names. -/
theorem parts_ofNames {names : List String} (h : Proper names) :
    parts (ofNames names) = names.map .name := by
  rw [parts, h.isAbsolute_ofNames, h.segments_ofNames, filterMap_partOf? h.isName]
  simp [h.head?_ne_dot]

theorem ofNames_inj {a b : List String} (ha : Proper a) (hb : Proper b)
    (h : ofNames a = ofNames b) : a = b := by
  rw [← ha.segments_ofNames, h, hb.segments_ofNames]

/-! ## Paths that stay inside -/

/-- **A path that stays inside**: it goes down along the names, and a dot is all that it may
have beside them.  A path that climbs is not inside, wherever it leads. -/
structure Inside (path : String) (names : List String) : Prop where
  ne_nil : names ≠ []
  parts : (parts path).filter (· ≠ .here) = names.map .name

theorem Inside.proper {path : String} {names : List String} (h : Inside path names) :
    Proper names := by
  refine ⟨h.ne_nil, fun s hs => ?_⟩
  have hmem : Part.name s ∈ (Path.parts path).filter (· ≠ .here) := by
    rw [h.parts]
    exact List.mem_map_of_mem hs
  exact isName_of_mem_parts (List.mem_of_mem_filter hmem)

/-- The name that a part is. -/
def Part.name? : Part → Option String
  | .name s => some s
  | _ => none

theorem contained?_eq (path : String) :
    contained? path =
      if (parts path).any (fun p => p = .root || p = .above) ||
        ((parts path).filterMap Part.name?).isEmpty then none
      else some ((parts path).filterMap Part.name?) := rfl

/-- Parts without the root and without climbing are names and dots. -/
theorem filter_ne_here {ps : List Part}
    (h : ps.any (fun p => p = .root || p = .above) = false) :
    ps.filter (· ≠ .here) = (ps.filterMap Part.name?).map .name := by
  induction ps with
  | nil => rfl
  | cons q ps ih =>
    obtain ⟨hq, hps⟩ := Bool.or_eq_false_iff.mp h
    cases q with
    | name s => simpa [Part.name?] using ih hps
    | here => simpa [List.filterMap_cons, Part.name?] using ih hps
    | root => simp at hq
    | above => simp at hq

theorem name_injective : Function.Injective Part.name := fun _ _ h => by
  cases h
  rfl

/-- The contained paths are those that stay inside. -/
theorem contained?_eq_some_iff {path : String} {names : List String} :
    contained? path = some names ↔ Inside path names := by
  rw [contained?_eq]
  constructor
  · intro h
    split at h
    · cases h
    · next hcond =>
      cases h
      obtain ⟨hany, hempty⟩ := Bool.or_eq_false_iff.mp (Bool.eq_false_iff.mpr hcond)
      exact ⟨by simpa using hempty, filter_ne_here hany⟩
  · intro h
    have hany : (parts path).any (fun p => p = .root || p = .above) = false := by
      rw [List.any_eq_false]
      intro q hq hbad
      have hhere : q ≠ .here := by
        rintro rfl
        simp at hbad
      have hmem : q ∈ (parts path).filter (· ≠ .here) := by simp [hq, hhere]
      rw [h.parts] at hmem
      obtain ⟨s, -, rfl⟩ := List.mem_map.mp hmem
      simp at hbad
    have hnames := name_injective.list_map ((filter_ne_here hany).symm.trans h.parts)
    rw [hnames, hany]
    simp [h.ne_nil]

/-! ## Joining -/

/-- What the parts of a path start with. -/
def lead (path : String) : List Part :=
  if isAbsolute path then [.root]
  else if (segments path).head? = some "." then [.here]
  else []

theorem parts_eq (path : String) :
    parts path = lead path ++ (segments path).filterMap partOf? := by
  unfold parts lead
  dsimp only
  split
  · rfl
  · split <;> rfl

theorem lead_cases (path : String) :
    lead path = [] ∨ lead path = [.root] ∨ lead path = [.here] := by
  unfold lead
  split
  · exact .inr (.inl rfl)
  · split
    · exact .inr (.inr rfl)
    · exact .inl rfl

/-- How a path starts is decided by its first segment. -/
theorem lead_congr {a b : String} (habs : isAbsolute a = isAbsolute b)
    (hhead : (segments a).head? = (segments b).head?) : lead a = lead b := by
  rw [lead, lead, habs, hhead]

theorem isAbsolute_append {a : String} (h : a.isEmpty = false) (b : String) :
    isAbsolute (a ++ b) = isAbsolute a := by
  have hne : a.toList ≠ [] := by simpa using h
  rw [isAbsolute, isAbsolute, String.toList_append, List.head?_append_of_ne_nil _ hne]

/-- Joined to a directory, proper names follow the parts of the directory. -/
theorem parts_join {base : String} {names : List String} (hbase : base.isEmpty = false)
    (h : Proper names) : parts (join base (ofNames names)) = parts base ++ names.map .name := by
  have hcond : ¬ (isAbsolute (ofNames names) = true ∨ base.isEmpty = true) := by
    simp [h.isAbsolute_ofNames, hbase]
  rw [join, if_neg hcond, parts_eq, parts_eq base, List.append_assoc, ← filterMap_partOf? h.isName]
  split
  · next hlast =>
    -- the slash at the end of the directory makes an empty segment, which does not count
    obtain ⟨cs, hcs⟩ := List.getLast?_eq_some_iff.mp hlast
    have hb : base = String.ofList cs ++ "/" ++ "" := by
      rw [← String.toList_inj]
      simpa using hcs
    have hjoin : base ++ ofNames names = String.ofList cs ++ "/" ++ ofNames names := by
      rw [← String.toList_inj]
      simp [hcs]
    have hseg := segments_append_slash (String.ofList cs) (ofNames names)
    have hsegb := segments_append_slash (String.ofList cs) ""
    rw [← hjoin, h.segments_ofNames] at hseg
    rw [← hb] at hsegb
    have hne := segments_ne_nil (String.ofList cs)
    have hlead : lead (base ++ ofNames names) = lead base := by
      refine lead_congr (isAbsolute_append hbase _) ?_
      rw [hseg, hsegb, List.head?_append_of_ne_nil _ hne, List.head?_append_of_ne_nil _ hne]
    have hempty : (segments "").filterMap partOf? = [] := by decide
    rw [hlead, hseg, hsegb, List.filterMap_append, List.filterMap_append, hempty,
      List.append_nil]
  · have hseg := segments_append_slash base (ofNames names)
    rw [h.segments_ofNames] at hseg
    have hlead : lead (base ++ "/" ++ ofNames names) = lead base := by
      refine lead_congr ?_ ?_
      · rw [String.append_assoc]
        exact isAbsolute_append hbase _
      · rw [hseg, List.head?_append_of_ne_nil _ (segments_ne_nil base)]
    rw [hlead, hseg, List.filterMap_append]

/-! ## The parent of a path -/

theorem partOf?_eq_none {s : String} (h : (s.isEmpty || s = ".") = true) : partOf? s = none :=
  if_pos (by simpa using h)

theorem filterMap_dropIdle (reversed : List String) :
    (dropIdle reversed).filterMap partOf? = reversed.filterMap partOf? := by
  induction reversed with
  | nil => rfl
  | cons s rest ih =>
    rw [dropIdle, List.dropWhile_cons]
    split
    · next hs =>
      rw [List.filterMap_cons, partOf?_eq_none hs]
      exact ih
    · rfl

/-- The segments before the last that counts, up to the last that counts among them. -/
def parentSegments (segments : List String) : List String :=
  (dropIdle ((dropIdle segments.reverse).drop 1)).reverse

theorem prefix_parentSegments (segments : List String) : parentSegments segments <+: segments := by
  have hsuffix : dropIdle ((dropIdle segments.reverse).drop 1) <:+ segments.reverse :=
    ((List.dropWhile_suffix _).trans (List.drop_suffix 1 _)).trans (List.dropWhile_suffix _)
  simpa [parentSegments] using List.reverse_prefix.mpr hsuffix

theorem filterMap_parentSegments (segments : List String) :
    (parentSegments segments).filterMap partOf? = (segments.filterMap partOf?).dropLast := by
  have hall : (segments.filterMap partOf?).reverse =
      (dropIdle segments.reverse).filterMap partOf? := by
    rw [filterMap_dropIdle, List.filterMap_reverse]
  rw [parentSegments, List.filterMap_reverse, filterMap_dropIdle, ← List.reverse_inj,
    List.reverse_reverse, ← List.tail_reverse, hall]
  cases h : dropIdle segments.reverse with
  | nil => rfl
  | cons s rest =>
    have hs : (s.isEmpty || s = ".") = false := by
      have hhead := List.head?_dropWhile_not (fun s : String => s.isEmpty || s = ".")
        segments.reverse
      rw [← dropIdle, h] at hhead
      simpa using hhead
    obtain ⟨p, hp⟩ : ∃ p, partOf? s = some p := by
      rw [partOf?, if_neg (by simpa using hs)]
      split <;> exact ⟨_, rfl⟩
    rw [List.filterMap_cons, hp]
    rfl

/-- Where it counts, the parent of a path is written with the segments before the last. -/
theorem parts_parentSegments {path : String}
    (h : 2 ≤ ((segments path).filterMap partOf?).length) :
    parts ("/".intercalate (parentSegments (segments path))) = (parts path).dropLast := by
  have hparts := filterMap_parentSegments (segments path)
  obtain ⟨more, hmore⟩ := prefix_parentSegments (segments path)
  have hne : (segments path).filterMap partOf? ≠ [] := by
    intro he
    rw [he] at h
    exact absurd h (by decide)
  have hkept : (parentSegments (segments path)).filterMap partOf? ≠ [] := by
    rw [hparts]
    intro he
    have hlen := congrArg List.length he
    rw [List.length_dropLast, List.length_nil] at hlen
    omega
  have hkept_ne : parentSegments (segments path) ≠ [] := by
    intro he
    rw [he] at hkept
    exact hkept rfl
  have hseg : segments ("/".intercalate (parentSegments (segments path))) =
      parentSegments (segments path) := by
    refine segments_ofNames hkept_ne fun s hs => ?_
    exact notMem_of_mem_segments ((prefix_parentSegments _).subset hs)
  have hlead : lead ("/".intercalate (parentSegments (segments path))) = lead path := by
    refine lead_congr ?_ ?_
    · rw [Bool.eq_iff_iff, isAbsolute_iff, isAbsolute_iff, hseg]
      constructor
      · rintro ⟨s, rest, he⟩
        rw [he] at hmore
        exact ⟨s, rest ++ more, hmore.symm⟩
      · rintro ⟨s, rest, he⟩
        -- an empty segment alone does not count, so there is another
        cases hk : parentSegments (segments path) with
        | nil => exact absurd hk hkept_ne
        | cons first others =>
          rw [hk, he, List.cons_append] at hmore
          obtain ⟨rfl, -⟩ := List.cons_eq_cons.mp hmore
          cases others with
          | nil =>
            rw [hk] at hkept
            exact absurd (by decide) hkept
          | cons t others => exact ⟨t, others, rfl⟩
    · rw [hseg]
      conv_rhs => rw [← hmore, List.head?_append_of_ne_nil _ hkept_ne]
  rw [parts_eq, parts_eq path, hlead, hseg, hparts, List.dropLast_append_of_ne_nil hne]

/-- The parent of a path has its parts without the last. -/
theorem parts_parent {path q : String} (h : parent? path = some q) :
    parts q = (parts path).dropLast := by
  have hcounted : parts path = lead path ++ (segments path).filterMap partOf? := parts_eq path
  have hempty : parts "" = [] := by decide
  have hroot : parts "/" = [.root] := by decide
  have hhere : parts "." = [.here] := by decide
  unfold parent? at h
  split at h
  · cases h
  · cases h
  · next hp =>
    cases h
    rw [hp, hempty]
    rfl
  · next hp =>
    cases h
    rw [hp, hroot]
    rfl
  · next hp =>
    cases h
    rw [hp, hhere]
    rfl
  · next h0 h1 h2 h3 h4 =>
    -- all shorter lists of parts were met before
    cases h
    refine parts_parentSegments ?_
    rw [hcounted] at h0 h1 h2 h3 h4
    match hrest : (segments path).filterMap partOf? with
    | [] =>
      rw [hrest] at h0 h1 h2
      rcases lead_cases path with hl | hl | hl
      · exact absurd (by rw [hl]; rfl) h0
      · exact absurd (by rw [hl]; rfl) h1
      · exact absurd (by rw [hl]; rfl) (h2 .here)
    | [p] =>
      rw [hrest] at h2 h3 h4
      rcases lead_cases path with hl | hl | hl
      · exact absurd (by rw [hl]; rfl) (h2 p)
      · exact absurd (by rw [hl]; rfl) (h3 p)
      · exact absurd (by rw [hl]; rfl) (h4 p)
    | _ :: _ :: _ => simp

theorem exists_parent {path : String} (hne : parts path ≠ []) (hroot : parts path ≠ [.root]) :
    ∃ q, parent? path = some q := by
  unfold parent?
  split
  · next h => exact absurd h hne
  · next h => exact absurd h hroot
  all_goals exact ⟨_, rfl⟩

theorem root_notMem_tail (path : String) : .root ∉ (parts path).tail := by
  have hrest : .root ∉ (segments path).filterMap partOf? := by
    intro hmem
    obtain ⟨segment, -, hpart⟩ := List.mem_filterMap.mp hmem
    unfold partOf? at hpart
    split at hpart
    · cases hpart
    · split at hpart <;> cases hpart
  rw [parts_eq]
  unfold lead
  split
  · exact hrest
  · split
    · exact hrest
    · exact fun hmem => hrest (List.mem_of_mem_tail hmem)

/-! ## The end of a path -/

/-- A path that ends like a path of names does not end in a slash. -/
theorem exists_last {names : List String} (h : Proper names) :
    ∃ c, c ≠ '/' ∧ (ofNames names).toList.getLast? = some c := by
  obtain ⟨s, rest, rfl⟩ := List.exists_cons_of_ne_nil h.ne_nil
  induction rest generalizing s with
  | nil =>
    have hs := h.isName s List.mem_cons_self
    have hne : s.toList ≠ [] := by simpa using hs.not_empty
    have hc := List.getLast?_eq_some_getLast hne
    refine ⟨s.toList.getLast hne, fun heq => ?_, by simpa [ofNames] using hc⟩
    exact hs.no_slash (heq ▸ List.getLast_mem hne)
  | cons t rest ih =>
    obtain ⟨c, hc, hlast⟩ := ih t
      ⟨List.cons_ne_nil t rest, fun s hs => h.isName s (List.mem_cons_of_mem _ hs)⟩
    refine ⟨c, hc, ?_⟩
    rw [ofNames, String.intercalate_cons_cons, String.toList_append, List.getLast?_append]
    exact Option.or_eq_some_iff.mpr (.inl hlast)

theorem exists_last_join (base : String) {names : List String} (h : Proper names) :
    ∃ c, c ≠ '/' ∧ (join base (ofNames names)).toList.getLast? = some c := by
  obtain ⟨c, hc, hlast⟩ := exists_last h
  refine ⟨c, hc, ?_⟩
  unfold join
  split
  · exact hlast
  · split <;>
    · rw [String.toList_append, List.getLast?_append]
      exact Option.or_eq_some_iff.mpr (.inl hlast)

/-! ## Paths above others -/

/-- The names of a directory above a place. -/
def Above (a b : List String) : Prop := a <+: b ∧ a ≠ b

instance (a b : List String) : Decidable (Above a b) := inferInstanceAs (Decidable (_ ∧ _))

theorem prefix_dropLast_iff {before names : List String} (hne : names ≠ []) :
    before <+: names.dropLast ↔ Above before names := by
  obtain ⟨kept, last, rfl⟩ := (List.eq_nil_or_concat names).resolve_left hne
  rw [List.concat_eq_append, List.dropLast_concat, Above, List.prefix_concat_iff]
  constructor
  · intro h
    refine ⟨.inr h, ?_⟩
    rintro rfl
    exact absurd h.length_le (by simp)
  · exact fun ⟨h, hne⟩ => h.resolve_left hne

end Testplan.Path
