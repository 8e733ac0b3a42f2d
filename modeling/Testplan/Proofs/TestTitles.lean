import Testplan.Proofs.ScenarioIds
/-!
# The titles of the tests of a page

The scenarios of a page become the tests of one file, which are told apart by their titles.  A
title begins with a letter that tells the pattern (`Origin.head?_title`), and for one page it
tells the detail that the pattern gives (`Origin.title_inj`): the number of a form if the page
has several, the text of a link, or the payload.

So two tests of a page have the same title if their details are the same (`Pattern.Repeats`):
links that are shown with the same text, and probes of several forms, which say the payload but
not the form (`compilePlan_titles_distinct_iff`).
-/
namespace Testplan

/-! ## Titles of one page -/

/-- The first letter of the titles. -/
def Pattern.initial : Pattern → Char
  | pageSmoke => 'P'
  | formHappyPath => 'S'
  | requiredValidation => 'R'
  | fileUpload => 'U'
  | linkNavigation => 'N'
  | labelledFields => 'F'
  | injectionProbe => 'I'

theorem Pattern.initial_inj {p q : Pattern} (h : p.initial = q.initial) : p = q := by
  cases p <;> cases q <;> first | rfl | exact absurd h (by decide)

namespace Origin

variable {o o' : Origin}

theorem head?_title (o : Origin) : o.title.toList.head? = some o.pattern.initial := by
  unfold title
  cases o.pattern <;> simp [String.toList_append] <;> rfl

/-- **For one page the title tells the pattern and the detail.** -/
theorem title_inj (hpage : o.page = o'.page) (h : o.title = o'.title) :
    o.pattern = o'.pattern ∧ o.detail = o'.detail := by
  have hinitial := (head?_title o).symm.trans ((congrArg (·.toList.head?) h).trans (head?_title o'))
  have hpattern := Pattern.initial_inj (Option.some.inj hinitial)
  refine ⟨hpattern, ?_⟩
  unfold title at h
  rw [← hpattern, hpage] at h
  cases hp : o.pattern with
  | pageSmoke | labelledFields => simp [detail, ← hpattern, hp]
  | formHappyPath | requiredValidation | fileUpload | linkNavigation =>
    simpa [hp, String.append_right_inj] using h
  | injectionProbe =>
    simpa [hp, String.append_right_inj, String.append_left_inj] using h

theorem title_eq_iff (hpage : o.page = o'.page) :
    o.title = o'.title ↔ o.pattern = o'.pattern ∧ o.detail = o'.detail := by
  refine ⟨title_inj hpage, ?_⟩
  rintro ⟨hpattern, hdetail⟩
  rw [title, title, hpattern, hpage, hdetail]

end Origin

/-! ## Titles that are repeated -/

namespace Pattern

variable {p : Pattern} {P : DiscoveredPage}

/-- **The pattern repeats a title for the page**: of the links that are followed two are shown
with the same text, or more than one form is probed. -/
def Repeats (p : Pattern) (P : DiscoveredPage) : Prop :=
  match p with
  | linkNavigation => ¬ ((P.links.take followedLinks).map DiscoveredLink.shown).Nodup
  | injectionProbe => 1 < (P.forms.filter injectionProbe.attendsForm).length
  | pageSmoke | formHappyPath | requiredValidation | fileUpload | labelledFields => False

instance (p : Pattern) (P : DiscoveredPage) : Decidable (p.Repeats P) :=
  match p with
  | linkNavigation => inferInstanceAs (Decidable (¬ _))
  | injectionProbe => inferInstanceAs (Decidable (_ < _))
  | pageSmoke | formHappyPath | requiredValidation | fileUpload | labelledFields =>
    inferInstanceAs (Decidable False)

theorem titleSuffix_injective : titleSuffix.Injective := by
  intro n m h
  cases n with
  | none =>
    cases m with
    | none => rfl
    | some j => simp [titleSuffix] at h
  | some i =>
    cases m with
    | none => simp [titleSuffix] at h
    | some j =>
      have hnumber : toString (i + 1) = toString (j + 1) := by
        simpa [titleSuffix, String.append_left_inj, String.append_right_inj] using h
      have hsucc : i + 1 = j + 1 := numberedStem_injective "" (by
        rw [numberedStem, numberedStem, hnumber])
      rw [Nat.succ.inj hsucc]

theorem nodup_titleSuffixes (hp : p.isPerForm) :
    ((p.origins P).map Origin.detail).Nodup := by
  have hdetail (n : Option Nat) : Origin.detail ⟨p, P, n, ""⟩ = titleSuffix n := by
    cases p with
    | formHappyPath | requiredValidation | fileUpload => rfl
    | pageSmoke | linkNavigation | labelledFields | injectionProbe => cases hp
  rw [map_origins _ (suffixes_of_isPerForm hp)]
  simp only [hdetail]
  exact (p.nodup_numbers P).map titleSuffix_injective

theorem details_linkNavigation :
    (linkNavigation.origins P).map Origin.detail =
      (P.links.take followedLinks).map DiscoveredLink.shown := by
  rw [map_origins _ rfl, numbers, List.map_map]
  have hdetail : ∀ l ∈ (P.links.take followedLinks).zipIdx,
      Origin.detail ⟨linkNavigation, P, some l.2, ""⟩ = l.1.shown := by
    rintro ⟨link, i⟩ hl
    simp [Origin.detail, getElem?_of_followed hl]
  have hshown := congrArg (List.map DiscoveredLink.shown)
    (List.zipIdx_map_fst 0 (P.links.take followedLinks))
  rw [List.map_map] at hshown
  exact (List.map_congr_left hdetail).trans hshown

theorem details_injectionProbe :
    (injectionProbe.origins P).map Origin.detail =
      (P.forms.filter injectionProbe.attendsForm).flatMap fun _ => payloads.map Prod.fst := by
  have hforms := congrArg (List.filter injectionProbe.attendsForm) (List.zipIdx_map_fst 0 P.forms)
  rw [List.filter_map] at hforms
  have hdetails (n : Option Nat) :
      (injectionProbe.suffixes.map fun s => Origin.detail ⟨injectionProbe, P, n, s⟩) =
        payloads.map Prod.fst := by simp [suffixes, payloads, Origin.detail]
  rw [origins, numbers, List.map_flatMap, List.flatMap_map, ← hforms, List.flatMap_map]
  refine List.flatMap_congr fun f _ => ?_
  rw [List.map_map]
  exact hdetails (some f.2)

theorem nodup_details_iff (p : Pattern) (P : DiscoveredPage) :
    ((p.origins P).map Origin.detail).Nodup ↔ ¬ p.Repeats P := by
  cases p with
  | pageSmoke => simp [origins, numbers, suffixes, Repeats]
  | formHappyPath | requiredValidation | fileUpload =>
    exact iff_of_true (nodup_titleSuffixes rfl) not_false
  | linkNavigation =>
    rw [details_linkNavigation]
    exact not_not.symm
  | labelledFields =>
    rw [map_origins _ rfl, numbers]
    refine iff_of_true ?_ not_false
    split
    · exact List.nodup_singleton _
    · exact List.nodup_nil
  | injectionProbe =>
    rw [details_injectionProbe, Repeats, not_lt]
    rcases P.forms.filter injectionProbe.attendsForm with _ | ⟨form, _ | ⟨other, rest⟩⟩
    · simp
    · simp [payloads]
    · simp [payloads]

end Pattern

/-! ## The titles of a plan -/

variable {patterns : List Pattern} {d : Discovery} {o o' : Origin}

/-- The page and the title of a scenario. -/
def Origin.heading (o : Origin) : String × String := (urlPath o.page.path, o.title)

theorem Pattern.heading_inj_iff (p : Pattern) (P : DiscoveredPage) :
    (∀ o ∈ p.origins P, ∀ o' ∈ p.origins P, o.heading = o'.heading → o = o') ↔ ¬ p.Repeats P := by
  rw [← p.nodup_details_iff, List.nodup_map_iff_inj_on (p.nodup_origins P)]
  refine forall₂_congr fun o ho => forall₂_congr fun o' ho' => imp_congr_left ?_
  obtain ⟨hpattern, hpage, -⟩ := mem_origins_iff.mp ho
  obtain ⟨hpattern', hpage', -⟩ := mem_origins_iff.mp ho'
  have hsame : o.page = o'.page := hpage.trans hpage'.symm
  rw [Origin.heading, Origin.heading, hsame, Prod.mk.injEq, Origin.title_eq_iff hsame, hpattern,
    hpattern']
  simp

/-- Where pages have different keys, page and title tell the page and the pattern. -/
theorem Origin.eq_of_heading_eq (hkeys : (d.pages.map fun P => urlPath P.path).Nodup)
    (ho : o ∈ origins patterns d) (ho' : o' ∈ origins patterns d) (h : o.heading = o'.heading) :
    o.pattern = o'.pattern ∧ o.page = o'.page := by
  obtain ⟨-, hP, -⟩ := Testplan.mem_origins_iff.mp ho
  obtain ⟨-, hP', -⟩ := Testplan.mem_origins_iff.mp ho'
  obtain ⟨hkey, htitle⟩ := Prod.mk.inj h
  have hpage := List.inj_on_of_nodup_map hkeys hP hP' hkey
  exact ⟨(title_inj hpage htitle).1, hpage⟩

/-- **Titles of pages with different keys** are different exactly if no pattern repeats one. -/
theorem nodup_headings_iff (hpatterns : patterns.Nodup)
    (hkeys : (d.pages.map fun P => urlPath P.path).Nodup) :
    ((origins patterns d).map Origin.heading).Nodup ↔
      ∀ p ∈ patterns, ∀ P ∈ d.pages, ¬ p.Repeats P := by
  have hmem {p : Pattern} (hp : p ∈ patterns) {P : DiscoveredPage} (hP : P ∈ d.pages)
      {o : Origin} (ho : o ∈ p.origins P) : o ∈ origins patterns d :=
    List.mem_flatMap.mpr ⟨p, hp, List.mem_flatMap.mpr ⟨P, hP, ho⟩⟩
  rw [List.nodup_map_iff_inj_on (nodup_origins hpatterns (List.Nodup.of_map _ hkeys))]
  constructor
  · intro hinj p hp P hP
    exact (p.heading_inj_iff P).mp fun o ho o' ho' => hinj o (hmem hp hP ho) o' (hmem hp hP ho')
  · intro hrepeats o ho o' ho' h
    obtain ⟨hpattern, hpage⟩ := Origin.eq_of_heading_eq hkeys ho ho' h
    obtain ⟨hp, hP, hfits⟩ := mem_origins_iff.mp ho
    obtain ⟨-, -, hfits'⟩ := mem_origins_iff.mp ho'
    exact (o.pattern.heading_inj_iff o.page).mpr (hrepeats _ hp _ hP)
      o (Pattern.mem_origins_iff.mpr ⟨rfl, rfl, hfits⟩)
      o' (Pattern.mem_origins_iff.mpr ⟨hpattern.symm, hpage.symm, hfits'⟩) h

/-- Every persona that is always there has each of its patterns once. -/
theorem PatternLibrary.nodup_of_bundle_builtin {persona : String}
    (h : builtin.bundle persona = .ok patterns) : patterns.Nodup := by
  have hall : ∀ e ∈ builtin.bundles.entries, e.2.Nodup := by decide +kernel
  unfold bundle at h
  cases hget : builtin.bundles.get? persona with
  | none =>
    rw [hget] at h
    cases h
  | some found =>
    rw [hget] at h
    cases h
    exact hall _ (Roster.mem_of_get? hget)

/-- Scenarios of the same page have different titles. -/
def Plan.TitlesDistinct (p : Plan) : Prop :=
  p.cases.Pairwise fun s t => s.pageKey = t.pageKey → s.title ≠ t.title

theorem Plan.TitlesDistinct.nodup_group {p : Plan} (h : p.TitlesDistinct) {g : PageGroup}
    (hg : g ∈ p.groups) : (g.cases.map fun c => c.1.title).Nodup := by
  rw [cases_of_mem_groups hg]
  have hsublist : ((onPage p.readable g.key).map Prod.fst).Sublist p.cases :=
    (List.filter_sublist.map Prod.fst).trans p.sieved.sublist
  have hpairs := List.pairwise_map.mp (h.sublist hsublist)
  refine List.pairwise_map.mpr (hpairs.imp_of_mem fun {c c'} hc hc' hne => hne ?_)
  have hkey : ∀ c ∈ onPage p.readable g.key, c.1.pageKey = g.key := fun c hc => by
    simpa using List.of_mem_filter hc
  rw [hkey c hc, hkey c' hc']

/-- **When the tests of a file are told apart by their titles.**  A plan that a persona makes of
pages with different keys has different titles for scenarios of the same page exactly if no
pattern of the persona repeats a title; and then so has the file of each page. -/
theorem compilePlan_titles_distinct_iff (fresh : Uuid) {d : Discovery}
    (hkeys : (d.pages.map fun P => urlPath P.path).Nodup) {env resolved : Environment}
    {process : Variables} (he : env.resolve process = .ok resolved) {persona : String}
    (hb : PatternLibrary.builtin.bundle persona = .ok patterns) (generatedAt : Timestamp) :
    ∃ p, compilePlan fresh d env process persona .builtin generatedAt = .ok p ∧
      (p.TitlesDistinct ↔ ∀ pattern ∈ patterns, ∀ P ∈ d.pages, ¬ pattern.Repeats P) ∧
      (p.TitlesDistinct → ∀ g ∈ p.groups, (g.cases.map fun c => c.1.title).Nodup) := by
  have hcompile : ∃ p, compilePlan fresh d env process persona .builtin generatedAt = .ok p := by
    unfold compilePlan
    rw [hb, he]
    exact ⟨_, rfl⟩
  obtain ⟨p, hp⟩ := hcompile
  have hheadings : p.cases.map (fun s => (s.pageKey, s.title)) =
      (origins patterns d).map Origin.heading := by
    rw [compilePlan_cases hp hb, origins, List.map_flatMap, List.map_flatMap]
    refine List.flatMap_congr fun pattern _ => ?_
    have hlabels := congrArg (List.map fun l : String × String × String => (l.2.2, l.2.1))
      (pattern.map_labels_scenarios d)
    rwa [List.map_map, List.map_map] at hlabels
  refine ⟨p, hp, ?_, fun h g hg => h.nodup_group hg⟩
  rw [← nodup_headings_iff (PatternLibrary.nodup_of_bundle_builtin hb) hkeys, ← hheadings,
    List.Nodup, List.pairwise_map, Plan.TitlesDistinct]
  refine List.Pairwise.iff fun s t => ?_
  simp

/-- The titles of three forms tell the forms of a page that has two of them. -/
theorem compilePlan_titles_of_numbered_forms : ∃ p,
    compilePlan ⟨1⟩ (Sample.threeForms "/b") {} .empty "automation" .builtin ⟨0, 0⟩ = .ok p ∧
    p.TitlesDistinct := by
  have hkeys : ((Sample.threeForms "/b").pages.map fun P => urlPath P.path).Nodup := by decide
  have hresolve : ({} : Environment).resolve .empty = .ok {} := rfl
  have hbundle : PatternLibrary.builtin.bundle "automation" = .ok Sample.automation := rfl
  obtain ⟨p, hp, hdistinct, -⟩ :=
    compilePlan_titles_distinct_iff ⟨1⟩ hkeys hresolve hbundle ⟨0, 0⟩
  exact ⟨p, hp, hdistinct.mpr (by decide)⟩

/-- Probes of the two forms have the same titles. -/
theorem compilePlan_probes_of_two_forms : ∃ p,
    ((Sample.threeForms "/b").pages.map fun P => urlPath P.path).Nodup ∧
    compilePlan ⟨1⟩ (Sample.threeForms "/b") {} .empty "security" .builtin ⟨0, 0⟩ = .ok p ∧
    (p.cases.filter fun s => s.pageKey = "/a").map Scenario.title = ["Page loads: /a",
      "Injection probe (xss) on /a", "Injection probe (sqli) on /a",
      "Injection probe (xss) on /a", "Injection probe (sqli) on /a"] ∧
    ¬ p.TitlesDistinct := by
  refine ⟨_, by decide, rfl, by decide +kernel, ?_⟩
  unfold Plan.TitlesDistinct
  decide +kernel

end Testplan
