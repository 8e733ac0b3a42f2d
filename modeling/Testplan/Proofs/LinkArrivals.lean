import Testplan.Proofs.AddressQueries
import Testplan.Proofs.PathNames
/-!
# Where links lead

A browser reads the address of a link against the page on which the link stands
(`arrivalPath`): a fragment or a query stays on the page, a path with a leading slash is taken
as it is, and any other path begins in the directory of the page, with its dots followed.  The
scenario of a link expects the landmark of the page that the link leads to.  It looks this page
up by the address alone, as if every link stood in the root directory.

So the scenario expects the right landmark, whatever pages there are, exactly if the address
**stands alone** (`StandsAlone`): read without the page, it means what it means on the page
(`Pattern.expects_arrival_iff`).
-/
namespace Testplan

/-! ## Reading an address on a page -/

/-- A segment of a path that does not name anything: the directory itself or the one above. -/
def isDots (segment : List Char) : Bool := segment = ['.'] || segment = ['.', '.']

/-- From a directory, given by the names that lead to it, along a segment. -/
def enter (dir : List (List Char)) (segment : List Char) : List (List Char) :=
  if segment = ['.'] then dir
  else if segment = ['.', '.'] then dir.dropLast
  else dir ++ [segment]

/-- Where the segments of a path lead from a directory.  Dots at the end lead to a directory,
which is written with a slash at its end. -/
def arrive (dir segments : List (List Char)) : List (List Char) :=
  let place := segments.foldl enter dir
  if segments.getLast?.any isDots then place ++ [[]] else place

/-- The directory of a page, given by its path with a leading slash. -/
def directory (path : String) : List (List Char) :=
  (path.toList.splitOn '/').tail.dropLast.foldl enter []

/-- **The path that a browser reaches** from a page by a reference: an address without a scheme
and without two slashes in front. -/
def arrivalPath (path href : String) : String :=
  let ref := beforeQuery (Text.trim href.toList)
  if ref = [] then path
  else if ref.head? = some '/' then String.ofList ref
  else String.ofList ('/' :: ['/'].intercalate (arrive (directory path) (ref.splitOn '/')))

/-- References of all sorts on one page. -/
example : ["#top", "?sort=up", "/pricing?a=b", "faq", "./faq/", "..", "../../../start"].map
    (arrivalPath "/shop/cart/items") = ["/shop/cart/items", "/shop/cart/items", "/pricing",
      "/shop/cart/faq", "/shop/cart/faq/", "/shop/", "/start"] := by decide

/-- What can stand in the name of a scheme behind its first letter. -/
def isSchemeChar (c : Char) : Bool := c.isAlphanum || c = '+' || c = '-' || c = '.'

/-- **A reference**: an address without a scheme and without two slashes in front. -/
def isReference (href : String) : Bool :=
  let cs := Text.trim href.toList
  let hasScheme := match Text.cutAtChar ':' cs with
    | some (c :: name, _) => c.isAlpha && name.all isSchemeChar
    | _ => false
  !"//".toList.isPrefixOf cs && !hasScheme

/-! ## Following dots -/

theorem mem_enter {dir : List (List Char)} {segment x : List Char} (h : x ∈ enter dir segment) :
    x ∈ dir ∨ x = segment ∧ isDots segment = false := by
  unfold enter at h
  split at h
  · exact .inl h
  · next hdot =>
    split at h
    · exact .inl ((List.dropLast_sublist dir).subset h)
    · next hdots =>
      rcases List.mem_append.mp h with h | h
      · exact .inl h
      · exact .inr ⟨List.mem_singleton.mp h, by simp [isDots, hdot, hdots]⟩

theorem mem_foldl_enter {segments dir : List (List Char)} {x : List Char}
    (h : x ∈ segments.foldl enter dir) : x ∈ dir ∨ x ∈ segments ∧ isDots x = false := by
  induction segments generalizing dir with
  | nil => exact .inl h
  | cons s rest ih =>
    rcases ih h with h | ⟨h, hx⟩
    · rcases mem_enter h with h | ⟨rfl, hs⟩
      · exact .inl h
      · exact .inr ⟨List.mem_cons_self, hs⟩
    · exact .inr ⟨List.mem_cons_of_mem _ h, hx⟩

/-- Names are entered one by one. -/
theorem foldl_enter_of_names {segments : List (List Char)} (h : ∀ s ∈ segments, isDots s = false)
    (dir : List (List Char)) : segments.foldl enter dir = dir ++ segments := by
  induction segments generalizing dir with
  | nil => simp
  | cons s rest ih =>
    obtain ⟨hs, hrest⟩ := List.forall_mem_cons.mp h
    have hdots : s ≠ ['.'] ∧ s ≠ ['.', '.'] := by simpa [isDots] using hs
    rw [List.foldl_cons, enter, if_neg hdots.1, if_neg hdots.2, ih hrest]
    simp

/-- What is arrived at has no dots left, and nothing that was not there before. -/
theorem mem_arrive {dir segments : List (List Char)} {x : List Char}
    (h : x ∈ arrive dir segments) : x ∈ dir ∨ x ∈ segments ∧ isDots x = false ∨ x = [] := by
  unfold arrive at h
  dsimp only at h
  split at h
  · rcases List.mem_append.mp h with h | h
    · exact (mem_foldl_enter h).imp_right .inl
    · exact .inr (.inr (List.mem_singleton.mp h))
  · exact (mem_foldl_enter h).imp_right .inl

theorem arrive_of_names {segments : List (List Char)} (h : ∀ s ∈ segments, isDots s = false)
    (dir : List (List Char)) : arrive dir segments = dir ++ segments := by
  have hlast : segments.getLast?.any isDots = false := by
    cases hl : segments.getLast? with
    | none => rfl
    | some s => exact h s (List.mem_of_getLast? hl)
  rw [arrive, hlast]
  exact foldl_enter_of_names h dir

theorem arrive_ne_nil {segments : List (List Char)} (hne : segments ≠ [])
    (dir : List (List Char)) : arrive dir segments ≠ [] := by
  obtain ⟨init, last, rfl⟩ := List.eq_nil_or_concat' segments |>.resolve_left hne
  unfold arrive
  dsimp only
  split
  · simp
  · next h =>
    have hdots : last ≠ ['.'] ∧ last ≠ ['.', '.'] := by simpa [isDots] using h
    rw [List.foldl_append, List.foldl_cons, List.foldl_nil, enter, if_neg hdots.1,
      if_neg hdots.2]
    simp

/-- Segments lead to the place that they name from the root exactly if the directory is the root
and there are no dots to follow. -/
theorem arrive_eq_self_iff {dir segments : List (List Char)} (hdir : ∀ s ∈ dir, isDots s = false) :
    arrive dir segments = segments ↔ dir = [] ∧ ∀ s ∈ segments, isDots s = false := by
  constructor
  · intro h
    have hnames : ∀ s ∈ segments, isDots s = false := by
      intro s hs
      rw [← h] at hs
      rcases mem_arrive hs with hs | ⟨-, hs⟩ | rfl
      · exact hdir s hs
      · exact hs
      · rfl
    rw [arrive_of_names hnames] at h
    exact ⟨by simpa using h, hnames⟩
  · rintro ⟨rfl, hnames⟩
    exact arrive_of_names hnames []

theorem not_isDots_of_mem_directory {path : String} :
    ∀ s ∈ directory path, isDots s = false := by
  intro s hs
  rcases mem_foldl_enter hs with hs | ⟨-, hs⟩
  · cases hs
  · exact hs

/-! ## Addresses that stand alone -/

theorem rootedPath_eq (cs : List Char) :
    rootedPath cs =
      if (beforeQuery cs).head? = some '/' then beforeQuery cs else '/' :: beforeQuery cs := by
  unfold rootedPath
  cases h : beforeQuery cs with
  | nil => rfl
  | cons c rest =>
    by_cases hc : c = '/'
    · simp [hc]
    · simp [hc]

/-- **An address stands alone** on a page: read without the page, it means what it means on the
page. -/
inductive StandsAlone (path href : String) : Prop
  /-- The address begins with a slash. -/
  | rooted (plain : Text.cutAt "://".toList (Text.trim href.toList) = none)
      (ref : (beforeQuery (Text.trim href.toList)).head? = some '/')
  /-- The address stays on the page, and the page is the root. -/
  | stay (plain : Text.cutAt "://".toList (Text.trim href.toList) = none)
      (ref : beforeQuery (Text.trim href.toList) = []) (root : path = "/")
  /-- The address leads on from the directory of the page, which is the root, and has no dots. -/
  | onward (plain : Text.cutAt "://".toList (Text.trim href.toList) = none)
      (ref : beforeQuery (Text.trim href.toList) ≠ [])
      (slash : (beforeQuery (Text.trim href.toList)).head? ≠ some '/')
      (root : directory path = [])
      (names : ∀ s ∈ (beforeQuery (Text.trim href.toList)).splitOn '/', isDots s = false)
  /-- Another address occurs in the address, and has the path that is reached. -/
  | nested {parts : List Char × List Char}
      (scheme : Text.cutAt "://".toList (Text.trim href.toList) = some parts)
      (same : urlPath href = arrivalPath path href)

/-- A path that is written segment by segment is read segment by segment. -/
theorem intercalate_arrive_eq_iff {path : String} {ref : List Char} :
    ['/'].intercalate (arrive (directory path) (ref.splitOn '/')) = ref ↔
      directory path = [] ∧ ∀ s ∈ ref.splitOn '/', isDots s = false := by
  rw [← arrive_eq_self_iff not_isDots_of_mem_directory]
  have hslash (cs : List Char) : ∀ s ∈ cs.splitOn '/', '/' ∉ s := by
    intro s hs hmem
    have hsplit : Text.splitAll (· = '/') cs = cs.splitOn '/' := Text.splitAll_eq_splitOnP _ cs
    exact Text.not_of_mem_splitAll (hsplit ▸ hs) '/' hmem (by decide)
  have hne : ref.splitOn '/' ≠ [] := List.splitOn_ne_nil '/' ref
  constructor
  · intro h
    have hread := congrArg (List.splitOn '/') h
    rwa [List.splitOn_intercalate '/' ?_ (arrive_ne_nil hne _)] at hread
    intro s hs
    rcases mem_arrive hs with hs | ⟨hs, -⟩ | rfl
    · rcases mem_foldl_enter hs with hs | ⟨hs, -⟩
      · cases hs
      · exact hslash _ s (List.mem_of_mem_tail ((List.dropLast_sublist _).subset hs))
    · exact hslash _ s hs
    · exact List.not_mem_nil
  · intro h
    rw [h, List.intercalate_splitOn]

section Plain

variable {path href : String}
  (plain : Text.cutAt "://".toList (Text.trim href.toList) = none)
include plain

theorem urlPath_of_rooted (ref : (beforeQuery (Text.trim href.toList)).head? = some '/') :
    urlPath href = arrivalPath path href := by
  have hne : beforeQuery (Text.trim href.toList) ≠ [] := by
    intro hnil
    rw [hnil] at ref
    cases ref
  have harrive : arrivalPath path href = String.ofList (beforeQuery (Text.trim href.toList)) :=
    (if_neg hne).trans (if_pos ref)
  rw [urlPath_of_path plain, rootedPath_eq, if_pos ref, harrive]

theorem urlPath_of_stay_iff (ref : beforeQuery (Text.trim href.toList) = []) :
    urlPath href = arrivalPath path href ↔ path = "/" := by
  have harrive : arrivalPath path href = path := if_pos ref
  rw [urlPath_of_path plain, rootedPath_eq, ref, harrive]
  exact eq_comm

theorem urlPath_of_onward_iff (ref : beforeQuery (Text.trim href.toList) ≠ [])
    (slash : (beforeQuery (Text.trim href.toList)).head? ≠ some '/') :
    urlPath href = arrivalPath path href ↔ directory path = [] ∧
      ∀ s ∈ (beforeQuery (Text.trim href.toList)).splitOn '/', isDots s = false := by
  have harrive : arrivalPath path href = String.ofList ('/' :: ['/'].intercalate
      (arrive (directory path) ((beforeQuery (Text.trim href.toList)).splitOn '/'))) :=
    (if_neg ref).trans (if_neg slash)
  rw [urlPath_of_path plain, rootedPath_eq, if_neg slash, harrive, String.ofList_inj,
    List.cons_inj_right, eq_comm, intercalate_arrive_eq_iff]

end Plain

/-- An address means the same with and without the page exactly if it stands alone. -/
theorem urlPath_eq_arrivalPath_iff {path href : String} :
    urlPath href = arrivalPath path href ↔ StandsAlone path href := by
  constructor
  · intro h
    cases hscheme : Text.cutAt "://".toList (Text.trim href.toList) with
    | some parts => exact .nested hscheme h
    | none =>
      by_cases hstay : beforeQuery (Text.trim href.toList) = []
      · exact .stay hscheme hstay ((urlPath_of_stay_iff hscheme hstay).mp h)
      · by_cases hslash : (beforeQuery (Text.trim href.toList)).head? = some '/'
        · exact .rooted hscheme hslash
        · obtain ⟨hroot, hnames⟩ := (urlPath_of_onward_iff hscheme hstay hslash).mp h
          exact .onward hscheme hstay hslash hroot hnames
  · intro h
    cases h with
    | rooted plain ref => exact urlPath_of_rooted plain ref
    | stay plain ref root => exact (urlPath_of_stay_iff plain ref).mpr root
    | onward plain ref slash root names =>
      exact (urlPath_of_onward_iff plain ref slash).mpr ⟨root, names⟩
    | nested scheme same => exact same

/-! ## The landmark that the scenario of a link expects -/

/-- The first known page with a path. -/
def Discovery.pageAt? (d : Discovery) (path : String) : Option DiscoveredPage :=
  d.pages.find? fun p => urlPath p.path = path

/-- The landmark of the first known page with a path, if it has one. -/
def Discovery.landmarkAt? (d : Discovery) (path : String) : Option String :=
  (d.pageAt? path).bind DiscoveredPage.landmark

/-- **The scenario ends by expecting a text**, or expects none at all. -/
def Scenario.Expects (s : Scenario) : Option String → Prop
  | some t => s.steps.getLast? = some (.expectText t)
  | none => ∀ step ∈ s.steps, step.kind ≠ .expectText

namespace Pattern

variable {d : Discovery} {P : DiscoveredPage} {link : DiscoveredLink} {index : Nat}

theorem kind_followStep (link : DiscoveredLink) : (followStep link).kind ≠ .expectText := by
  unfold followStep
  split <;> nofun

/-- The scenario of a link expects the landmark that is found by the address of the link. -/
theorem expects_linkCase_iff {landmark : Option String} :
    (linkCase d P link index).Expects landmark ↔ d.landmarkAt? (urlPath link.href) = landmark := by
  have hsteps : (linkCase d P link index).steps =
      .goto P.path :: followStep link ::
        ((d.landmarkAt? (urlPath link.href)).map Step.expectText).toList := rfl
  cases landmark with
  | none =>
    rw [Scenario.Expects, hsteps]
    cases d.landmarkAt? (urlPath link.href) with
    | none => simp [kind_followStep, Step.goto]
    | some t => simp [Step.expectText]
  | some t =>
    rw [Scenario.Expects, hsteps]
    cases d.landmarkAt? (urlPath link.href) with
    | none =>
      have hfollow : followStep link ≠ .expectText t := fun h => kind_followStep link (by rw [h]; rfl)
      simp [hfollow]
    | some u => simp [Step.expectText]

/-- An address that does not mean the page it leads to may be the path of another page, with
another landmark. -/
theorem exists_mistaken {path href : String} (hne : urlPath href ≠ path) (P : DiscoveredPage) :
    ∃ d : Discovery, P ∈ d.pages ∧ d.landmarkAt? (urlPath href) ≠ d.landmarkAt? path := by
  obtain ⟨t, hblank, ht⟩ : ∃ t, Text.isBlankText t = false ∧ P.landmark ≠ some t := by
    by_cases hP : P.landmark = some "a"
    · exact ⟨"b", by decide, by simp [hP]⟩
    · exact ⟨"a", by decide, hP⟩
  let Q : DiscoveredPage := { path := href, title := some t }
  refine ⟨{ pages := [Q, P] }, by simp, ?_⟩
  have hfound : Discovery.landmarkAt? { pages := [Q, P] } (urlPath href) = some t := by
    simp [Discovery.landmarkAt?, Discovery.pageAt?, DiscoveredPage.landmark, Q, hblank]
  -- the page that is passed over for the path is the first one
  have hpassed : Discovery.landmarkAt? { pages := [Q, P] } path =
      if urlPath P.path = path then P.landmark else none := by
    have hQ : urlPath Q.path ≠ path := hne
    simp only [Discovery.landmarkAt?, Discovery.pageAt?, List.find?_cons, hQ, decide_false]
    split <;> simp_all
  rw [hfound, hpassed]
  split
  · exact ht.symm
  · nofun

/-- **When the scenario of a link expects the landmark of the page that the link leads to.**  For
known pages this is so exactly if the landmark found by the address is that of the page; and it
is so whatever pages are known exactly if the address stands alone. -/
theorem expects_arrival_iff (hlink : (link, index) ∈ (P.links.take followedLinks).zipIdx) :
    (∀ d : Discovery, P ∈ d.pages → linkCase d P link index ∈ linkNavigation.scenarios d ∧
      ((linkCase d P link index).Expects (d.landmarkAt? (arrivalPath P.path link.href)) ↔
        d.landmarkAt? (urlPath link.href) = d.landmarkAt? (arrivalPath P.path link.href))) ∧
    ((∀ d : Discovery, P ∈ d.pages →
        (linkCase d P link index).Expects (d.landmarkAt? (arrivalPath P.path link.href))) ↔
      StandsAlone P.path link.href) := by
  refine ⟨fun d hP => ⟨?_, expects_linkCase_iff⟩, ?_⟩
  · rw [scenarios, linkScenarios_eq]
    exact List.mem_flatMap.mpr ⟨P, hP, List.mem_map.mpr ⟨(link, index), hlink, rfl⟩⟩
  · rw [← urlPath_eq_arrivalPath_iff]
    constructor
    · intro h
      by_contra hne
      obtain ⟨d, hP, hmistaken⟩ := exists_mistaken hne P
      exact hmistaken (expects_linkCase_iff.mp (h d hP))
    · intro h d _
      rw [expects_linkCase_iff, h]

end Pattern

namespace Sample

/-- A page with a link to one of its own headings and a link to the start page. -/
def pricing : DiscoveredPage where
  path := "/pricing"
  title := some "Pricing"
  links := [{ href := "#plans", text := some "Plans" }, { href := "/", text := some "Start" }]

/-- The application with that page. -/
def pricedShop : Discovery where
  pages := [{ path := "/", title := some "Home" }, pricing]

end Sample

/-- The link to the start page stands alone. -/
theorem Pattern.start_page_expected :
    ({ href := "/", text := some "Start" }, 1) ∈
      (Sample.pricing.links.take followedLinks).zipIdx ∧
    ∀ d : Discovery, Sample.pricing ∈ d.pages →
      (linkCase d Sample.pricing { href := "/", text := some "Start" } 1).Expects
        (d.landmarkAt? "/") := by
  have hlink : ({ href := "/", text := some "Start" }, 1) ∈
      (Sample.pricing.links.take followedLinks).zipIdx := by decide
  exact ⟨hlink, (expects_arrival_iff hlink).2.mpr (.rooted (by decide) (by decide))⟩

/-- A link that stays on the page is taken for a link to the start page. -/
theorem Pattern.fragment_taken_for_start_page :
    isReference "#plans" ∧ arrivalPath "/pricing" "#plans" = "/pricing" ∧
    Sample.pricedShop.landmarkAt? "/pricing" = some "Pricing" ∧
    linkCase Sample.pricedShop Sample.pricing { href := "#plans", text := some "Plans" } 0 ∈
      linkNavigation.scenarios Sample.pricedShop ∧
    (linkCase Sample.pricedShop Sample.pricing { href := "#plans", text := some "Plans" } 0).steps =
      [.goto "/pricing", .click "link=Plans", .expectText "Home"] := by
  refine ⟨by decide, by decide, by decide, ?_, by decide⟩
  exact List.mem_flatMap.mpr ⟨Sample.pricing, by decide, List.mem_cons_self⟩

end Testplan
