import Testplan.Proofs.CompiledPlans
import Testplan.Proofs.HealedPages
/-!
# Addresses with a query

A page is known by the path of its address, whatever query or fragment follows.  The path is
looked for in the whole text, though, and only then cut off at the query: if the address has no
scheme, then an address inside the query is taken for it, and if it ends with the host, then the
path begins at the first slash of the query.

So a query leaves the path alone (`LeavesPath`) if the path of the address begins before it, or
if there is nothing in the query that a path could begin with, or if the path found in the query
is the same by chance.  Then, and only then, the page of a scenario, the groups of a plan and the
look-up of a page are the same with the query as without it (`samePage_iff`).
-/
namespace Testplan

/-! ## The path of an address -/

@[simp] theorem beforeQuery_nil : beforeQuery [] = [] := rfl

theorem rootedPath_slash (rest : List Char) :
    rootedPath ('/' :: rest) = '/' :: beforeQuery rest := by
  simp [rootedPath, beforeQuery]

/-- Without a scheme, an address is a path. -/
theorem urlPath_of_path {url : String}
    (h : Text.cutAt "://".toList (Text.trim url.toList) = none) :
    urlPath url = String.ofList (rootedPath (Text.trim url.toList)) := by
  unfold urlPath
  dsimp only
  rw [h]

/-- With a scheme, the path begins at the first slash behind it. -/
theorem urlPath_of_scheme {url : String} {before after : List Char}
    (h : Text.cutAt "://".toList (Text.trim url.toList) = some (before, after)) :
    urlPath url =
      String.ofList ('/' :: beforeQuery ((after.dropWhile (· ≠ '/')).drop 1)) := by
  unfold urlPath
  dsimp only
  rw [h]
  dsimp only
  by_cases hslash : '/' ∈ after
  · obtain ⟨rest, hrest, -⟩ := Text.dropWhile_ne_of_mem hslash
    rw [hrest]
    exact congrArg String.ofList (rootedPath_slash rest)
  · rw [Text.dropWhile_ne_of_notMem hslash]
    rfl

/-! ## Addresses and what may follow them -/

/-- **An address without query and fragment**, and without blanks at its ends. -/
structure IsBareAddress (u : String) : Prop where
  stripped : Text.strip u = u
  unmarked : ∀ c ∈ u.toList, c ≠ '?' ∧ c ≠ '#'

instance (u : String) : Decidable (IsBareAddress u) :=
  decidable_of_iff (Text.strip u = u ∧ u.toList.all fun c => c ≠ '?' && c ≠ '#')
    ⟨fun ⟨hstripped, h⟩ => ⟨hstripped, by simpa using h⟩,
      fun ⟨hstripped, h⟩ => ⟨hstripped, by simpa using h⟩⟩

/-- **What may follow an address**: nothing, or a query or a fragment without a blank at the
end. -/
def IsQuery (s : String) : Prop :=
  s = "" ∨ (s.toList.head? = some '?' ∨ s.toList.head? = some '#') ∧ Text.strip s = s

instance (s : String) : Decidable (IsQuery s) := inferInstanceAs (Decidable (_ ∨ _))

/-- **The query leaves the path alone.** -/
inductive LeavesPath (u s : String) : Prop
  /-- The path begins in the address, behind its scheme and host. -/
  | hosted {before after : List Char}
      (scheme : Text.cutAt "://".toList u.toList = some (before, after)) (path : '/' ∈ after)
  /-- The address ends with the host, and what the first slash of the query begins is the
  root. -/
  | root {before after : List Char}
      (scheme : Text.cutAt "://".toList u.toList = some (before, after)) (path : '/' ∉ after)
      (query : beforeQuery ((s.toList.dropWhile (· ≠ '/')).drop 1) = [])
  /-- The address is a path, and there is no address in the query. -/
  | path (plain : Text.cutAt "://".toList u.toList = none)
      (query : Text.contains s "://" = false)
  /-- The address is a path, and it is that of the address in the query. -/
  | same (plain : Text.cutAt "://".toList u.toList = none)
      (query : Text.contains s "://" = true) (path : urlPath s = urlPath u)

theorem beforeQuery_eq_nil {s : String} (hs : IsQuery s) : beforeQuery s.toList = [] := by
  rcases hs with rfl | ⟨hmark | hmark, -⟩
  · rfl
  all_goals
    obtain ⟨rest, hrest⟩ := List.head?_eq_some_iff.mp hmark
    rw [hrest]
    rfl

/-- A text without marks is cut off where the query begins. -/
theorem beforeQuery_append {cs more : List Char} (hcs : ∀ c ∈ cs, c ≠ '?' ∧ c ≠ '#')
    (hmore : beforeQuery more = []) : beforeQuery (cs ++ more) = cs := by
  have hall : ∀ c ∈ cs, (decide (c ≠ '?') && decide (c ≠ '#')) = true := by
    intro c hc
    simpa using hcs c hc
  rw [beforeQuery, List.takeWhile_append_of_pos hall, ← beforeQuery, hmore, List.append_nil]

theorem beforeQuery_of_unmarked {cs : List Char} (hcs : ∀ c ∈ cs, c ≠ '?' ∧ c ≠ '#') :
    beforeQuery cs = cs := by
  simpa using beforeQuery_append hcs beforeQuery_nil

/-- The scheme is looked for in the address, and only then in the query. -/
theorem cutAt_scheme_append {s : String} (hs : IsQuery s) (cs : List Char) :
    Text.cutAt "://".toList (cs ++ s.toList) =
      match Text.cutAt "://".toList cs with
      | some (before, after) => some (before, after ++ s.toList)
      | none => (Text.cutAt "://".toList s.toList).map fun (before, after) =>
        (cs ++ before, after) := by
  rcases hs with rfl | ⟨hmark, -⟩
  · cases hcut : Text.cutAt "://".toList cs with
    | none => simpa [Text.cutAt, Text.dropPiece?] using hcut
    | some parts => simpa using hcut
  · rcases hmark with hmark | hmark
    all_goals
      obtain ⟨rest, hrest⟩ := List.head?_eq_some_iff.mp hmark
      rw [hrest]
      exact Text.cutAt_barrier (by decide) (by decide) cs rest

theorem IsQuery.trim {s : String} (h : IsQuery s) : Text.trim s.toList = s.toList := by
  rcases h with rfl | ⟨-, h⟩
  · rfl
  · exact Text.trim_of_strip h

section Append

variable {u s : String} (hu : IsBareAddress u) (hs : IsQuery s)
include hu hs

/-- An address and its query have no blanks at their ends. -/
theorem IsBareAddress.trim_append : Text.trim (u ++ s).toList = u.toList ++ s.toList := by
  have hutrim := Text.trim_of_strip hu.stripped
  rw [String.toList_append]
  by_cases hune : u.toList = []
  · rw [hune, List.nil_append, hs.trim]
  · rcases hs with rfl | ⟨hmark, hs⟩
    · rw [String.toList_empty, List.append_nil, hutrim]
    · refine Text.trim_append hutrim (Text.trim_of_strip hs) hune fun hnil => ?_
      rw [hnil] at hmark
      simp at hmark

/-! ### Addresses with a scheme -/

section Scheme

variable {before after : List Char}
  (scheme : Text.cutAt "://".toList u.toList = some (before, after))
include scheme

theorem urlPath_of_scheme_append :
    urlPath (u ++ s) =
      String.ofList ('/' :: beforeQuery (((after ++ s.toList).dropWhile (· ≠ '/')).drop 1)) := by
  have hcut := cutAt_scheme_append hs u.toList
  rw [← hu.trim_append hs, scheme] at hcut
  exact urlPath_of_scheme hcut

theorem urlPath_append_of_hosted (path : '/' ∈ after) : urlPath (u ++ s) = urlPath u := by
  have htrim := Text.trim_of_strip hu.stripped
  obtain ⟨rest, hrest, hsub⟩ := Text.dropWhile_ne_of_mem path
  have hplain : ∀ c ∈ rest, c ≠ '?' ∧ c ≠ '#' := by
    intro c hc
    refine hu.unmarked c ?_
    rw [Text.eq_append_of_cutAt scheme]
    simp [hsub hc]
  rw [urlPath_of_scheme_append hu hs scheme, urlPath_of_scheme (htrim.symm ▸ scheme),
    List.dropWhile_append, hrest]
  simp [beforeQuery_append hplain (beforeQuery_eq_nil hs), beforeQuery_of_unmarked hplain]

theorem urlPath_append_iff_of_root (path : '/' ∉ after) :
    urlPath (u ++ s) = urlPath u ↔
      beforeQuery ((s.toList.dropWhile (· ≠ '/')).drop 1) = [] := by
  have htrim := Text.trim_of_strip hu.stripped
  rw [urlPath_of_scheme_append hu hs scheme, urlPath_of_scheme (htrim.symm ▸ scheme),
    List.dropWhile_append, Text.dropWhile_ne_of_notMem path]
  simp only [List.isEmpty_nil, if_true, List.drop_nil, beforeQuery_nil, String.ofList_inj,
    List.cons.injEq, true_and]

end Scheme

/-! ### Paths -/

section Plain

variable (plain : Text.cutAt "://".toList u.toList = none)
include plain

theorem urlPath_append_of_plain (query : Text.contains s "://" = false) :
    urlPath (u ++ s) = urlPath u := by
  have htrim := Text.trim_of_strip hu.stripped
  have hinner : Text.cutAt "://".toList s.toList = none := by
    simpa [Text.contains_eq] using query
  have hcut := cutAt_scheme_append hs u.toList
  rw [← hu.trim_append hs, plain, hinner] at hcut
  rw [urlPath_of_path hcut, urlPath_of_path (htrim.symm ▸ plain), hu.trim_append hs, htrim,
    rootedPath, rootedPath, beforeQuery_append hu.unmarked (beforeQuery_eq_nil hs),
    beforeQuery_of_unmarked hu.unmarked]

/-- The address in the query is taken for the address. -/
theorem urlPath_append_of_nested (query : Text.contains s "://" = true) :
    urlPath (u ++ s) = urlPath s := by
  obtain ⟨⟨before, after⟩, hinner⟩ := Option.isSome_iff_exists.mp (Text.contains_eq .. ▸ query)
  have hcut := cutAt_scheme_append hs u.toList
  rw [← hu.trim_append hs, plain, hinner] at hcut
  rw [urlPath_of_scheme hcut, ← urlPath_of_scheme (hs.trim.symm ▸ hinner)]

end Plain

/-- The path with the query is the path without it exactly if the query leaves the path alone. -/
theorem urlPath_append_iff : urlPath (u ++ s) = urlPath u ↔ LeavesPath u s := by
  constructor
  · intro h
    cases hscheme : Text.cutAt "://".toList u.toList with
    | some parts =>
      by_cases hpath : '/' ∈ parts.2
      · exact .hosted hscheme hpath
      · exact .root hscheme hpath ((urlPath_append_iff_of_root hu hs hscheme hpath).mp h)
    | none =>
      cases hquery : Text.contains s "://" with
      | false => exact .path hscheme hquery
      | true =>
        exact .same hscheme hquery ((urlPath_append_of_nested hu hs hscheme hquery).symm.trans h)
  · intro h
    cases h with
    | hosted scheme path => exact urlPath_append_of_hosted hu hs scheme path
    | root scheme path query => exact (urlPath_append_iff_of_root hu hs scheme path).mpr query
    | path plain query => exact urlPath_append_of_plain hu hs plain query
    | same plain query path => exact (urlPath_append_of_nested hu hs plain query).trans path

end Append

/-! ## Scenarios that first visit an address -/

/-- Steps with another address for the first visit. -/
def visitFirst (url : String) : List Step → List Step
  | [] => []
  | step :: rest =>
    if step.kind = .goto then { step with target := some url } :: rest
    else step :: visitFirst url rest

theorem find?_visitFirst (url : String) (steps : List Step) :
    (visitFirst url steps).find? (fun step => step.kind = .goto) =
      (steps.find? fun step => step.kind = .goto).map fun step =>
        { step with target := some url } := by
  induction steps with
  | nil => rfl
  | cons step rest ih =>
    rw [visitFirst]
    by_cases hk : step.kind = .goto
    · simp [hk]
    · simp [hk, ih]

/-- Another visit succeeds where the one did, unless the one address is blank and the other is
not. -/
theorem reads_visitFirst_iff {url other : String}
    (h : Text.isBlankText url = Text.isBlankText other) (steps : List Step) :
    (∀ step ∈ visitFirst url steps, ∃ a, step.action = .ok a) ↔
      ∀ step ∈ visitFirst other steps, ∃ a, step.action = .ok a := by
  have hvisit (step : Step) (hk : step.kind = .goto) (url : String) :
      ({ step with target := some url } : Step).action = (Step.goto url).action := by
    obtain ⟨kind, target, value, note⟩ := step
    cases hk
    rfl
  induction steps with
  | nil => rfl
  | cons step rest ih =>
    rw [visitFirst, visitFirst]
    by_cases hk : step.kind = .goto
    · rw [if_pos hk, if_pos hk, List.forall_mem_cons, List.forall_mem_cons, hvisit step hk,
        hvisit step hk, Step.action_goto, Step.action_goto, h]
      cases Text.isBlankText other <;> simp
    · rw [if_neg hk, if_neg hk, List.forall_mem_cons, List.forall_mem_cons]
      exact and_congr_right fun _ => ih

namespace Scenario

/-- The scenario with another address for its first visit. -/
def visiting (x : Scenario) (url : String) : Scenario :=
  { x with steps := visitFirst url x.steps }

theorem pageKey_visiting (x : Scenario) (url : String) :
    (x.visiting url).pageKey =
      if (x.steps.find? fun step => step.kind = .goto).isSome then urlPath url else "/" := by
  unfold pageKey visiting
  rw [find?_visitFirst]
  cases x.steps.find? fun step => step.kind = .goto <;> rfl

/-- A scenario can be read if each of its steps has an action. -/
theorem exists_reads_iff (x : Scenario) :
    (∃ actions, x.Reads actions) ↔ ∀ step ∈ x.steps, ∃ a, step.action = .ok a := by
  constructor
  · rintro ⟨actions, hreads⟩ step hstep
    obtain ⟨i, hi, rfl⟩ := List.getElem_of_mem hstep
    exact ⟨_, hreads.get hi (hreads.length_eq ▸ hi)⟩
  · intro h
    refine x.reads_or_stops.resolve_right fun hstops => ?_
    obtain ⟨step, hstep, e, he⟩ := stops_iff.mp hstops
    obtain ⟨a, ha⟩ := h step hstep
    cases he.symm.trans ha

end Scenario

/-- **The same scenario**, except that the address of its first visit may have got a query. -/
inductive SameVisit (u s : String) : Scenario → Scenario → Prop
  | same (x : Scenario) : SameVisit u s x x
  | query (x : Scenario) : SameVisit u s (x.visiting u) (x.visiting (u ++ s))

theorem SameVisit.pageKey {u s : String} (h : urlPath (u ++ s) = urlPath u) {x y : Scenario}
    (hxy : SameVisit u s x y) : x.pageKey = y.pageKey := by
  cases hxy with
  | same => rfl
  | query x => rw [Scenario.pageKey_visiting, Scenario.pageKey_visiting, h]

theorem SameVisit.reads_iff {u s : String} (hu : IsBareAddress u) (hne : u ≠ "")
    {x y : Scenario} (hxy : SameVisit u s x y) :
    (∃ actions, x.Reads actions) ↔ ∃ actions, y.Reads actions := by
  cases hxy with
  | same => rfl
  | query x =>
    have hblank : Text.isBlankText u = false := by
      rw [Bool.eq_false_iff, ne_eq, ← Text.strip_eq_empty_iff, hu.stripped]
      exact hne
    have hquery : Text.isBlankText (u ++ s) = false := by
      rw [Text.isBlankText, String.toList_append, List.all_append, ← Text.isBlankText, hblank]
      rfl
    rw [Scenario.exists_reads_iff, Scenario.exists_reads_iff]
    exact reads_visitFirst_iff (hblank.trans hquery.symm) x.steps

/-! ## Groups of plans that correspond -/

section Correspond

variable {R : Scenario → Scenario → Prop}

/-- What is read of plans whose scenarios correspond one by one corresponds one by one. -/
theorem Sieved.forall₂ (hR : ∀ x y, R x y → ((∃ a, x.Reads a) ↔ ∃ a, y.Reads a))
    {cases others : List Scenario} (h : List.Forall₂ R cases others)
    {rendered rendered' : List ReadScenario} {failures failures' : List RenderFailure}
    (hs : Sieved cases rendered failures) (hs' : Sieved others rendered' failures') :
    List.Forall₂ (fun c e => R c.1 e.1) rendered rendered' := by
  induction h generalizing rendered rendered' failures failures' with
  | nil =>
    cases hs
    cases hs'
    exact .nil
  | @cons x y cases others hxy _ ih =>
    cases hs with
    | read hx hrest =>
      cases hs' with
      | read hy hrest' => exact .cons hxy (ih hrest hrest')
      | stop hy _ =>
        obtain ⟨_, hreads⟩ := (hR x y hxy).mp ⟨_, hx⟩
        exact absurd hy hreads.not_stopsAt
    | stop hx hrest =>
      cases hs' with
      | read hy _ =>
        obtain ⟨_, hreads⟩ := (hR x y hxy).mpr ⟨_, hy⟩
        exact absurd hx hreads.not_stopsAt
      | stop _ hrest' => exact ih hrest hrest'

/-- **The groups of two plans correspond**: the same pages have the same files, with scenarios
that correspond one by one. -/
def Plan.GroupsCorrespond (R : Scenario → Scenario → Prop) (p q : Plan) : Prop :=
  List.Forall₂ (fun g k => g.key = k.key ∧ g.stem = k.stem ∧
    List.Forall₂ (fun c e => R c.1 e.1) g.cases k.cases) p.groups q.groups

theorem Plan.groupsCorrespond (hreads : ∀ x y, R x y → ((∃ a, x.Reads a) ↔ ∃ a, y.Reads a))
    (hpage : ∀ x y, R x y → x.pageKey = y.pageKey) {p q : Plan}
    (h : List.Forall₂ R p.cases q.cases) : p.GroupsCorrespond R q := by
  have hreadable := Sieved.forall₂ hreads h p.sieved q.sieved
  have hpages : pagesOf p.readable = pagesOf q.readable := by
    have hkeys : List.Forall₂ Eq (p.readable.map fun c => c.1.pageKey)
        (q.readable.map fun c => c.1.pageKey) := by
      rw [List.forall₂_map_left_iff, List.forall₂_map_right_iff]
      exact hreadable.imp fun c e hce => hpage c.1 e.1 hce
    rw [List.forall₂_eq_eq_eq] at hkeys
    rw [pagesOf, pagesOf, hkeys]
  have honPage (key : String) :
      List.Forall₂ (fun c e => R c.1 e.1) (onPage p.readable key) (onPage q.readable key) := by
    refine List.rel_filter (fun c e hce => ?_) hreadable
    simp [hpage c.1 e.1 hce]
  rw [GroupsCorrespond, groups_eq, groups_eq, hpages, List.forall₂_map_left_iff,
    List.forall₂_map_right_iff, List.forall₂_same]
  exact fun page _ => ⟨rfl, rfl, honPage page.1⟩

end Correspond

/-! ## Pages of addresses with a query -/

/-- **An address means the same page with the query as without it.** -/
structure SamePage (u s : String) : Prop where
  path : urlPath (u ++ s) = urlPath u
  /-- A scenario that first visits the address belongs to the same page. -/
  pageKey : ∀ x : Scenario, (x.visiting (u ++ s)).pageKey = (x.visiting u).pageKey
  /-- The same page is found by the address. -/
  lookup : ∀ d : Discovery, d.page? (u ++ s) = d.page? u
  /-- The scenarios of a plan are put into the same files, unless the address is empty: then it
  cannot be visited without the query. -/
  groups : u ≠ "" → ∀ p q : Plan, List.Forall₂ (SameVisit u s) p.cases q.cases →
    p.GroupsCorrespond (SameVisit u s) q

/-- **When an address means the same page with a query as without it**: exactly if the query
leaves the path alone. -/
theorem samePage_iff {u s : String} (hu : IsBareAddress u) (hs : IsQuery s) :
    SamePage u s ↔ LeavesPath u s := by
  rw [← urlPath_append_iff hu hs]
  constructor
  · exact SamePage.path
  · intro h
    refine ⟨h, fun x => ?_, fun d => ?_, fun hne p q hcases => ?_⟩
    · rw [Scenario.pageKey_visiting, Scenario.pageKey_visiting, h]
    · rw [Discovery.page?, Discovery.page?, h]
    · exact Plan.groupsCorrespond (fun _ _ => SameVisit.reads_iff hu hne)
        (fun _ _ => SameVisit.pageKey h) hcases

/-- A slash in the query does no harm to an address that has a path. -/
theorem return_address_after_path :
    IsBareAddress "https://app.example.com/login" ∧ IsQuery "?next=/home#top" ∧
    SamePage "https://app.example.com/login" "?next=/home#top" := by
  have hu : IsBareAddress "https://app.example.com/login" := by decide
  have hs : IsQuery "?next=/home#top" := by decide
  have hscheme : Text.cutAt "://".toList "https://app.example.com/login".toList =
      some ("https".toList, "app.example.com/login".toList) := by decide
  exact ⟨hu, hs, (samePage_iff hu hs).mpr (.hosted hscheme (by decide))⟩

/-- An address in the query is taken for the address of the page. -/
theorem address_in_query_taken_for_page :
    IsBareAddress "/login" ∧ IsQuery "?next=https://app.example.com/home" ∧
    urlPath "/login" = "/login" ∧
    urlPath ("/login" ++ "?next=https://app.example.com/home") = "/home" := by
  decide

end Testplan
