import Testplan.Framework
import Testplan.Proofs.Lineages
import Testplan.Proofs.ResolvedEnvironments
/-!
# One base URL for plans and their runs

A plan gets its base URL when it is compiled, and the files of its project name that URL for the
case that no variable does.  A test process gets the base URL in variables, from the environment or
else from the plan.  Whatever is derived from a compiled plan keeps the base URL, so the two are
the same one (`compilePlan_baseUrl_agrees`).

Of the variables that an environment brings along, those with the name of a base URL count for
nothing, nor do those with the name of a credential if there are credentials
(`Environment.GivenToTests`).
-/
namespace Testplan

/-! ## The variables of a test process -/

theorem KeyTable.get?_foldl_insert {β : Type} (names : List String) (value : β) (t : KeyTable β)
    (name : String) :
    (names.foldl (fun t name => t.insert name value) t).get? name =
      if name ∈ names then some value else t.get? name := by
  induction names generalizing t with
  | nil => simp
  | cons first names ih =>
    rw [List.foldl_cons, ih, get?_insert]
    by_cases hmem : name ∈ names
    · simp [hmem]
    · by_cases hfirst : name = first <;> simp [hmem, hfirst]

namespace Environment

/-- The names under which a test process finds the credentials. -/
def credentialNames : List String := ["TM_AUTH_USERNAME", "TM_AUTH_PASSWORD"]

/-- **What an environment and a base URL give to a test process**: the base URL under all of its
names, the credentials if there are any, and of the other variables those of the environment. -/
structure GivenToTests (e : Environment) (url : String) (given : Variables) : Prop where
  baseUrl : ∀ name ∈ baseUrlNames, given.get? name = some url
  username : ∀ auth, e.auth = some auth → given.get? "TM_AUTH_USERNAME" = some auth.username
  password : ∀ auth, e.auth = some auth → given.get? "TM_AUTH_PASSWORD" = some auth.password
  others : ∀ name, name ∉ baseUrlNames → (e.auth = none ∨ name ∉ credentialNames) →
    given.get? name = e.vars.get? name

/-- The environment's own base URL counts before that of the plan. -/
theorem givenToTests_runnerVariables (e : Environment) (planBaseUrl : String) :
    e.GivenToTests (e.baseUrl.getD planBaseUrl) (e.runnerVariables planBaseUrl) := by
  obtain ⟨baseUrl, auth, vars⟩ := e
  cases auth with
  | none =>
    constructor
    · intro name hname
      rw [runnerVariables, KeyTable.get?_foldl_insert, if_pos hname]
    · nofun
    · nofun
    · intro name hname _
      rw [runnerVariables, KeyTable.get?_foldl_insert, if_neg hname]
  | some auth =>
    constructor
    · intro name hname
      have hother : name ∉ credentialNames := by
        revert name
        decide
      simp only [credentialNames, List.mem_cons, List.not_mem_nil, or_false, not_or] at hother
      rw [runnerVariables, KeyTable.get?_insert, if_neg hother.2, KeyTable.get?_insert,
        if_neg hother.1, KeyTable.get?_foldl_insert, if_pos hname]
    · intro found hfound
      cases hfound
      rw [runnerVariables, KeyTable.get?_insert, if_neg (by decide), KeyTable.get?_insert,
        if_pos rfl]
    · intro found hfound
      cases hfound
      rw [runnerVariables, KeyTable.get?_insert, if_pos rfl]
    · intro name hname hother
      replace hother := hother.resolve_left nofun
      simp only [credentialNames, List.mem_cons, List.not_mem_nil, or_false, not_or] at hother
      rw [runnerVariables, KeyTable.get?_insert, if_neg hother.2, KeyTable.get?_insert,
        if_neg hother.1, KeyTable.get?_foldl_insert, if_neg hname]

/-- **An environment gives a URL**: its base URL is expanded to it, and it is not blank. -/
def GivesUrl (e : Environment) (process : Variables) (url : String) : Prop :=
  ∃ template, e.baseUrl = some template ∧ e.vars.expand process template = .ok url ∧
    Text.isBlankText url = false

/-- A resolved environment has the base URL that was given. -/
theorem baseUrl_eq_some_iff {e r : Environment} {process : Variables}
    (h : e.resolve process = .ok r) {url : String} :
    r.baseUrl = some url ↔ e.GivesUrl process url := by
  refine ⟨fun hurl => baseUrl_given h hurl, ?_⟩
  rintro ⟨template, htemplate, hexpand, hshown⟩
  obtain ⟨-, hbase, -⟩ := resolve_eq_ok_iff.mp h
  rcases resolveBaseUrl_eq_ok_iff.mp hbase with ⟨hnone, -⟩ | ⟨other, text, hother, htext, hr⟩
  · cases htemplate.symm.trans hnone
  · cases htemplate.symm.trans hother
    cases hexpand.symm.trans htext
    rw [hr, hshown, if_neg (by simp)]

end Environment

/-! ## The base URL of a plan -/

/-- A discovery has a base URL that is not blank. -/
def Discovery.FoundUrl (d : Discovery) (url : String) : Prop :=
  d.baseUrl = some url ∧ Text.isBlankText url = false

/-- **Where the base URL of a plan comes from**: the environment, or else the discovery, or else it
is the root. -/
structure BaseUrlChosen (d : Discovery) (e : Environment) (process : Variables) (url : String) :
    Prop where
  given : ∀ u, e.GivesUrl process u → url = u
  found : (∀ u, ¬ e.GivesUrl process u) → ∀ u, d.FoundUrl u → url = u
  root : (∀ u, ¬ e.GivesUrl process u) → (∀ u, ¬ d.FoundUrl u) → url = "/"

theorem baseUrlChosen_planBaseUrl (d : Discovery) {e r : Environment} {process : Variables}
    (h : e.resolve process = .ok r) : BaseUrlChosen d e process (planBaseUrl d r) := by
  have hfound {u : String} :
      d.baseUrl.filter (fun u => !Text.isBlankText u) = some u ↔ d.FoundUrl u := by
    simp [Option.filter_eq_some_iff, Discovery.FoundUrl]
  have hnone (hnot : ∀ u, ¬ e.GivesUrl process u) : r.baseUrl = none :=
    Option.eq_none_iff_forall_ne_some.mpr fun u hu =>
      hnot u ((Environment.baseUrl_eq_some_iff h).mp hu)
  constructor
  · intro u hu
    rw [planBaseUrl, (Environment.baseUrl_eq_some_iff h).mpr hu]
    rfl
  · intro hnot u hu
    rw [planBaseUrl, hnone hnot, hfound.mpr hu]
    rfl
  · intro hnot hnotFound
    have hfilter : d.baseUrl.filter (fun u => !Text.isBlankText u) = none :=
      Option.eq_none_iff_forall_ne_some.mpr fun u hu => hnotFound u (hfound.mp hu)
    rw [planBaseUrl, hnone hnot, hfilter]
    rfl

/-- **A plan that came about from another** by any derivations, one after the other. -/
inductive Plan.Descends (p : Plan) : Plan → Prop
  | self : Descends p p
  | derive {q r : Plan} (h : Descends p q) (d : Derivation) (hr : r ∈ d.results q) : Descends p r

/-- A plan keeps its source in whatever comes about from it. -/
theorem Plan.Descends.sameSource {p q : Plan} (h : p.Descends q) : p.SameSource q := by
  induction h with
  | self => exact ⟨rfl, rfl, rfl⟩
  | derive _ _ hr ih => exact ih.trans (Derivation.sameSource hr).1

theorem exists_resolved_of_compilePlan {fresh : Uuid} {d : Discovery} {env : Environment}
    {process : Variables} {persona : String} {library : PatternLibrary} {generatedAt : Timestamp}
    {p : Plan} (h : compilePlan fresh d env process persona library generatedAt = .ok p) :
    ∃ resolved, env.resolve process = .ok resolved ∧ p.baseUrl = planBaseUrl d resolved := by
  unfold compilePlan at h
  obtain ⟨patterns, -, h⟩ := bind_eq_ok_iff.mp h
  obtain ⟨resolved, hresolved, h⟩ := bind_eq_ok_iff.mp h
  cases h
  exact ⟨resolved, hresolved, rfl⟩

/-! ## The base URL in the files of a project -/

/-- The file of a project that says which URL counts if no variable names one. -/
def Framework.baseUrlFile? (settings : RenderSettings) (url : String) :
    Framework → Option RenderedFile
  | .playwright => some (Playwright.configFile settings url)
  | .cypress => some (Cypress.configFile settings url)
  | .cucumber => some (Cucumber.stepsFile settings url)
  | .appium => some (Appium.sessionFile url)
  | .xctest => none

theorem Framework.baseUrlFile_mem {f : Framework} {settings : RenderSettings} {p : Plan}
    {file : RenderedFile} (h : f.baseUrlFile? settings p.baseUrl = some file) :
    file ∈ (f.render settings p).files := by
  have assembled {adapter : String} {fixed : List RenderedFile}
      {pageFile : PageGroup → RenderedFile} (hfile : file ∈ fixed) :
      file ∈ (p.assemble adapter fixed pageFile).files :=
    List.mem_append_left _ (List.mem_append_left _ hfile)
  cases f with
  | xctest => cases h
  | playwright | cypress =>
    obtain rfl := Option.some.inj h
    exact assembled (.tail _ (.head _))
  | cucumber | appium =>
    obtain rfl := Option.some.inj h
    exact assembled (.tail _ (.tail _ (.head _)))

/-- A line of a text stands in it. -/
theorem exists_around_of_mem {lines : List String} {line : String} (h : line ∈ lines) :
    ∃ before after, ofLines lines = before ++ line ++ after := by
  obtain ⟨earlier, later, rfl⟩ := List.append_of_mem h
  exact ⟨ofLines earlier, "\n" ++ ofLines later, by simp [ofLines, String.append_assoc]⟩

/-- The file has the URL as a literal behind the variables that count before it. -/
theorem Framework.exists_literal_baseUrlFile {f : Framework} {settings : RenderSettings}
    {url : String} {file : RenderedFile} (h : f.baseUrlFile? settings url = some file) :
    ∃ before after, file.content = before ++ "BASE_URL || " ++ literal url ++ after := by
  have around (start stop : String) {lines : List String}
      (hline : start ++ "BASE_URL || " ++ literal url ++ stop ∈ lines) :
      ∃ before after, ofLines lines = before ++ "BASE_URL || " ++ literal url ++ after := by
    obtain ⟨before, after, htext⟩ := exists_around_of_mem hline
    exact ⟨before ++ start, stop ++ after, by rw [htext]; simp [String.append_assoc]⟩
  cases f with
  | xctest => cases h
  | playwright =>
    obtain rfl := Option.some.inj h
    exact around "    baseURL: process.env.TM_BASE_URL || process.env.PW_" "," (by simp)
  | cypress =>
    obtain rfl := Option.some.inj h
    exact around "    baseUrl: process.env.CYPRESS_BASE_URL || process.env." "," (by simp)
  | cucumber | appium =>
    obtain rfl := Option.some.inj h
    exact around "const BASE_URL = process.env.TM_BASE_URL || process.env." ";" (by simp)

/-! ## The two agree -/

/-- **The base URL of a compiled plan is the one that its tests run with.**  The environment of a
compiled plan resolves.  For every plan that comes about from it, the files name the base URL of
the compiled plan, and the tests get that URL, the credentials and the variables of the resolved
environment. -/
theorem compilePlan_baseUrl_agrees {fresh : Uuid} {d : Discovery} {env : Environment}
    {process : Variables} {persona : String} {library : PatternLibrary} {generatedAt : Timestamp}
    {p : Plan} (h : compilePlan fresh d env process persona library generatedAt = .ok p) :
    BaseUrlChosen d env process p.baseUrl ∧
    ∃ resolved, env.resolve process = .ok resolved ∧ ∀ q, p.Descends q →
      resolved.GivenToTests p.baseUrl (resolved.runnerVariables q.baseUrl) ∧
      ∀ (f : Framework) (settings : RenderSettings), f ≠ .xctest →
        ∃ file ∈ (f.render settings q).files, ∃ before after,
          file.content = before ++ "BASE_URL || " ++ literal p.baseUrl ++ after := by
  obtain ⟨resolved, hresolved, hurl⟩ := exists_resolved_of_compilePlan h
  refine ⟨hurl ▸ baseUrlChosen_planBaseUrl d hresolved, resolved, hresolved, fun q hq => ?_⟩
  have hkept : q.baseUrl = p.baseUrl := hq.sameSource.baseUrl
  have hsame : resolved.baseUrl.getD p.baseUrl = p.baseUrl := by
    rw [hurl, planBaseUrl]
    cases resolved.baseUrl <;> rfl
  have hgiven := resolved.givenToTests_runnerVariables p.baseUrl
  rw [hsame] at hgiven
  refine ⟨hkept ▸ hgiven, fun f settings hf => ?_⟩
  obtain ⟨file, hfile⟩ : ∃ file, f.baseUrlFile? settings p.baseUrl = some file := by
    cases f with
    | xctest => exact absurd rfl hf
    | _ => exact ⟨_, rfl⟩
  exact ⟨file, Framework.baseUrlFile_mem (hkept ▸ hfile),
    Framework.exists_literal_baseUrlFile hfile⟩

namespace Sample

/-- An application with a base URL. -/
def crawled : Discovery := { baseUrl := some "https://crawl.example.com" }

/-- Credentials, and variables with the names of a base URL and of a credential. -/
def colliding : Environment where
  auth := some { username := "qa" }
  vars := (KeyTable.empty.insert "BASE_URL" "/elsewhere").insert "TM_AUTH_USERNAME" "someone"

end Sample

/-- The variables of the environment do not get in the way of the base URL or the user name, also
for the next version of the plan. -/
theorem compilePlan_baseUrl_of_discovery : ∃ p q,
    compilePlan ⟨1⟩ Sample.crawled Sample.colliding .empty "sdet" .builtin ⟨0, 0⟩ = .ok p ∧
    p.revise? [] = some q ∧ p.baseUrl = "https://crawl.example.com" ∧
    Sample.colliding.resolve .empty = .ok Sample.colliding ∧
    (Sample.colliding.runnerVariables q.baseUrl).get? "BASE_URL" =
      some "https://crawl.example.com" ∧
    (Sample.colliding.runnerVariables q.baseUrl).get? "TM_AUTH_USERNAME" = some "qa" := by
  have hresolve : Sample.colliding.resolve .empty = .ok Sample.colliding := by decide +kernel
  have hcompile : ∃ p,
      compilePlan ⟨1⟩ Sample.crawled Sample.colliding .empty "sdet" .builtin ⟨0, 0⟩ = .ok p ∧
      p.id.version = 1 := by
    unfold compilePlan
    rw [hresolve]
    exact ⟨_, rfl, rfl⟩
  obtain ⟨p, hp, hversion⟩ := hcompile
  have hroom : p.id.version.toNat + 1 < UInt32.size := hversion ▸ by decide
  obtain ⟨q, hq⟩ : ∃ q, p.revise? [] = some q := ⟨_, if_pos hroom⟩
  obtain ⟨hchosen, resolved, hresolved, hagrees⟩ := compilePlan_baseUrl_agrees hp
  cases hresolved.symm.trans hresolve
  have hnone : ∀ u, ¬ Sample.colliding.GivesUrl .empty u := by
    rintro u ⟨template, htemplate, -⟩
    cases htemplate
  have hurl := hchosen.found hnone "https://crawl.example.com" ⟨rfl, by decide⟩
  obtain ⟨hgiven, -⟩ := hagrees q (.derive .self (.revise []) (Option.mem_toList.mpr hq))
  exact ⟨p, q, hp, hq, hurl, hresolve, hurl ▸ hgiven.baseUrl _ (by decide), hgiven.username _ rfl⟩

end Testplan
