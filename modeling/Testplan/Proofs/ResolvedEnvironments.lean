import Testplan.Environment
import Testplan.Proofs.PlaceholderText
import Testplan.Proofs.TextsAndLists
/-!
# What is left of placeholders in a resolved environment

The values of an environment are templates, which are resolved against its variables and
those of the process.  But the variables are put in as they were given, not as they are
resolved, and a text that was put in is not searched again.  So placeholders are left exactly
where a template mentions a variable whose value has a placeholder itself, as in chains and
cycles of variables, or where one is composed of texts that follow one another
(`Environment.Plain`).

Nothing else can go wrong: no base URL or user name is blank, every name that is mentioned has
a value, and an environment without placeholders resolves to itself
(`Environment.resolve_resolved`).
-/
namespace Testplan

open Placeholder (Free Mentions Composed pieces free_of_notMem)

/-! ## Expanding a template -/

namespace Variables

variable {vars process : Variables}

/-- The text that takes the place of a piece; nothing for a name without value. -/
def partOf (vars process : Variables) : Placeholder.Piece → List Char
  | .char c => [c]
  | .named name => ((vars.getOrProcess? process name).getD "").toList

/-- The texts that a template is put together from. -/
def partsOf (vars process : Variables) (template : String) : List (List Char) :=
  (pieces template.toList).map (vars.partOf process)

theorem expandPiece_eq_ok_iff {piece : Placeholder.Piece} {part : List Char} :
    vars.expandPiece process piece = .ok part ↔
      (∀ name, piece = .named name → (vars.getOrProcess? process name).isSome) ∧
        vars.partOf process piece = part := by
  cases piece with
  | char c =>
    constructor
    · intro h
      cases h
      exact ⟨(fun name hname => nomatch hname), rfl⟩
    · rintro ⟨-, rfl⟩
      rfl
  | named name =>
    rw [expandPiece]
    cases h : vars.getOrProcess? process name with
    | none => simp [h]
    | some value => simp [partOf, h]

/-- A template can be expanded if every name that it mentions has a value. -/
theorem expand_eq_ok_iff {template text : String} :
    vars.expand process template = .ok text ↔
      (∀ name, Mentions template.toList name.toList →
        (vars.getOrProcess? process name).isSome) ∧
      text.toList = (vars.partsOf process template).flatten := by
  have hparts {parts : List (List Char)} :
      (pieces template.toList).mapM (vars.expandPiece process) = .ok parts ↔
        (∀ name, Mentions template.toList name.toList →
          (vars.getOrProcess? process name).isSome) ∧ vars.partsOf process template = parts := by
    simp only [mapM_eq_ok_iff, expandPiece_eq_ok_iff, List.forall₂_and_left, partsOf,
      ← List.forall₂_eq_eq_eq, List.forall₂_map_left_iff, ← Placeholder.named_mem_pieces_iff]
    refine and_congr_left fun _ => ⟨fun h name hname => h _ hname name rfl, ?_⟩
    rintro h _ hmem name rfl
    exact h name hmem
  rw [expand]
  constructor
  · intro h
    cases hmap : (pieces template.toList).mapM (vars.expandPiece process) with
    | error name =>
      rw [hmap] at h
      cases h
    | ok parts =>
      rw [hmap] at h
      cases h
      obtain ⟨hvalues, hall⟩ := hparts.mp hmap
      exact ⟨hvalues, by rw [hall, String.toList_ofList]⟩
  · rintro ⟨hvalues, htext⟩
    rw [hparts.mpr ⟨hvalues, rfl⟩, ← String.ofList_toList (s := text), htext]
    rfl

/-- **Where the placeholders of an expanded template come from.** -/
theorem free_expand_iff {template text : String} (h : vars.expand process template = .ok text) :
    Free text.toList ↔
      (∀ name value, Mentions template.toList name.toList →
        vars.getOrProcess? process name = some value → Free value.toList) ∧
      ∀ name, ¬ Composed (vars.partsOf process template) name := by
  have hpart : (∀ name, ¬ ∃ part ∈ vars.partsOf process template, Mentions part name) ↔
      ∀ name value, Mentions template.toList name.toList →
        vars.getOrProcess? process name = some value → Free value.toList := by
    constructor
    · intro hparts name value hname hvalue inner hinner
      refine hparts inner ⟨vars.partOf process (.named name), ?_, by simpa [partOf, hvalue]⟩
      exact List.mem_map_of_mem (Placeholder.named_mem_pieces_iff.mpr hname)
    · rintro hvalues inner ⟨part, hpart, hinner⟩
      obtain ⟨piece, hpiece, rfl⟩ := List.mem_map.mp hpart
      cases piece with
      | char c => exact absurd hinner.length_lt (by simp [partOf])
      | named name =>
        cases hvalue : vars.getOrProcess? process name with
        | none => exact absurd hinner.length_lt (by simp [partOf, hvalue])
        | some value =>
          refine hvalues name value (Placeholder.named_mem_pieces_iff.mp hpiece) hvalue inner ?_
          simpa [partOf, hvalue] using hinner
  obtain ⟨-, htext⟩ := expand_eq_ok_iff.mp h
  rw [htext, Free, ← hpart, ← forall_and]
  refine forall_congr' fun name => ?_
  rw [Placeholder.mentions_flatten_iff, not_or]

/-- A text without placeholders stays as it is. -/
theorem expand_of_free {text : String} (h : Free text.toList) :
    vars.expand process text = .ok text := by
  rw [expand_eq_ok_iff, partsOf, h.pieces_eq, List.map_map]
  refine ⟨fun name hname => absurd hname (h name.toList), ?_⟩
  have hparts : vars.partOf process ∘ Placeholder.Piece.char = fun c => [c] := rfl
  rw [hparts, ← List.flatMap_def, List.flatMap_singleton']

end Variables

namespace Environment

variable {e r : Environment} {process : Variables}

/-! ## Resolving the parts of an environment -/

theorem expandRequired_eq_ok_iff {vars : Variables} {template field text : String} :
    vars.expandRequired process template field = .ok text ↔
      vars.expand process template = .ok text := by
  unfold Variables.expandRequired
  cases vars.expand process template <;> simp [Except.mapError]

/-- A variable keeps its name, and its value is expanded. -/
theorem resolveVars_eq_ok_iff {vars resolved : Variables} :
    resolveVars vars process = .ok resolved ↔
      List.Forall₂ (fun a b => b.1 = a.1 ∧ vars.expand process a.2 = .ok b.2) vars.entries
        resolved.entries := by
  have hentry {a b : String × String} :
      (do return (a.1, ← vars.expandRequired process a.2 (fieldOf a.1)) :
        Except ConfigError (String × String)) = .ok b ↔
        b.1 = a.1 ∧ vars.expand process a.2 = .ok b.2 := by
    simp only [bind_eq_ok_iff, expandRequired_eq_ok_iff, pure, Except.pure, Except.ok.injEq]
    constructor
    · rintro ⟨text, htext, rfl⟩
      exact ⟨rfl, htext⟩
    · rintro ⟨hname, htext⟩
      exact ⟨b.2, htext, by rw [← hname]⟩
  have hentries {bs : List (String × String)} :
      (vars.entries.mapM fun a => do
        return (a.1, ← vars.expandRequired process a.2 (fieldOf a.1)) :
        Except ConfigError (List (String × String))) = .ok bs ↔
        List.Forall₂ (fun a b => b.1 = a.1 ∧ vars.expand process a.2 = .ok b.2) vars.entries bs := by
    simp only [mapM_eq_ok_iff, hentry]
  have hnames {as bs : List (String × String)}
      (h : List.Forall₂ (fun a b => b.1 = a.1 ∧ vars.expand process a.2 = .ok b.2) as bs) :
      bs.map Prod.fst = as.map Prod.fst := by
    induction h with
    | nil => rfl
    | cons hab _ ih => rw [List.map_cons, List.map_cons, hab.1, ih]
  -- the names stay in order, so the table has the entries as they come
  have hordered {bs : List (String × String)}
      (h : List.Forall₂ (fun a b => b.1 = a.1 ∧ vars.expand process a.2 = .ok b.2) vars.entries bs) :
      bs.Pairwise fun a b => a.1 < b.1 := by
    have hkeys : (bs.map Prod.fst).Pairwise (· < ·) := by
      rw [hnames h, List.pairwise_map]
      exact vars.increasing
    exact List.pairwise_map.mp hkeys
  unfold resolveVars
  rw [bind_eq_ok_iff]
  constructor
  · rintro ⟨bs, hbs, hresolved⟩
    have hall := hentries.mp hbs
    cases hresolved
    rwa [KeyTable.entries_ofList (hordered hall)]
  · intro h
    refine ⟨resolved.entries, hentries.mpr h, ?_⟩
    exact congrArg Except.ok (KeyTable.ofList_entries resolved)

/-- A base URL is expanded, and left out if it is then blank. -/
theorem resolveBaseUrl_eq_ok_iff {resolved : Option String} :
    e.resolveBaseUrl process = .ok resolved ↔
      (e.baseUrl = none ∧ resolved = none) ∨
      ∃ url text, e.baseUrl = some url ∧ e.vars.expand process url = .ok text ∧
        resolved = if Text.isBlankText text then none else some text := by
  unfold resolveBaseUrl
  cases e.baseUrl with
  | none =>
    simp only [Except.ok.injEq, reduceCtorEq, false_and, exists_false, or_false, true_and]
    exact eq_comm
  | some url =>
    simp only [bind_eq_ok_iff, expandRequired_eq_ok_iff, pure, Except.pure, Except.ok.injEq,
      reduceCtorEq, false_and, false_or, Option.some.injEq]
    constructor
    · rintro ⟨text, htext, rfl⟩
      exact ⟨url, text, rfl, htext, rfl⟩
    · rintro ⟨_, text, rfl, htext, rfl⟩
      exact ⟨text, htext, rfl⟩

/-- Credentials are expanded, and the user name is then not blank. -/
theorem resolveAuth_eq_ok_iff {resolved : Option Credentials} :
    e.resolveAuth process = .ok resolved ↔
      (e.auth = none ∧ resolved = none) ∨
      ∃ auth username password, e.auth = some auth ∧
        e.vars.expand process auth.username = .ok username ∧
        Text.isBlankText username = false ∧
        e.vars.expand process auth.password = .ok password ∧
        resolved = some ⟨username, password⟩ := by
  unfold resolveAuth
  cases e.auth with
  | none =>
    simp only [Except.ok.injEq, reduceCtorEq, false_and, exists_false, or_false, true_and]
    exact eq_comm
  | some auth =>
    simp only [bind_eq_ok_iff, expandRequired_eq_ok_iff, reduceCtorEq, false_and, false_or,
      Option.some.injEq]
    constructor
    · rintro ⟨username, husername, h⟩
      split at h
      · cases h
      · next hshown =>
        simp only [bind_eq_ok_iff, expandRequired_eq_ok_iff, pure, Except.pure,
          Except.ok.injEq] at h
        obtain ⟨password, hpassword, rfl⟩ := h
        exact ⟨auth, username, password, rfl, husername, by simpa using hshown, hpassword, rfl⟩
    · rintro ⟨_, username, password, rfl, husername, hshown, hpassword, rfl⟩
      refine ⟨username, husername, ?_⟩
      rw [if_neg (by simp [hshown])]
      simp only [bind_eq_ok_iff, expandRequired_eq_ok_iff]
      exact ⟨password, hpassword, rfl⟩

theorem resolve_eq_ok_iff :
    e.resolve process = .ok r ↔
      resolveVars e.vars process = .ok r.vars ∧ e.resolveBaseUrl process = .ok r.baseUrl ∧
        e.resolveAuth process = .ok r.auth := by
  unfold resolve
  simp only [bind_eq_ok_iff]
  constructor
  · rintro ⟨vars, hvars, baseUrl, hbase, auth, hauth, h⟩
    cases h
    exact ⟨hvars, hbase, hauth⟩
  · rintro ⟨hvars, hbase, hauth⟩
    exact ⟨_, hvars, _, hbase, _, hauth, rfl⟩

/-! ## The values of a resolved environment -/

/-- A value of an environment: the base URL, one of the credentials, or that of a variable. -/
inductive IsValue (e : Environment) : String → Prop
  | baseUrl {url} (h : e.baseUrl = some url) : e.IsValue url
  | username {auth} (h : e.auth = some auth) : e.IsValue auth.username
  | password {auth} (h : e.auth = some auth) : e.IsValue auth.password
  | var {name value} (h : (name, value) ∈ e.vars.entries) : e.IsValue value

/-- Every value that is left has no placeholders. -/
def PlaceholderFree (e : Environment) : Prop := ∀ text, e.IsValue text → Free text.toList

theorem free_of_isBlankText {text : String} (h : Text.isBlankText text = true) :
    Free text.toList := by
  refine free_of_notMem fun hmem => ?_
  have hblank := List.all_eq_true.mp h '$' hmem
  revert hblank
  decide

/-- A base URL that is left comes from one that was given, and is not blank. -/
theorem baseUrl_given (h : e.resolve process = .ok r) {text : String}
    (ht : r.baseUrl = some text) :
    ∃ url, e.baseUrl = some url ∧ e.vars.expand process url = .ok text ∧
      Text.isBlankText text = false := by
  obtain ⟨-, hbase, -⟩ := resolve_eq_ok_iff.mp h
  rcases resolveBaseUrl_eq_ok_iff.mp hbase with ⟨-, hnone⟩ | ⟨url, found, he, hexpand, hr⟩
  · cases ht.symm.trans hnone
  · rw [ht] at hr
    split at hr
    · cases hr
    · next hshown =>
      cases hr
      exact ⟨url, he, hexpand, by simpa using hshown⟩

/-- Credentials that are left come from those that were given, and the user name is not blank. -/
theorem auth_given (h : e.resolve process = .ok r) {auth : Credentials}
    (ha : r.auth = some auth) :
    ∃ given, e.auth = some given ∧ e.vars.expand process given.username = .ok auth.username ∧
      e.vars.expand process given.password = .ok auth.password ∧
      Text.isBlankText auth.username = false := by
  obtain ⟨-, -, hauth⟩ := resolve_eq_ok_iff.mp h
  rcases resolveAuth_eq_ok_iff.mp hauth with
    ⟨-, hnone⟩ | ⟨given, username, password, he, hu, hshown, hp, hr⟩
  · cases ha.symm.trans hnone
  · cases ha.symm.trans hr
    exact ⟨given, he, hu, hp, hshown⟩

theorem baseUrl_not_blank (h : e.resolve process = .ok r) {url : String}
    (hurl : r.baseUrl = some url) : Text.isBlankText url = false := by
  obtain ⟨-, -, -, hshown⟩ := baseUrl_given h hurl
  exact hshown

theorem username_not_blank (h : e.resolve process = .ok r) {auth : Credentials}
    (ha : r.auth = some auth) : Text.isBlankText auth.username = false := by
  obtain ⟨-, -, -, -, hshown⟩ := auth_given h ha
  exact hshown

/-- Credentials that were given are left. -/
theorem auth_left (h : e.resolve process = .ok r) {given : Credentials}
    (he : e.auth = some given) :
    ∃ auth, r.auth = some auth ∧ e.vars.expand process given.username = .ok auth.username ∧
      e.vars.expand process given.password = .ok auth.password := by
  obtain ⟨-, -, hauth⟩ := resolve_eq_ok_iff.mp h
  rcases resolveAuth_eq_ok_iff.mp hauth with
    ⟨hnone, -⟩ | ⟨other, username, password, hother, hu, -, hp, hr⟩
  · cases he.symm.trans hnone
  · cases he.symm.trans hother
    exact ⟨⟨username, password⟩, hr, hu, hp⟩

/-- Every value comes from a template. -/
theorem exists_template (h : e.resolve process = .ok r) {text : String} (ht : r.IsValue text) :
    ∃ template, e.IsValue template ∧ e.vars.expand process template = .ok text := by
  cases ht with
  | baseUrl hurl =>
    obtain ⟨url, he, hexpand, -⟩ := baseUrl_given h hurl
    exact ⟨url, .baseUrl he, hexpand⟩
  | username ha =>
    obtain ⟨given, he, hu, -, -⟩ := auth_given h ha
    exact ⟨given.username, .username he, hu⟩
  | password ha =>
    obtain ⟨given, he, -, hp, -⟩ := auth_given h ha
    exact ⟨given.password, .password he, hp⟩
  | var hmem =>
    have hvars := (resolve_eq_ok_iff.mp h).1
    obtain ⟨⟨name, value⟩, he, -, hexpand⟩ :=
      (exists_related (resolveVars_eq_ok_iff.mp hvars)).2 _ hmem
    exact ⟨value, .var he, hexpand⟩

/-- What a template expands to is a value, unless it is blank. -/
theorem exists_value (h : e.resolve process = .ok r) {template : String}
    (ht : e.IsValue template) :
    ∃ text, e.vars.expand process template = .ok text ∧
      (r.IsValue text ∨ Text.isBlankText text = true) := by
  cases ht with
  | baseUrl hurl =>
    obtain ⟨-, hbase, -⟩ := resolve_eq_ok_iff.mp h
    rcases resolveBaseUrl_eq_ok_iff.mp hbase with ⟨hnone, -⟩ | ⟨url, text, he, hexpand, hr⟩
    · cases hurl.symm.trans hnone
    · cases hurl.symm.trans he
      refine ⟨text, hexpand, ?_⟩
      split at hr
      · next hblank => exact .inr hblank
      · exact .inl (.baseUrl hr)
  | username he =>
    obtain ⟨auth, ha, hu, -⟩ := auth_left h he
    exact ⟨auth.username, hu, .inl (.username ha)⟩
  | password he =>
    obtain ⟨auth, ha, -, hp⟩ := auth_left h he
    exact ⟨auth.password, hp, .inl (.password ha)⟩
  | var hmem =>
    have hvars := (resolve_eq_ok_iff.mp h).1
    obtain ⟨⟨name, text⟩, hr, -, hexpand⟩ :=
      (exists_related (resolveVars_eq_ok_iff.mp hvars)).1 _ hmem
    exact ⟨text, hexpand, .inl (.var hr)⟩

/-- An environment without placeholders resolves to itself. -/
theorem resolve_of_placeholderFree (hfree : r.PlaceholderFree)
    (hbase : ∀ url, r.baseUrl = some url → Text.isBlankText url = false)
    (hauth : ∀ auth, r.auth = some auth → Text.isBlankText auth.username = false) :
    r.resolve process = .ok r := by
  rw [resolve_eq_ok_iff, resolveVars_eq_ok_iff, resolveBaseUrl_eq_ok_iff, resolveAuth_eq_ok_iff]
  refine ⟨?_, ?_, ?_⟩
  · rw [List.forall₂_same]
    exact fun entry hmem => ⟨rfl, Variables.expand_of_free (hfree _ (.var hmem))⟩
  · cases hurl : r.baseUrl with
    | none => exact .inl ⟨rfl, rfl⟩
    | some url =>
      refine .inr ⟨url, url, rfl, Variables.expand_of_free (hfree _ (.baseUrl hurl)), ?_⟩
      rw [hbase url hurl, if_neg (by simp)]
  · cases ha : r.auth with
    | none => exact .inl ⟨rfl, rfl⟩
    | some auth =>
      exact .inr ⟨auth, auth.username, auth.password, rfl,
        Variables.expand_of_free (hfree _ (.username ha)), hauth auth ha,
        Variables.expand_of_free (hfree _ (.password ha)), rfl⟩

/-! ## What resolving achieves -/

/-- **An environment of plain templates**: no template mentions a variable whose value has
placeholders itself, and none becomes a placeholder by putting texts together. -/
structure Plain (e : Environment) (process : Variables) : Prop where
  nested : ∀ template, e.IsValue template → ∀ name value,
    Mentions template.toList name.toList → e.vars.get? name = some value → Free value.toList
  composed : ∀ template, e.IsValue template → ∀ name,
    ¬ Composed (e.vars.partsOf process template) name

/-- **What is known of an environment and what it resolves to.** -/
structure Resolved (e r : Environment) (process : Variables) : Prop where
  /-- Every name that a template mentions has a value. -/
  found : ∀ template, e.IsValue template → ∀ name,
    Mentions template.toList name.toList → (e.vars.getOrProcess? process name).isSome
  baseUrl_not_blank : ∀ url, r.baseUrl = some url → Text.isBlankText url = false
  username_not_blank : ∀ auth, r.auth = some auth → Text.isBlankText auth.username = false
  /-- No placeholder is left exactly if the templates are plain. -/
  free_iff : r.PlaceholderFree ↔ e.Plain process
  /-- Where none is left, resolving again changes nothing. -/
  settled : r.PlaceholderFree → r.resolve process = .ok r

/-- **Resolving leaves no placeholders exactly if the templates are plain**, where the values of
the process have none. -/
theorem resolve_resolved
    (hprocess : ∀ name value, process.get? name = some value → Free value.toList)
    (h : e.resolve process = .ok r) : e.Resolved r process where
  found template ht name hname := by
    obtain ⟨text, hexpand, -⟩ := exists_value h ht
    exact (Variables.expand_eq_ok_iff.mp hexpand).1 name hname
  baseUrl_not_blank _ := baseUrl_not_blank h
  username_not_blank _ := username_not_blank h
  free_iff := by
    have hplain {template text : String} (hexpand : e.vars.expand process template = .ok text) :
        Free text.toList ↔
          (∀ name value, Mentions template.toList name.toList → e.vars.get? name = some value →
            Free value.toList) ∧
          ∀ name, ¬ Composed (e.vars.partsOf process template) name := by
      rw [Variables.free_expand_iff hexpand]
      refine and_congr_left fun _ => forall₂_congr fun name value => imp_congr_right fun _ => ?_
      rw [Variables.getOrProcess?]
      cases hvar : e.vars.get? name with
      | none => simpa using hprocess name value
      | some found => simp
    constructor
    · intro hfree
      have hall : ∀ template, e.IsValue template →
          ∃ text, e.vars.expand process template = .ok text ∧ Free text.toList := by
        intro template ht
        obtain ⟨text, hexpand, hvalue | hblank⟩ := exists_value h ht
        · exact ⟨text, hexpand, hfree text hvalue⟩
        · exact ⟨text, hexpand, free_of_isBlankText hblank⟩
      refine ⟨fun template ht => ?_, fun template ht => ?_⟩
      · obtain ⟨text, hexpand, hf⟩ := hall template ht
        exact ((hplain hexpand).mp hf).1
      · obtain ⟨text, hexpand, hf⟩ := hall template ht
        exact ((hplain hexpand).mp hf).2
    · intro hp text htext
      obtain ⟨template, ht, hexpand⟩ := exists_template h htext
      exact (hplain hexpand).mpr ⟨hp.nested template ht, hp.composed template ht⟩
  settled hfree :=
    resolve_of_placeholderFree hfree (fun _ => baseUrl_not_blank h) fun _ => username_not_blank h

end Environment

namespace Sample

/-- A base URL with the name of a host, and a user name from the process. -/
def hosted : Environment where
  baseUrl := some "https://$\x7bHOST\x7d/"
  auth := some { username := "$\x7bUSER\x7d" }
  vars := KeyTable.empty.insert "HOST" "localhost"

/-- The same with all values. -/
def hostedResolved : Environment where
  baseUrl := some "https://localhost/"
  auth := some { username := "qa" }
  vars := KeyTable.empty.insert "HOST" "localhost"

/-- A process that knows the user name. -/
def userProcess : Variables := KeyTable.empty.insert "USER" "qa"

/-- A variable that mentions itself. -/
def cyclic : Environment where
  vars := KeyTable.empty.insert "A" "$\x7bA\x7d"

/-- A variable that mentions another one, which mentions a third. -/
def chained : Environment where
  vars := ((KeyTable.empty.insert "A" "$\x7bB\x7d").insert "B" "$\x7bC\x7d").insert "C" "x"

/-- What the chain resolves to: the first variable is left with the template of the second. -/
def chainedResolved : Environment where
  vars := ((KeyTable.empty.insert "A" "$\x7bC\x7d").insert "B" "x").insert "C" "x"

theorem free_userProcess :
    ∀ name value, userProcess.get? name = some value → Free value.toList := by
  intro name value h
  rw [userProcess, KeyTable.get?_insert] at h
  split at h
  · cases h
    exact free_of_notMem (by decide)
  · cases h

theorem placeholderFree_hostedResolved : hostedResolved.PlaceholderFree := by
  intro text htext
  cases htext with
  | baseUrl h | username h | password h =>
    cases h
    exact free_of_notMem (by decide)
  | var h =>
    cases List.mem_singleton.mp h
    exact free_of_notMem (by decide)

end Sample

/-- Plain templates are resolved for good. -/
theorem Environment.host_and_user_put_in :
    (∀ name value, Sample.userProcess.get? name = some value → Free value.toList) ∧
    Sample.hosted.resolve Sample.userProcess = .ok Sample.hostedResolved ∧
    Sample.hosted.Plain Sample.userProcess := by
  have hresolve : Sample.hosted.resolve Sample.userProcess = .ok Sample.hostedResolved := by
    decide +kernel
  have h := resolve_resolved Sample.free_userProcess hresolve
  exact ⟨Sample.free_userProcess, hresolve, h.free_iff.mp Sample.placeholderFree_hostedResolved⟩

/-- **Placeholders can be left**, in a cycle of variables and in a chain of them; resolving the
chain again goes on. -/
theorem Environment.variables_left_in_values :
    (Sample.cyclic.resolve .empty = .ok Sample.cyclic ∧ ¬ Sample.cyclic.PlaceholderFree) ∧
    Sample.chained.resolve .empty = .ok Sample.chainedResolved ∧
    ¬ Sample.chainedResolved.PlaceholderFree ∧
    Sample.chainedResolved.resolve .empty ≠ .ok Sample.chainedResolved := by
  have hcyclic : ("A", "$\x7bA\x7d") ∈ Sample.cyclic.vars.entries := by decide +kernel
  have hchained : ("A", "$\x7bC\x7d") ∈ Sample.chainedResolved.vars.entries := by decide +kernel
  have hA : Mentions "$\x7bA\x7d".toList "A".toList :=
    ⟨⟨by decide, List.all_eq_true.mp (by decide)⟩, [], [], by decide⟩
  have hC : Mentions "$\x7bC\x7d".toList "C".toList :=
    ⟨⟨by decide, List.all_eq_true.mp (by decide)⟩, [], [], by decide⟩
  exact ⟨⟨by decide +kernel, fun hfree => hfree _ (.var hcyclic) _ hA⟩, by decide +kernel,
    fun hfree => hfree _ (.var hchained) _ hC, by decide +kernel⟩

end Testplan
