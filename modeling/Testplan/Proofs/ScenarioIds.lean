import Mathlib.Data.List.Sigma
import Testplan.Proofs.HealingOnPage
import Testplan.Proofs.PageStems
/-!
# The identifiers of scenarios

A scenario has an **origin**: the pattern, the page, a number or none, and a suffix.  What the
scenario is known by follows from these (`Pattern.map_labels_scenarios`).  Its identifier is put
together from them (`Origin.id`), with the path of the page, which may be any text, in the middle.
So a path may end like the identifier of another page does.  Still the identifier tells the
pattern (`Origin.pattern_eq`), and it tells page, number and suffix of two origins of one pattern
that either both have a number or both have none (`Origin.mark_inj`).

Only the patterns that make one scenario for each form have origins of both sorts, since they
number the forms of a page if it has several.  They take an identifier twice if the path of a page
with a single form is that of a page with several forms and the number of one of them
(`Pattern.Clash`).  All other scenarios of a plan have identifiers of their own
(`compilePlan_ids_nodup_iff`).
-/
namespace Testplan

/-! ## Origins -/

/-- **Where a scenario comes from.** -/
@[ext]
structure Origin where
  pattern : Pattern
  page : DiscoveredPage
  /-- The number of the form or link, for some patterns. -/
  number : Option Nat
  /-- What tells the scenarios of one form apart. -/
  suffix : String

/-- The identifier of the scenario. -/
def Origin.id (o : Origin) : String := o.pattern.caseId o.page.path o.number ++ o.suffix

/-- The text that a link is shown with, or its address if it has none. -/
def DiscoveredLink.shown (link : DiscoveredLink) : String :=
  (Text.present? link.text).getD link.href

/-- What the title says besides the page: the number of the form, the link or the payload. -/
def Origin.detail (o : Origin) : String :=
  match o.pattern with
  | .pageSmoke | .labelledFields => ""
  | .formHappyPath | .requiredValidation | .fileUpload => Pattern.titleSuffix o.number
  | .linkNavigation =>
    ((o.number.bind fun i => o.page.links[i]?).map DiscoveredLink.shown).getD ""
  | .injectionProbe => String.ofList o.suffix.toList.tail

/-- The title of the scenario. -/
def Origin.title (o : Origin) : String :=
  match o.pattern with
  | .pageSmoke => "Page loads: " ++ o.page.path
  | .formHappyPath => "Submit form on " ++ o.page.path ++ o.detail
  | .requiredValidation => "Required fields block empty submit on " ++ o.page.path ++ o.detail
  | .fileUpload => "Upload a file on " ++ o.page.path ++ o.detail
  | .linkNavigation => "Navigate from " ++ o.page.path ++ " to " ++ o.detail
  | .labelledFields => "Fields are reachable by label on " ++ o.page.path
  | .injectionProbe => "Injection probe (" ++ o.detail ++ ") on " ++ o.page.path

/-- What the scenario is known by: its identifier, its title and its page. -/
def Origin.labels (o : Origin) : String × String × String :=
  (o.id, o.title, urlPath o.page.path)

/-- What a scenario is known by. -/
def Scenario.labels (s : Scenario) : String × String × String := (s.id, s.title, s.pageKey)

theorem Scenario.labels_eq {s : Scenario} {o : Origin} (hid : s.id = o.id)
    (htitle : s.title = o.title) (hsteps : s.steps.head? = some (.goto o.page.path)) :
    s.labels = o.labels := by
  obtain ⟨rest, hrest⟩ := List.head?_eq_some_iff.mp hsteps
  have hkey : s.pageKey = urlPath o.page.path := by
    rw [pageKey, hrest]
    rfl
  rw [labels, Origin.labels, hid, htitle, hkey]

namespace Pattern

variable {p q : Pattern} {P Q : DiscoveredPage} {d : Discovery}

/-- The pattern makes scenarios for the form. -/
def attendsForm (p : Pattern) (form : DiscoveredForm) : Bool := form.fields.any p.attends

/-- The pattern makes one scenario for each form. -/
def isPerForm : Pattern → Bool
  | formHappyPath | requiredValidation | fileUpload => true
  | pageSmoke | linkNavigation | labelledFields | injectionProbe => false

/-- The numbers of the scenarios for the forms of a page, which are numbered if it has several. -/
def formNumbers (p : Pattern) (P : DiscoveredPage) : List (Option Nat) :=
  (P.forms.zipIdx.filter fun f => p.attendsForm f.1).map fun f =>
    if 1 < P.forms.length then some f.2 else none

/-- The numbers of the scenarios for a page. -/
def numbers (p : Pattern) (P : DiscoveredPage) : List (Option Nat) :=
  match p with
  | pageSmoke => [none]
  | formHappyPath | requiredValidation | fileUpload => p.formNumbers P
  | linkNavigation => (P.links.take followedLinks).zipIdx.map fun l => some l.2
  | labelledFields => if P.fields.any labelledFields.attends then [none] else []
  | injectionProbe =>
    (P.forms.zipIdx.filter fun f => injectionProbe.attendsForm f.1).map fun f => some f.2

/-- The suffixes of identifiers. -/
def suffixes : Pattern → List String
  | injectionProbe => payloads.map fun payload => ":" ++ payload.1
  | pageSmoke | formHappyPath | requiredValidation | fileUpload | linkNavigation
  | labelledFields => [""]

/-- The origins of the scenarios for a page. -/
def origins (p : Pattern) (P : DiscoveredPage) : List Origin :=
  (p.numbers P).flatMap fun n => p.suffixes.map fun s => ⟨p, P, n, s⟩

/-! ## The scenarios of a pattern -/

theorem map_origins {α : Type} (f : Origin → α) (h : p.suffixes = [""]) :
    (p.origins P).map f = (p.numbers P).map fun n => f ⟨p, P, n, ""⟩ := by
  rw [origins, h]
  induction p.numbers P with
  | nil => rfl
  | cons n rest ih => simpa using ih

theorem numbers_of_isPerForm (h : p.isPerForm) (P : DiscoveredPage) :
    p.numbers P = p.formNumbers P := by
  cases p with
  | formHappyPath | requiredValidation | fileUpload => rfl
  | pageSmoke | linkNavigation | labelledFields | injectionProbe => cases h

theorem suffixes_of_isPerForm (h : p.isPerForm) : p.suffixes = [""] := by
  cases p with
  | formHappyPath | requiredValidation | fileUpload => rfl
  | pageSmoke | linkNavigation | labelledFields | injectionProbe => cases h

theorem getElem?_of_followed {link : DiscoveredLink} {i : Nat}
    (h : (link, i) ∈ (P.links.take followedLinks).zipIdx) : P.links[i]? = some link := by
  have htake := List.mk_mem_zipIdx_iff_getElem?.mp h
  rw [List.getElem?_take] at htake
  split at htake
  · exact htake
  · cases htake

/-- Scenarios that are made form by form. -/
theorem map_labels_perForm (hp : p.isPerForm)
    {scenario : DiscoveredPage → Option Nat → DiscoveredForm → Option Scenario}
    (h : ∀ P index form, (scenario P index form).map Scenario.labels =
      if p.attendsForm form then some (Origin.labels ⟨p, P, index, ""⟩) else none) :
    (perForm d scenario).map Scenario.labels = (d.pages.flatMap p.origins).map Origin.labels := by
  rw [perForm, List.map_flatMap, List.map_flatMap]
  refine List.flatMap_congr fun P _ => ?_
  rw [map_origins _ (suffixes_of_isPerForm hp), numbers_of_isPerForm hp, formNumbers,
    List.map_filterMap, numberedForms]
  induction P.forms.zipIdx with
  | nil => rfl
  | cons f rest ih =>
    rw [List.map_cons, List.filterMap_cons, h]
    cases hf : p.attendsForm f.1 with
    | false => simpa [hf] using ih
    | true => simpa [hf] using ih

theorem isEmpty_filter_eq {fields : List FieldDescriptor} (select : FieldDescriptor → Bool) :
    (fields.filter select).isEmpty = !fields.any select := by
  induction fields with
  | nil => rfl
  | cons f rest ih => cases h : select f <;> simp [h, ih]

/-- **The scenarios of a pattern** are known by what its origins say. -/
theorem map_labels_scenarios (p : Pattern) (d : Discovery) :
    (p.scenarios d).map Scenario.labels = (d.pages.flatMap p.origins).map Origin.labels := by
  cases p with
  | pageSmoke =>
    show (smokeScenarios d).map Scenario.labels = _
    rw [smokeScenarios, List.map_map, List.map_flatMap, List.map_eq_flatMap]
    refine List.flatMap_congr fun P _ => ?_
    rw [map_origins (p := pageSmoke) _ rfl]
    exact congrArg (fun labels => [labels])
      (Scenario.labels_eq (o := ⟨pageSmoke, P, none, ""⟩) String.append_empty.symm rfl rfl)
  | formHappyPath =>
    unfold scenarios happyPathScenarios
    refine map_labels_perForm rfl fun P index form => ?_
    have hempty : form.fields.isEmpty = !formHappyPath.attendsForm form := by
      cases h : form.fields <;> simp [attendsForm, h, attends]
    rw [hempty]
    cases formHappyPath.attendsForm form with
    | false => rfl
    | true => exact congrArg some (Scenario.labels_eq String.append_empty.symm rfl rfl)
  | requiredValidation =>
    unfold scenarios validationScenarios
    refine map_labels_perForm rfl fun P index form => ?_
    dsimp only
    have hempty : (form.fields.filter fun f => f.required && !f.isFile).isEmpty =
        !requiredValidation.attendsForm form := isEmpty_filter_eq _
    rw [hempty]
    cases requiredValidation.attendsForm form with
    | false => rfl
    | true => exact congrArg some (Scenario.labels_eq String.append_empty.symm rfl rfl)
  | fileUpload =>
    unfold scenarios uploadScenarios
    refine map_labels_perForm rfl fun P index form => ?_
    dsimp only
    have hempty : (form.fields.filter FieldDescriptor.isFile).isEmpty =
        !fileUpload.attendsForm form := isEmpty_filter_eq _
    rw [hempty]
    cases fileUpload.attendsForm form with
    | false => rfl
    | true => exact congrArg some (Scenario.labels_eq String.append_empty.symm rfl rfl)
  | linkNavigation =>
    show (linkScenarios d).map Scenario.labels = _
    rw [linkScenarios_eq, List.map_flatMap, List.map_flatMap]
    refine List.flatMap_congr fun P _ => ?_
    rw [map_origins _ rfl, numbers, List.map_map, List.map_map]
    refine List.map_congr_left fun ⟨link, i⟩ hlink => ?_
    have hi : P.links[i]? = some link := getElem?_of_followed hlink
    refine Scenario.labels_eq (o := ⟨linkNavigation, P, some i, ""⟩) String.append_empty.symm ?_ rfl
    simp [linkCase, Origin.title, Origin.detail, hi, DiscoveredLink.shown]
  | labelledFields =>
    show (labelScenarios d).map Scenario.labels = _
    rw [labelScenarios, List.map_filterMap, List.map_flatMap, List.filterMap_eq_flatMap_toList]
    refine List.flatMap_congr fun P _ => ?_
    have hempty : (P.fields.filter fun f => (Text.present? f.label).isSome).isEmpty =
        !P.fields.any labelledFields.attends := isEmpty_filter_eq _
    dsimp only
    rw [map_origins _ rfl, numbers, hempty]
    cases P.fields.any labelledFields.attends with
    | false => rfl
    | true =>
      exact congrArg (fun labels => [labels])
        (Scenario.labels_eq (o := ⟨labelledFields, P, none, ""⟩) String.append_empty.symm rfl rfl)
  | injectionProbe =>
    show (injectionScenarios d).map Scenario.labels = _
    rw [injectionScenarios_eq, List.map_flatMap, List.map_flatMap]
    refine List.flatMap_congr fun P _ => ?_
    rw [origins, numbers, List.map_flatMap, List.map_flatMap]
    induction P.forms.zipIdx with
    | nil => rfl
    | cons f rest ih =>
      have hempty : ((f.1.fields.filter fun g => g.isTextual && !g.isFile).map fun g =>
          g.locator.render).isEmpty = !injectionProbe.attendsForm f.1 :=
        List.isEmpty_map.trans (isEmpty_filter_eq _)
      rw [List.flatMap_cons, ih]
      dsimp only
      rw [hempty]
      cases hf : injectionProbe.attendsForm f.1 with
      | false => simp [hf]
      | true =>
        have hprobe (tag payload : String) : (probeCase P f.1 f.2 tag payload).labels =
            Origin.labels ⟨injectionProbe, P, some f.2, ":" ++ tag⟩ := by
          -- the suffix is put behind the identifier as a whole
          refine Scenario.labels_eq ?_ ?_ rfl
          · simp [probeCase, Origin.id, String.append_assoc]
          · simp [probeCase, Origin.title, Origin.detail]
        simp [hf, suffixes, hprobe, Function.comp_def]

/-- The identifiers of the scenarios of a pattern are those of its origins. -/
theorem map_id_scenarios (p : Pattern) (d : Discovery) :
    (p.scenarios d).map Scenario.id = (d.pages.flatMap p.origins).map Origin.id := by
  simpa [Function.comp_def, Scenario.labels, Origin.labels] using
    congrArg (List.map Prod.fst) (p.map_labels_scenarios d)

/-! ## Numbers and suffixes -/

theorem mem_formNumbers_iff {n : Option Nat} :
    n ∈ p.formNumbers P ↔ ∃ i form, P.forms[i]? = some form ∧ p.attendsForm form ∧
      n = if 1 < P.forms.length then some i else none := by
  rw [formNumbers, List.mem_map]
  constructor
  · rintro ⟨⟨form, i⟩, hf, rfl⟩
    obtain ⟨hform, hattends⟩ := List.mem_filter.mp hf
    exact ⟨i, form, List.mk_mem_zipIdx_iff_getElem?.mp hform, hattends, rfl⟩
  · rintro ⟨i, form, hform, hattends, rfl⟩
    exact ⟨(form, i),
      List.mem_filter.mpr ⟨List.mk_mem_zipIdx_iff_getElem?.mpr hform, hattends⟩, rfl⟩

theorem nodup_formNumbers (p : Pattern) (P : DiscoveredPage) : (p.formNumbers P).Nodup := by
  by_cases hlen : 1 < P.forms.length
  · simp only [formNumbers, hlen, if_true]
    exact nodup_positions List.filter_sublist
  · have hshort : (p.formNumbers P).length ≤ 1 := by
      rw [formNumbers, List.length_map]
      exact (List.length_filter_le ..).trans (by simpa using hlen)
    match p.formNumbers P, hshort with
    | [], _ => exact List.nodup_nil
    | [n], _ => exact List.nodup_singleton n

theorem nodup_numbers (p : Pattern) (P : DiscoveredPage) : (p.numbers P).Nodup := by
  cases p with
  | pageSmoke => exact List.nodup_singleton _
  | formHappyPath | requiredValidation | fileUpload => exact nodup_formNumbers _ P
  | linkNavigation => exact nodup_positions (List.Sublist.refl _)
  | labelledFields =>
    show (if P.fields.any labelledFields.attends then [none] else []).Nodup
    split
    · exact List.nodup_singleton _
    · exact List.nodup_nil
  | injectionProbe => exact nodup_positions List.filter_sublist

theorem nodup_suffixes (p : Pattern) : p.suffixes.Nodup := by
  cases p <;> decide

/-- A pattern for which some scenarios have a number, and some have none, makes one scenario for
each form. -/
theorem isPerForm_of_mixed {i : Nat} (hsome : some i ∈ p.numbers P) (hnone : none ∈ p.numbers Q) :
    p.isPerForm := by
  cases p with
  | pageSmoke | labelledFields => simp [numbers] at hsome
  | formHappyPath | requiredValidation | fileUpload => rfl
  | linkNavigation | injectionProbe => simp [numbers] at hnone

theorem suffixes_of_none (h : none ∈ p.numbers P) : p.suffixes = [""] := by
  cases p with
  | injectionProbe => simp [numbers] at h
  | pageSmoke | formHappyPath | requiredValidation | fileUpload | linkNavigation
  | labelledFields => rfl

/-- A suffix does not look like the number in front of it, or like the sign before the number. -/
theorem suffix_chars {s : String} (h : s ∈ p.suffixes) :
    '#' ∉ s.toList ∧ s.toList.takeWhile Char.isDigit = [] := by
  revert s
  cases p <;> decide

/-! ## Taking identifiers apart -/

theorem colon_notMem_name (p : Pattern) : ':' ∉ p.name.toList := by
  cases p <;> decide

theorem name_inj (h : p.name = q.name) : p = q := by
  have hread (p : Pattern) : ofName? p.name = some p := by cases p <;> rfl
  exact Option.some.inj ((hread p).symm.trans ((congrArg ofName? h).trans (hread q)))

end Pattern

namespace Origin

variable {o o' : Origin}

/-- What follows the path of the page in an identifier. -/
def mark (o : Origin) : List Char :=
  match o.number with
  | none => o.suffix.toList
  | some i => '#' :: ((toString i).toList ++ o.suffix.toList)

theorem toList_id (o : Origin) :
    o.id.toList = o.pattern.name.toList ++ ':' :: (o.page.path.toList ++ o.mark) := by
  unfold id Pattern.caseId mark
  cases o.number <;> simp [String.toList_append]

/-- **The identifier tells the pattern.** -/
theorem pattern_eq (h : o.id = o'.id) :
    o.pattern = o'.pattern ∧ o.page.path.toList ++ o.mark = o'.page.path.toList ++ o'.mark := by
  have hcut (o : Origin) : Text.cutAtChar ':' o.id.toList =
      some (o.pattern.name.toList, o.page.path.toList ++ o.mark) := by
    rw [toList_id]
    exact Text.cutAtChar_append o.pattern.colon_notMem_name
  have heq := (hcut o).symm.trans ((congrArg _ (congrArg String.toList h)).trans (hcut o'))
  obtain ⟨hname, hrest⟩ := Prod.mk.inj (Option.some.inj heq)
  exact ⟨Pattern.name_inj (String.toList_inj.mp hname), hrest⟩

/-- What follows the last number sign, and what comes before it. -/
theorem cut_last {before before' after after' : List Char} (h : '#' ∉ after) (h' : '#' ∉ after')
    (heq : before ++ '#' :: after = before' ++ '#' :: after') : before = before' ∧ after = after' := by
  have hcut {before after : List Char} (h : '#' ∉ after) :
      Text.cutAtChar '#' (before ++ '#' :: after).reverse = some (after.reverse, before.reverse) := by
    rw [List.reverse_append, List.reverse_cons, List.append_assoc]
    exact Text.cutAtChar_append (by simpa using h)
  have hboth := (hcut h).symm.trans ((congrArg _ (congrArg List.reverse heq)).trans (hcut h'))
  obtain ⟨hafter, hbefore⟩ := Prod.mk.inj (Option.some.inj hboth)
  exact ⟨List.reverse_inj.mp hbefore, List.reverse_inj.mp hafter⟩

/-- The number and the suffix make up a possible origin. -/
def Fits (o : Origin) : Prop :=
  o.number ∈ o.pattern.numbers o.page ∧ o.suffix ∈ o.pattern.suffixes

theorem number_append_chars {i : Nat} {s : List Char} (h : '#' ∉ s) :
    '#' ∉ (toString i).toList ++ s := by
  refine fun hmem => (List.mem_append.mp hmem).elim (fun hdigit => ?_) h
  have hdigit := digits_toString hdigit
  simp at hdigit

/-- A number is told from the suffix behind it. -/
theorem cut_number {i j : Nat} {s t : List Char} (hs : s.takeWhile Char.isDigit = [])
    (ht : t.takeWhile Char.isDigit = [])
    (h : (toString i).toList ++ s = (toString j).toList ++ t) : i = j ∧ s = t := by
  have htake (n : Nat) (r : List Char) (hr : r.takeWhile Char.isDigit = []) :
      ((toString n).toList ++ r).takeWhile Char.isDigit = (toString n).toList := by
    rw [List.takeWhile_append_of_pos fun _ => digits_toString, hr, List.append_nil]
  have hdigits : (toString i).toList = (toString j).toList := by
    rw [← htake i s hs, h, htake j t ht]
  rw [hdigits] at h
  refine ⟨numberedStem_injective "" ?_, List.append_cancel_left h⟩
  rw [numberedStem, numberedStem, String.toList_inj.mp hdigits]

/-- The path, the number and the suffix of an identifier. -/
theorem mark_inj (hpattern : o.pattern = o'.pattern) (ho : o.Fits) (ho' : o'.Fits)
    (hsame : o.number.isSome = o'.number.isSome)
    (h : o.page.path.toList ++ o.mark = o'.page.path.toList ++ o'.mark) :
    o.page.path = o'.page.path ∧ o.number = o'.number ∧ o.suffix = o'.suffix := by
  obtain ⟨p, P, n, s⟩ := o
  obtain ⟨q, Q, m, t⟩ := o'
  obtain rfl : p = q := hpattern
  obtain ⟨hn, hs⟩ : n ∈ p.numbers P ∧ s ∈ p.suffixes := ho
  obtain ⟨-, ht⟩ : m ∈ p.numbers Q ∧ t ∈ p.suffixes := ho'
  cases n with
  | none =>
    obtain rfl : m = none := by simpa using hsame.symm
    -- a pattern without numbers has no suffixes either
    rw [Pattern.suffixes_of_none hn, List.mem_singleton] at hs ht
    subst hs ht
    exact ⟨String.toList_inj.mp (List.append_cancel_right h), rfl, rfl⟩
  | some i =>
    obtain ⟨j, rfl⟩ : ∃ j, m = some j := Option.isSome_iff_exists.mp hsame.symm
    obtain ⟨hhash, hdigit⟩ := Pattern.suffix_chars hs
    obtain ⟨hhash', hdigit'⟩ := Pattern.suffix_chars ht
    obtain ⟨hpath, hmark⟩ := cut_last (number_append_chars hhash) (number_append_chars hhash') h
    obtain ⟨rfl, hsuffix⟩ := cut_number hdigit hdigit' hmark
    exact ⟨String.toList_inj.mp hpath, rfl, String.toList_inj.mp hsuffix⟩

end Origin

/-! ## The identifiers of a plan -/

/-- The origins of the scenarios that patterns make. -/
def origins (patterns : List Pattern) (d : Discovery) : List Origin :=
  patterns.flatMap fun p => d.pages.flatMap p.origins

variable {patterns : List Pattern} {d : Discovery} {o o' : Origin}

theorem Pattern.mem_origins_iff {p : Pattern} {P : DiscoveredPage} :
    o ∈ p.origins P ↔ o.pattern = p ∧ o.page = P ∧ o.Fits := by
  constructor
  · intro h
    obtain ⟨n, hn, h⟩ := List.mem_flatMap.mp h
    obtain ⟨s, hs, rfl⟩ := List.mem_map.mp h
    exact ⟨rfl, rfl, hn, hs⟩
  · rintro ⟨rfl, rfl, hn, hs⟩
    exact List.mem_flatMap.mpr ⟨_, hn, List.mem_map.mpr ⟨_, hs, rfl⟩⟩

theorem mem_origins_iff :
    o ∈ origins patterns d ↔ o.pattern ∈ patterns ∧ o.page ∈ d.pages ∧ o.Fits := by
  simp only [origins, List.mem_flatMap, Pattern.mem_origins_iff]
  constructor
  · rintro ⟨p, hp, P, hP, rfl, rfl, hfits⟩
    exact ⟨hp, hP, hfits⟩
  · rintro ⟨hp, hP, hfits⟩
    exact ⟨_, hp, _, hP, rfl, rfl, hfits⟩

theorem Pattern.nodup_origins (p : Pattern) (P : DiscoveredPage) : (p.origins P).Nodup := by
  refine nodup_flatMap_of_source Origin.number (p.nodup_numbers P) (fun n _ => ?_) fun n _ o ho => ?_
  · exact p.nodup_suffixes.map fun s t h => congrArg Origin.suffix h
  · obtain ⟨s, -, rfl⟩ := List.mem_map.mp ho
    rfl

theorem nodup_origins (hpatterns : patterns.Nodup) (hpages : d.pages.Nodup) :
    (origins patterns d).Nodup := by
  refine nodup_flatMap_of_source Origin.pattern hpatterns (fun p _ => ?_) fun p _ o ho => ?_
  · exact nodup_flatMap_of_source Origin.page hpages (fun P _ => p.nodup_origins P)
      fun P _ o ho => (Pattern.mem_origins_iff.mp ho).2.1
  · obtain ⟨P, -, ho⟩ := List.mem_flatMap.mp ho
    exact (Pattern.mem_origins_iff.mp ho).1

/-- **The pattern takes an identifier for two pages**: the first has several forms, the second has
one, and its path is that of the first with the number of a form. -/
def Pattern.Clash (p : Pattern) (P Q : DiscoveredPage) : Prop :=
  p.isPerForm ∧ (∃ form, Q.forms = [form] ∧ p.attendsForm form) ∧
    1 < P.forms.length ∧ ∃ (i : Nat) (form : DiscoveredForm), P.forms[i]? = some form ∧
      p.attendsForm form ∧ Q.path = P.path ++ "#" ++ toString i

theorem Pattern.clash_iff {p : Pattern} {P Q : DiscoveredPage} :
    p.Clash P Q ↔ none ∈ p.numbers Q ∧
      ∃ i, some i ∈ p.numbers P ∧ Q.path = P.path ++ "#" ++ toString i := by
  constructor
  · rintro ⟨hp, ⟨only, hforms, hattends⟩, hlen, i, form, hform, hattends', hpath⟩
    simp only [numbers_of_isPerForm hp, mem_formNumbers_iff]
    refine ⟨⟨0, only, by simp [hforms], hattends, by simp [hforms]⟩, i, ?_, hpath⟩
    exact ⟨i, form, hform, hattends', by simp [hlen]⟩
  · rintro ⟨hnone, i, hsome, hpath⟩
    have hp := isPerForm_of_mixed hsome hnone
    rw [numbers_of_isPerForm hp, mem_formNumbers_iff] at hsome hnone
    obtain ⟨k, only, honly, hattends, hshort⟩ := hnone
    obtain ⟨j, form, hform, hattends', hlong⟩ := hsome
    have hlen : 1 < P.forms.length := by
      by_contra hlen
      simp [hlen] at hlong
    have hle : Q.forms.length ≤ 1 := by
      by_contra hle
      simp [not_le.mp hle] at hshort
    obtain rfl : i = j := by simpa [hlen] using hlong
    refine ⟨hp, ⟨only, ?_, hattends⟩, hlen, i, form, hform, hattends', hpath⟩
    have hone : Q.forms.length = 1 :=
      Nat.le_antisymm hle (List.length_pos_of_mem (List.mem_of_getElem? honly))
    obtain ⟨only', honly'⟩ := List.length_eq_one_iff.mp hone
    have hmem := List.mem_of_getElem? honly
    rw [honly', List.mem_singleton] at hmem
    rw [honly', hmem]

namespace Origin

/-- An identifier with a number is one without a number only if the pages clash. -/
theorem clash_of_id_eq {i : Nat} (ho : o.Fits) (ho' : o'.Fits) (hsome : o.number = some i)
    (hnone : o'.number = none) (h : o.id = o'.id) : o.pattern.Clash o.page o'.page := by
  obtain ⟨hpattern, hrest⟩ := pattern_eq h
  obtain ⟨hn, hs⟩ := ho
  obtain ⟨hn', hs'⟩ := ho'
  rw [hsome] at hn
  rw [hnone, ← hpattern] at hn'
  rw [Pattern.suffixes_of_none hn', List.mem_singleton] at hs
  rw [← hpattern, Pattern.suffixes_of_none hn', List.mem_singleton] at hs'
  refine Pattern.clash_iff.mpr ⟨hn', i, hn, ?_⟩
  rw [← String.toList_inj]
  simpa [mark, hsome, hnone, hs, hs', String.toList_append] using hrest.symm

/-- Origins with the same identifier are the same, unless their pages clash. -/
theorem eq_or_clash (hpaths : (d.pages.map DiscoveredPage.path).Nodup)
    (ho : o ∈ origins patterns d) (ho' : o' ∈ origins patterns d) (h : o.id = o'.id) :
    o = o' ∨ ∃ p ∈ patterns, ∃ P ∈ d.pages, ∃ Q ∈ d.pages, p.Clash P Q := by
  obtain ⟨hp, hP, hfits⟩ := mem_origins_iff.mp ho
  obtain ⟨hp', hP', hfits'⟩ := mem_origins_iff.mp ho'
  by_cases hsame : o.number.isSome = o'.number.isSome
  · obtain ⟨hpattern, hrest⟩ := pattern_eq h
    obtain ⟨hpath, hnumber, hsuffix⟩ := mark_inj hpattern hfits hfits' hsame hrest
    exact .inl (Origin.ext hpattern (List.inj_on_of_nodup_map hpaths hP hP' hpath) hnumber hsuffix)
  · right
    cases hn : o.number with
    | some i =>
      have hn' : o'.number = none := by simpa [hn] using hsame
      exact ⟨_, hp, _, hP, _, hP', clash_of_id_eq hfits hfits' hn hn' h⟩
    | none =>
      obtain ⟨i, hn'⟩ := Option.ne_none_iff_exists'.mp (by simpa [hn] using hsame)
      exact ⟨_, hp', _, hP', _, hP, clash_of_id_eq hfits' hfits hn' hn h.symm⟩

end Origin

/-- **The identifiers of the scenarios that patterns make** of pages with different paths are
different exactly if no pages clash. -/
theorem nodup_ids_iff (hpatterns : patterns.Nodup)
    (hpaths : (d.pages.map DiscoveredPage.path).Nodup) :
    ((patterns.flatMap fun p => p.scenarios d).map Scenario.id).Nodup ↔
      ∀ p ∈ patterns, ∀ P ∈ d.pages, ∀ Q ∈ d.pages, ¬ p.Clash P Q := by
  have hids : (patterns.flatMap fun p => p.scenarios d).map Scenario.id =
      (origins patterns d).map Origin.id := by
    rw [origins, List.map_flatMap, List.map_flatMap]
    exact List.flatMap_congr fun p _ => p.map_id_scenarios d
  rw [hids, List.nodup_map_iff_inj_on (nodup_origins hpatterns (List.Nodup.of_map _ hpaths))]
  constructor
  · intro hinj p hp P hP Q hQ hclash
    obtain ⟨hnone, i, hsome, hpath⟩ := Pattern.clash_iff.mp hclash
    have hsuffix : "" ∈ p.suffixes := by simp [Pattern.suffixes_of_none hnone]
    have heq := hinj ⟨p, P, some i, ""⟩ (mem_origins_iff.mpr ⟨hp, hP, hsome, hsuffix⟩)
      ⟨p, Q, none, ""⟩ (mem_origins_iff.mpr ⟨hp, hQ, hnone, hsuffix⟩) ?_
    · cases heq
    · simp [Origin.id, Pattern.caseId, hpath, String.append_assoc]
  · intro hclash o ho o' ho' h
    refine (Origin.eq_or_clash hpaths ho ho' h).resolve_right ?_
    rintro ⟨p, hp, P, hP, Q, hQ, h⟩
    exact hclash p hp P hP Q hQ h

/-- **When scenarios are told apart by their identifiers.**  A plan of different patterns for pages
with different paths has no identifier twice exactly if no pages clash. -/
theorem compilePlan_ids_nodup_iff (fresh : Uuid) {d : Discovery}
    (hpaths : (d.pages.map DiscoveredPage.path).Nodup) {env resolved : Environment}
    {process : Variables} (he : env.resolve process = .ok resolved) {library : PatternLibrary}
    {persona : String} (hb : library.bundle persona = .ok patterns) (hpatterns : patterns.Nodup)
    (generatedAt : Timestamp) :
    ∃ p, compilePlan fresh d env process persona library generatedAt = .ok p ∧
      ((p.cases.map Scenario.id).Nodup ↔
        ∀ pattern ∈ patterns, ∀ P ∈ d.pages, ∀ Q ∈ d.pages, ¬ pattern.Clash P Q) := by
  have hcompile : ∃ p, compilePlan fresh d env process persona library generatedAt = .ok p := by
    unfold compilePlan
    rw [hb, he]
    exact ⟨_, rfl⟩
  obtain ⟨p, hp⟩ := hcompile
  refine ⟨p, hp, ?_⟩
  rw [compilePlan_cases hp hb]
  exact nodup_ids_iff hpatterns hpaths

/-- Pages do not clash if their paths have no number signs. -/
theorem Pattern.not_clash_of_hash_notMem {p : Pattern} {P Q : DiscoveredPage}
    (h : '#' ∉ Q.path.toList) : ¬ p.Clash P Q := by
  rintro ⟨-, -, -, i, -, -, -, hpath⟩
  simp [hpath, String.toList_append] at h

namespace Sample

/-- A form for an email address. -/
def emailForm : DiscoveredForm where
  fields := [{ label := some "Email" }]

/-- An application with two forms on a page and one on another. -/
def threeForms (second : String) : Discovery where
  pages := [
    { path := "/a", forms := [emailForm, emailForm] },
    { path := second, forms := [emailForm] }]

end Sample

/-- The three forms have identifiers of their own if the second page is at another path. -/
theorem compilePlan_ids_of_other_path : ∃ p,
    compilePlan ⟨1⟩ (Sample.threeForms "/b") {} .empty "automation" .builtin ⟨0, 0⟩ = .ok p ∧
    (p.cases.map Scenario.id).Nodup := by
  have hpaths : ((Sample.threeForms "/b").pages.map DiscoveredPage.path).Nodup := by decide
  have hresolve : ({} : Environment).resolve .empty = .ok {} := rfl
  have hbundle : PatternLibrary.builtin.bundle "automation" = .ok Sample.automation := rfl
  obtain ⟨p, hp, hnodup⟩ :=
    compilePlan_ids_nodup_iff ⟨1⟩ hpaths hresolve hbundle (by decide) ⟨0, 0⟩
  have hhash : ∀ Q ∈ (Sample.threeForms "/b").pages, '#' ∉ Q.path.toList := by decide
  exact ⟨p, hp, hnodup.mpr fun pattern _ P _ Q hQ =>
    Pattern.not_clash_of_hash_notMem (hhash Q hQ)⟩

/-- If it is at the path of the first page with a number behind it, the plan has an identifier
twice. -/
theorem compilePlan_id_taken_twice : ∃ p,
    PatternLibrary.builtin.bundle "automation" = .ok Sample.automation ∧ Sample.automation.Nodup ∧
    ((Sample.threeForms "/a#0").pages.map DiscoveredPage.path).Nodup ∧
    compilePlan ⟨1⟩ (Sample.threeForms "/a#0") {} .empty "automation" .builtin ⟨0, 0⟩ = .ok p ∧
    p.cases.map Scenario.id = ["page-smoke:/a", "page-smoke:/a#0", "form-happy-path:/a#0",
      "form-happy-path:/a#1", "form-happy-path:/a#0"] ∧
    ¬ (p.cases.map Scenario.id).Nodup := by
  let p := Sample.compiled (Sample.threeForms "/a#0")
  have hids : p.cases.map Scenario.id = ["page-smoke:/a", "page-smoke:/a#0",
      "form-happy-path:/a#0", "form-happy-path:/a#1", "form-happy-path:/a#0"] := by decide +kernel
  exact ⟨p, rfl, by decide, by decide, Sample.compilePlan_compiled _, hids, by rw [hids]; decide⟩

end Testplan
