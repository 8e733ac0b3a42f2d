import Testplan.Proofs.CorrectedLines
import Testplan.Proofs.EvidenceArguments
import Testplan.Proofs.HintGrammar
import Testplan.Proofs.QuotedTexts
import Testplan.Proofs.ResolvedEnvironments
/-!
# The data in the lines of actions

The lines of an action hold its data in quotes: a step of a feature file holds its arguments,
which are escaped with backslashes, and a line of code holds JSON literals.  They are read back
by a search for quoted texts, from left to right (`quotedTexts`), and since nothing else in a
line has quotes, the search finds the texts that were written and no others (`Carries`).

A line of code carries the data of its action as they are (`Playwright.literalsIn_actionLine`).
The arguments of a step are put on one line first, so that what is read from it is the data of
the action if they are words with single spaces between them, and otherwise not
(`Plan.step_arguments_carried_iff`).
-/
namespace Testplan

/-! ## Searches to the end -/

section Search

variable {found? : List Char → Option (List Char × List Char)}

/-- **All that a search from left to right comes upon.** -/
inductive FindsAll (found? : List Char → Option (List Char × List Char)) :
    List Char → List (List Char) → Prop
  | nil (h : found? [] = none) : FindsAll found? [] []
  | here {cs t rest ts} (h : found? cs = some (t, rest)) (hless : rest.length < cs.length)
      (hrest : FindsAll found? rest ts) : FindsAll found? cs (t :: ts)
  | skip {c cs ts} (h : found? (c :: cs) = none) (hrest : FindsAll found? cs ts) :
      FindsAll found? (c :: cs) ts

theorem FindsAll.findAll_eq {cs : List Char} {ts : List (List Char)}
    (h : FindsAll found? cs ts) : ∀ {fuel}, cs.length < fuel → findAll found? fuel cs = ts := by
  induction h with
  | nil h =>
    rintro (_ | fuel) -
    · rfl
    · simp only [findAll, h]
  | here h hless _ ih =>
    rintro (_ | fuel) hfuel
    · cases hfuel
    · rw [findAll_of_some h, ih (by omega)]
  | skip h _ ih =>
    rintro (_ | fuel) hfuel
    · cases hfuel
    · rw [findAll_of_none h, ih (Nat.lt_of_succ_lt_succ hfuel)]

end Search

/-! ## Quoted texts in a line -/

section Quoted

/-- Whatever is read begins with a double quote. -/
def StartsWithQuote (quoted? : List Char → Option (List Char × List Char)) : Prop :=
  ∀ cs, cs.head? ≠ some '"' → quoted? cs = none

theorem Text.startsWithQuote_escapedAt? : StartsWithQuote Text.escapedAt? := by
  intro cs h
  unfold Text.escapedAt?
  split
  · exact absurd rfl h
  · rfl

theorem Text.startsWithQuote_literalAt? : StartsWithQuote Text.literalAt? := by
  intro cs h
  unfold Text.literalAt?
  split
  · exact absurd rfl h
  · rfl

variable (quoted? : List Char → Option (List Char × List Char))

/-- The quoted texts in a line, from left to right. -/
def quotedTexts (line : String) : List String :=
  (findAll quoted? (line.length + 1) line.toList).map String.ofList

/-- **A part of a line carries texts**: a search finds them in it, and then what is behind it. -/
def Carries (part : String) (texts : List String) : Prop :=
  ∀ after ts, FindsAll quoted? after ts →
    FindsAll quoted? (part.toList ++ after) (texts.map String.toList ++ ts)

variable {quoted?} {part other : String} {texts others : List String}

theorem Carries.append (h : Carries quoted? part texts) (h' : Carries quoted? other others) :
    Carries quoted? (part ++ other) (texts ++ others) := by
  intro after ts hafter
  simpa using h _ _ (h' after ts hafter)

theorem Carries.quotedTexts (h : Carries quoted? part texts) (hnil : quoted? [] = none) :
    quotedTexts quoted? part = texts := by
  have hall := h [] [] (.nil hnil)
  rw [List.append_nil, List.append_nil] at hall
  have hfuel : part.toList.length < part.length + 1 := Nat.lt_succ_of_le part.length_toList.le
  rw [Testplan.quotedTexts, hall.findAll_eq hfuel]
  simp [Function.comp_def]

theorem StartsWithQuote.findsAll_append (hquoted : StartsWithQuote quoted?) {cs after : List Char}
    (h : '"' ∉ cs) {ts : List (List Char)} (hafter : FindsAll quoted? after ts) :
    FindsAll quoted? (cs ++ after) ts := by
  induction cs with
  | nil => exact hafter
  | cons c cs ih =>
    obtain ⟨hc, hcs⟩ := not_or.mp (List.mem_cons.not.mp h)
    exact .skip (hquoted _ fun hhead => hc (Option.some.inj hhead).symm) (ih hcs)

theorem StartsWithQuote.carries_nil (hquoted : StartsWithQuote quoted?) (h : '"' ∉ part.toList) :
    Carries quoted? part [] :=
  fun _ _ hafter => hquoted.findsAll_append h hafter

theorem StartsWithQuote.carries_append (hquoted : StartsWithQuote quoted?)
    (h : Carries quoted? part texts) (hother : '"' ∉ other.toList) :
    Carries quoted? (part ++ other) texts := by
  simpa using h.append (hquoted.carries_nil hother)

theorem carries_singleton {text : String}
    (h : ∀ rest, quoted? (part.toList ++ rest) = some (text.toList, rest)) (hne : part ≠ "") :
    Carries quoted? part [text] := by
  intro after ts hafter
  refine .here (h after) ?_ hafter
  have hpos : part.toList.length ≠ 0 := fun hzero =>
    hne (String.toList_inj.mp (List.length_eq_zero_iff.mp hzero))
  rw [List.length_append]
  omega

theorem Text.carries_quote (s : String) : Carries escapedAt? (quote s) [s] :=
  carries_singleton (escapedAt?_quote s) fun h => by simpa [quote] using congrArg String.toList h

theorem Text.carries_jsonLiteral (s : String) : Carries literalAt? (jsonLiteral s) [s] :=
  carries_singleton (literalAt?_jsonLiteral s) fun h => by
    simpa [jsonLiteral] using congrArg String.toList h

end Quoted

/-! ## Words with single spaces -/

namespace Text

/-- **Words with one space between any two of them**, and no other blanks. -/
def SingleSpaced (s : String) : Prop :=
  ∃ words : List (List Char), (∀ w ∈ words, w ≠ [] ∧ ∀ c ∈ w, ¬ isBlank c) ∧
    s.toList = [' '].intercalate words

/-- Words with single spaces are what stays as it is on one line. -/
theorem oneLine_eq_self_iff {s : String} : oneLine s = s ↔ SingleSpaced s := by
  have hlist : (oneLine s).toList = [' '].intercalate (words s.toList) := by
    simp [oneLine, Function.comp_def]
  constructor
  · intro h
    have hblank : ∀ w ∈ words s.toList, ∀ c ∈ w, ¬ isBlank c :=
      not_isBlank_of_mem_wordsFrom (by simp)
    refine ⟨words s.toList, fun w hw => ⟨ne_nil_of_mem_wordsFrom w hw, hblank w hw⟩, ?_⟩
    rw [← hlist, h]
  · rintro ⟨ws, hws, hs⟩
    rw [← String.toList_inj, hlist, hs, words_intercalate hws]

theorem map_oneLine_eq_self_iff {texts : List String} :
    texts.map oneLine = texts ↔ ∀ t ∈ texts, SingleSpaced t := by
  simpa [oneLine_eq_self_iff] using List.map_inj_left (f := oneLine) (g := id) (l := texts)

instance (s : String) : Decidable (SingleSpaced s) := decidable_of_iff _ oneLine_eq_self_iff

end Text

/-! ## The data of an action -/

/-- The action is not a note. -/
def Action.IsStep : Action → Prop
  | .custom _ => False
  | _ => True

/-- The data of an action in the order in which a step names them, with the canonical hint of its
element. -/
def Action.arguments : Action → List String
  | .goto url => [url]
  | .click l | .expectVisible l => [l.render]
  | .fill l value => [l.render, value]
  | .expectText t => [t]
  | .upload l path => [path, l.render]
  | .custom _ => []

theorem parse_render_of_locatorOf {hint : String} {l : Locator} (h : locatorOf hint = .ok l) :
    Locator.parse l.render = .ok l := by
  unfold locatorOf at h
  cases hparse : Locator.parse hint <;> rw [hparse] at h <;> cases h
  exact Locator.parse_render_of_parse hparse

/-- **The element that a step acts on is read from its canonical hint.** -/
theorem Step.parse_render_of_action {s : Step} {a : Action} (h : s.action = .ok a) {l : Locator}
    (hl : a.locator? = some l) : Locator.parse l.render = .ok l := by
  obtain ⟨kind, target, value, note⟩ := s
  cases kind with
  | custom =>
    cases h
    cases hl
  | goto | expectText =>
    obtain ⟨t, -, rfl⟩ := map_eq_ok_iff.mp h
    cases hl
  | click | expectVisible =>
    cases target with
    | none => cases h
    | some hint =>
      obtain ⟨l', hread, rfl⟩ := map_eq_ok_iff.mp h
      cases hl
      exact parse_render_of_locatorOf hread
  | fill =>
    cases target with
    | some hint =>
      obtain ⟨l', hread, h⟩ := bind_eq_ok_iff.mp h
      cases h
      cases hl
      exact parse_render_of_locatorOf hread
    | none =>
      cases h
      cases hl
      rfl
  | upload =>
    cases target with
    | some hint =>
      obtain ⟨l', hread, h⟩ := bind_eq_ok_iff.mp h
      obtain ⟨path, -, h⟩ := bind_eq_ok_iff.mp h
      cases h
      cases hl
      exact parse_render_of_locatorOf hread
    | none =>
      obtain ⟨l', hread, h⟩ := bind_eq_ok_iff.mp h
      obtain ⟨path, -, h⟩ := bind_eq_ok_iff.mp h
      cases hread
      cases h
      cases hl
      decide

/-! ## Steps of features -/

namespace Cucumber

/-- The arguments of a step, without quotes and backslashes. -/
def argumentsIn (line : String) : List String := quotedTexts Text.escapedAt? line

theorem carries_argument (s : String) :
    Carries Text.escapedAt? (argument s) [Text.oneLine s] :=
  Text.carries_quote (Text.oneLine s)

theorem carries_plain {s : String} (h : '"' ∉ s.toList) : Carries Text.escapedAt? s [] :=
  Text.startsWithQuote_escapedAt?.carries_nil h

theorem exists_stepText {a : Action} (ha : a.IsStep) (first : Bool) : ∃ k text,
    stepText? first a = some (k, text) ∧
    Carries Text.escapedAt? text (a.arguments.map Text.oneLine) := by
  cases a with
  | goto url => exact ⟨_, _, rfl, (carries_plain (by decide)).append (carries_argument url)⟩
  | click l => exact ⟨_, _, rfl, (carries_plain (by decide)).append (carries_argument _)⟩
  | fill l value =>
    exact ⟨_, _, rfl, (((carries_plain (by decide)).append (carries_argument _)).append
      (carries_plain (by decide))).append (carries_argument value)⟩
  | upload l path =>
    exact ⟨_, _, rfl, (((carries_plain (by decide)).append (carries_argument path)).append
      (carries_plain (by decide))).append (carries_argument _)⟩
  | expectText t => exact ⟨_, _, rfl, (carries_plain (by decide)).append (carries_argument t)⟩
  | expectVisible l =>
    exact ⟨_, _, rfl, (carries_argument _).append (carries_plain (by decide))⟩
  | custom note => exact ha.elim

theorem argumentsIn_actionLine {a : Action} (ha : a.IsStep) (previous : Option Keyword) :
    argumentsIn (actionLine previous a).1 = a.arguments.map Text.oneLine := by
  obtain ⟨k, text, hstep, htext⟩ := exists_stepText ha previous.isNone
  have hword : '"' ∉ (if previous = some k then "And" else k.word).toList := by
    split
    · decide
    · cases k <;> decide
  have hstart := ((carries_plain (s := "    ") (by decide)).append (carries_plain hword)).append
    (carries_plain (s := " ") (by decide))
  unfold actionLine
  rw [hstep]
  exact (hstart.append htext).quotedTexts rfl

theorem getElem?_actionLines {actions : List Action} {i : Nat} {a : Action}
    (h : actions[i]? = some a) (previous : Option Keyword) :
    ∃ k, (actionLines previous actions)[i]? = some (actionLine k a).1 := by
  induction actions generalizing i previous with
  | nil => cases h
  | cons b rest ih =>
    cases i with
    | zero =>
      cases h
      exact ⟨previous, rfl⟩
    | succ i => exact ih h _

end Cucumber

/-! ## Lines of code -/

namespace Playwright

/-- The texts in the expression of a locator. -/
def locatorTexts : Locator → List String
  | .label t | .placeholder t | .text t | .css t => [t]
  | .role r n => [r.name, n]
  | .firstField => [firstFieldCss]
  | .firstOfRole r => [r.tag]
  | .name n => [attrSelector "" "name" n]
  | .inputType t => [attrSelector "input" "type" t]

/-- The data of an action in the order in which a line of code has them. -/
def actionTexts : Action → List String
  | .goto url => [url]
  | .click l | .expectVisible l => locatorTexts l
  | .fill l value => locatorTexts l ++ [value]
  | .expectText t => [t]
  | .upload l path => locatorTexts l ++ [path]
  | .custom _ => []

/-- The texts of the literals in a line of code. -/
def literalsIn (line : String) : List String := quotedTexts Text.literalAt? line

theorem carries_around {part : String} {texts : List String}
    (h : Carries Text.literalAt? part texts) (before after : String)
    (hbefore : '"' ∉ before.toList) (hafter : '"' ∉ after.toList) :
    Carries Text.literalAt? (before ++ part ++ after) texts :=
  Text.startsWithQuote_literalAt?.carries_append
    ((Text.startsWithQuote_literalAt?.carries_nil hbefore).append h) hafter

theorem carries_expression (l : Locator) :
    Carries Text.literalAt? (expression l) (locatorTexts l) := by
  have call (t before after : String) (hbefore : '"' ∉ before.toList)
      (hafter : '"' ∉ after.toList) :
      Carries Text.literalAt? (before ++ literal t ++ after) [t] :=
    carries_around (Text.carries_jsonLiteral t) before after hbefore hafter
  cases l with
  | role r n =>
    have hrole := call r.name "page.getByRole(" ", \x7b name: " (by decide) (by decide)
    exact Text.startsWithQuote_literalAt?.carries_append
      (hrole.append (Text.carries_jsonLiteral n)) (by decide)
  | _ => exact call _ _ _ (by decide) (by decide)

theorem carries_actionLine {a : Action} (ha : a.IsStep) :
    Carries Text.literalAt? (actionLine a) (actionTexts a) := by
  have onElement (l : Locator) (call t : String) (hcall : '"' ∉ call.toList) :
      Carries Text.literalAt? ("await " ++ expression l ++ call ++ literal t ++ ");")
        (locatorTexts l ++ [t]) := by
    have hcalled := carries_around (carries_expression l) "await " call (by decide) hcall
    exact Text.startsWithQuote_literalAt?.carries_append
      (hcalled.append (Text.carries_jsonLiteral t)) (by decide)
  cases a with
  | goto t | expectText t =>
    exact carries_around (Text.carries_jsonLiteral t) _ _ (by decide) (by decide)
  | click l | expectVisible l =>
    exact carries_around (carries_expression l) _ _ (by decide) (by decide)
  | fill l value => exact onElement l _ value (by decide)
  | upload l path => exact onElement l _ path (by decide)
  | custom note => exact ha.elim

theorem literalsIn_actionLine {a : Action} (ha : a.IsStep) :
    literalsIn (actionLine a) = actionTexts a :=
  (carries_actionLine ha).quotedTexts rfl

end Playwright

/-! ## Plans -/

theorem PageGroup.parse_render_of_action {p : Plan} {g : PageGroup} (hg : g ∈ p.groups)
    {c : ReadScenario} (hc : c ∈ g.cases) {a : Action} (ha : a ∈ c.2) {l : Locator}
    (hl : a.locator? = some l) : Locator.parse l.render = .ok l := by
  rw [Plan.cases_of_mem_groups hg] at hc
  obtain ⟨-, hreads⟩ := p.sieved.reads (List.mem_of_mem_filter hc)
  obtain ⟨i, hi, rfl⟩ := List.getElem_of_mem ha
  have hi' : i < c.1.steps.length := hreads.length_eq ▸ hi
  exact Step.parse_render_of_action (hreads.get hi' hi) hl

/-- **What the line of an action carries.**  The literals in a line of code are the data of the
action, and the hint in a step is read as the element.  The arguments of the step are the data
put on one line each, and so they are the data if and only if those are words with single
spaces. -/
theorem Plan.step_arguments_carried_iff {p : Plan} {g : PageGroup} (hg : g ∈ p.groups)
    {c : ReadScenario} (hc : c ∈ g.cases) {i : Nat} {a : Action} (ha : c.2[i]? = some a)
    (hstep : a.IsStep) :
    ∃ step, (Cucumber.actionLines none c.2)[i]? = some step ∧
      Cucumber.argumentsIn step = a.arguments.map Text.oneLine ∧
      (Cucumber.argumentsIn step = a.arguments ↔ ∀ t ∈ a.arguments, Text.SingleSpaced t) ∧
      Playwright.literalsIn (Playwright.actionLine a) = Playwright.actionTexts a ∧
      ∀ l, a.locator? = some l → Locator.parse l.render = .ok l := by
  obtain ⟨k, hline⟩ := Cucumber.getElem?_actionLines ha none
  have hread := Cucumber.argumentsIn_actionLine hstep k
  refine ⟨_, hline, hread, ?_, Playwright.literalsIn_actionLine hstep, fun l hl =>
    PageGroup.parse_render_of_action hg hc (List.mem_of_getElem? ha) hl⟩
  rw [hread]
  exact Text.map_oneLine_eq_self_iff

namespace Sample

/-- A scenario that types a name. -/
def typing (name : String) : Scenario where
  id := "name"
  title := "Name"
  coverage := .statement
  steps := [.goto "/", .fill "label=Name" name]

/-- What the scenario does. -/
def typingActions (name : String) : List Action := [.goto "/", .fill (.label "Name") name]

/-- A plan with the scenario. -/
def typingPlan (name : String) : Plan where
  id := ⟨uuid 1000, 1, none⟩
  baseUrl := "/"
  cases := [typing name]
  info := ⟨"sdet", 1, ⟨0, 0⟩⟩

theorem typing_mem_group (name : String) :
    ∃ g ∈ (typingPlan name).groups, (typing name, typingActions name) ∈ g.cases := by
  have hreads : (typing name).Reads (typingActions name) := .cons rfl (.cons rfl .nil)
  obtain ⟨g, ⟨hg, hc⟩, -⟩ := (typingPlan name).sharedOut.one_group _
    ((typingPlan name).sieved.mem_of_reads (List.mem_singleton_self _) hreads)
  exact ⟨g, hg, hc⟩

end Sample

/-- A name with quotes and a backslash is carried as it is. -/
theorem Plan.quoted_name_carried :
    ∃ g ∈ (Sample.typingPlan "Jo \"Q\" \\").groups, ∃ c ∈ g.cases,
      c.2[1]? = some (.fill (.label "Name") "Jo \"Q\" \\") ∧
      ∃ step, (Cucumber.actionLines none c.2)[1]? = some step ∧
        Cucumber.argumentsIn step = ["label=Name", "Jo \"Q\" \\"] := by
  have hspaced : ∀ t ∈ ["label=Name", "Jo \"Q\" \\"], Text.SingleSpaced t := by decide +kernel
  obtain ⟨g, hg, hc⟩ := Sample.typing_mem_group "Jo \"Q\" \\"
  obtain ⟨step, hline, -, hiff, -⟩ := step_arguments_carried_iff hg hc
    (i := 1) (a := .fill (.label "Name") "Jo \"Q\" \\") rfl trivial
  exact ⟨g, hg, _, hc, rfl, step, hline, hiff.mpr hspaced⟩

/-- Of two spaces in a row the step keeps one, and the line of code keeps both. -/
theorem Plan.double_space_lost :
    ∃ g ∈ (Sample.typingPlan "two  spaces").groups, ∃ c ∈ g.cases, ∃ a step,
      c.2[1]? = some a ∧ a.IsStep ∧ a.arguments = ["label=Name", "two  spaces"] ∧
      (∀ t ∈ a.arguments, Text.Unbroken t) ∧
      Playwright.literalsIn (Playwright.actionLine a) = ["Name", "two  spaces"] ∧
      (Cucumber.actionLines none c.2)[1]? = some step ∧
      Cucumber.argumentsIn step = ["label=Name", "two spaces"] := by
  obtain ⟨g, hg, hc⟩ := Sample.typing_mem_group "two  spaces"
  exact ⟨g, hg, _, hc, _, _, rfl, trivial, rfl, by decide, by decide +kernel, rfl,
    by decide +kernel⟩

end Testplan
