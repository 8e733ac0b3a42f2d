import Testplan.Proofs.DivergingTexts
import Testplan.Proofs.HintRoundTrip
import Testplan.Proofs.PageFiles
/-!
# A correction shows in the line of the action

Healing gives an action another way to find its element (`Locator.Replaced`): the first
element of a role for one with a name, or another kind of locator of the same field.  In every
framework that generates code the names of the two begin differently, and the line of an action
is written around the name of its element (`Around`), so the line is another one
(`Framework.line_ne_of_corrected`).

A note that says nothing else shows the hint itself, and its line changes too: the letters of a
hint tell its kind (`Locator.squeezed_of_parse`).
-/
namespace Testplan

/-! ## Another way to find an element -/

/-- The kinds of locators by which fields are found. -/
def fieldKinds : List LocatorKind := fieldRules.map Prod.fst

/-- **Another way to find an element**: the first of its role for one with a name, and a
locator of another kind for a field. -/
inductive Locator.Replaced : Locator → Locator → Prop
  | role (r : Role) (name : String) : Replaced (.role r name) (.firstOfRole r)
  | field {l new : Locator} (old : l.kind ∈ fieldKinds) (hint : l.kind ≠ .firstField)
      (other : new.kind ∈ fieldKinds) (differ : l.kind ≠ new.kind) : Replaced l new

theorem Locator.Replaced.ne {l new : Locator} (h : l.Replaced new) : l ≠ new := by
  rintro rfl
  cases h with
  | field _ _ _ differ => exact differ rfl

theorem Locator.cases_of_fieldKind {l : Locator} (h : l.kind ∈ fieldKinds) :
    (∃ t, l = .label t) ∨ (∃ t, l = .placeholder t) ∨ (∃ t, l = .name t) ∨
      (∃ t, l = .inputType t) ∨ l = .firstField := by
  cases l <;> simp [Locator.kind, fieldKinds, fieldRules] at h ⊢

/-- Texts for locators diverge where one locator replaces another, if the text for a field
begins with a **lead** that tells the kind of locator. -/
theorem Locator.Replaced.diverge (text : Locator → String) (lead : LocatorKind → String)
    (hlead : ∀ l : Locator, l.kind ∈ fieldKinds →
      (Text.dropPiece? (lead l.kind).toList (text l).toList).isSome)
    (hkinds : ∀ a ∈ fieldKinds, ∀ b ∈ fieldKinds, a ≠ b →
      Text.diverge (lead a).toList (lead b).toList)
    (hrole : ∀ r name, Text.Diverge (text (.role r name)) (text (.firstOfRole r)))
    {l new : Locator} (h : l.Replaced new) : Text.Diverge (text l) (text new) := by
  cases h with
  | role r name => exact hrole r name
  | field old hint other differ =>
    obtain ⟨u, hu⟩ := Option.isSome_iff_exists.mp (hlead l old)
    obtain ⟨v, hv⟩ := Option.isSome_iff_exists.mp (hlead new other)
    rw [Text.Diverge, Text.dropPiece?_eq_some_iff.mp hu, Text.dropPiece?_eq_some_iff.mp hv]
    exact Text.diverge_append_right (hkinds _ old _ other differ) u v

theorem Playwright.diverge_expression {l new : Locator} (h : l.Replaced new) :
    Text.Diverge (expression l) (expression new) := by
  refine h.diverge _ (fun
    | .label => "page.getByLabel("
    | .placeholder => "page.getByPlaceholder("
    | .name => "page.locator(\"[name"
    | .inputType => "page.locator(\"input["
    | _ => "page.locator(\"input,") ?_ (by decide) ?_
  · intro l hl
    rcases Locator.cases_of_fieldKind hl with ⟨t, rfl⟩ | ⟨t, rfl⟩ | ⟨t, rfl⟩ | ⟨t, rfl⟩ | rfl <;>
    · unfold expression
      simp only [Locator.kind, String.toList_append, List.append_assoc, attrSelector, Text.jsonLiteral,
        String.toList_ofList, List.flatMap_append, List.cons_append]
      rfl
  · intro r name
    unfold expression Text.Diverge
    simp only [String.toList_append, List.append_assoc]
    rfl

theorem Cypress.diverge_expression {l new : Locator} (h : l.Replaced new) :
    Text.Diverge (expression l) (expression new) := by
  refine h.diverge _ (fun
    | .label => "cy.findByLabelText("
    | .placeholder => "cy.findByPlaceholderText("
    | .name => "cy.get(\"[name"
    | .inputType => "cy.get(\"input["
    | _ => "cy.get(\"input,") ?_ (by decide) ?_
  · intro l hl
    rcases Locator.cases_of_fieldKind hl with ⟨t, rfl⟩ | ⟨t, rfl⟩ | ⟨t, rfl⟩ | ⟨t, rfl⟩ | rfl <;>
    · unfold expression
      simp only [Locator.kind, String.toList_append, List.append_assoc, attrSelector, Text.jsonLiteral,
        String.toList_ofList, List.flatMap_append, List.cons_append]
      rfl
  · intro r name
    unfold expression Text.Diverge
    simp only [String.toList_append, List.append_assoc]
    rfl

theorem Appium.diverge_selector {l new : Locator} (h : l.Replaced new) :
    Text.Diverge (literal (selector l)) (literal (selector new)) := by
  refine h.diverge (fun l => literal (selector l)) (fun
    | .label => "\"~"
    | .placeholder => "\"//*[@placeholder"
    | .name => "\"//*[@name"
    | .inputType => "\"//input["
    | _ => "\"(//input") ?_ (by decide) ?_
  · intro l hl
    rcases Locator.cases_of_fieldKind hl with ⟨t, rfl⟩ | ⟨t, rfl⟩ | ⟨t, rfl⟩ | ⟨t, rfl⟩ | rfl <;>
    · unfold selector
      simp only [Locator.kind, String.toList_append, List.append_assoc, Text.jsonLiteral,
        String.toList_ofList, List.flatMap_append, List.cons_append]
      rfl
  · intro r name
    unfold selector Text.Diverge
    cases r <;>
    simp only [String.toList_append, List.append_assoc, Text.jsonLiteral, String.toList_ofList,
      List.flatMap_append, List.cons_append] <;>
    rfl

/-- An argument that begins with a word of plain characters is written with it in front. -/
theorem Cucumber.dropPiece?_argument (w lead : String)
    (hplain : (w.toList.all fun c => !Text.isBlank c && c != '\\' && c != '"') = true)
    (hne : w.toList ≠ []) (hlead : lead.toList = '"' :: w.toList) (t : String) :
    (Text.dropPiece? lead.toList (argument (w ++ t)).toList).isSome := by
  have hw : ∀ c ∈ w.toList, ¬ Text.isBlank c ∧ c ≠ '\\' ∧ c ≠ '"' := fun c hc => by
    simpa [and_assoc] using List.all_eq_true.mp hplain c hc
  obtain ⟨rest, hrest⟩ := Text.prefix_oneLine (fun c hc => (hw c hc).1) hne t.toList
  rw [← String.toList_append, String.ofList_toList] at hrest
  have hescape : w.toList.flatMap (fun c => if c = '\\' ∨ c = '"' then ['\\', c] else [c]) =
      w.toList := by
    refine (List.flatMap_congr fun c hc => ?_).trans (List.flatMap_singleton' _)
    exact if_neg (not_or.mpr (hw c hc).2)
  have hargument : (argument (w ++ t)).toList = lead.toList ++
      (rest.flatMap (fun c => if c = '\\' ∨ c = '"' then ['\\', c] else [c]) ++ ['"']) := by
    simp only [argument, String.toList_append, String.toList_ofList, ← hrest, List.flatMap_append,
      hescape, hlead, List.append_assoc]
    rfl
  rw [Text.dropPiece?_eq_some_iff.mpr hargument]
  rfl

theorem Cucumber.diverge_argument {l new : Locator} (h : l.Replaced new) :
    Text.Diverge (argument (expression l)) (argument (expression new)) := by
  refine h.diverge (fun l => argument (expression l)) (fun
    | .label => "\"label="
    | .placeholder => "\"placeholder="
    | .name => "\"name="
    | .inputType => "\"type="
    | _ => "\"field") ?_ (by decide) ?_
  · intro l hl
    rcases Locator.cases_of_fieldKind hl with ⟨t, rfl⟩ | ⟨t, rfl⟩ | ⟨t, rfl⟩ | ⟨t, rfl⟩ | rfl
    · exact dropPiece?_argument "label=" "\"label=" (by decide) (by decide) (by decide) t
    · exact dropPiece?_argument "placeholder=" "\"placeholder=" (by decide) (by decide) (by decide) t
    · exact dropPiece?_argument "name=" "\"name=" (by decide) (by decide) (by decide) t
    · exact dropPiece?_argument "type=" "\"type=" (by decide) (by decide) (by decide) t
    · decide
  · intro r name
    -- the hint of a named element goes on where that of the first element ends
    have hname : (Text.dropPiece? ("\"" ++ (r.name ++ "=")).toList
        (argument (r.name ++ "=" ++ name)).toList).isSome := by
      cases r <;> exact dropPiece?_argument _ _ (by decide) (by decide) (by decide) name
    obtain ⟨rest, hrest⟩ := Option.isSome_iff_exists.mp hname
    have halone : argument r.name = "\"" ++ (r.name ++ "\"") := by cases r <;> decide
    show Text.Diverge (argument (r.name ++ "=" ++ name)) (argument r.name)
    rw [Text.Diverge, Text.dropPiece?_eq_some_iff.mp hrest, halone]
    simp only [String.toList_append, List.append_assoc, Text.diverge_append_left]
    rfl

/-! ## The kind of a hint, read off its letters -/

/-- The word for the kind of a locator that goes by a text. -/
def Locator.word? : Locator → Option String
  | .label _ => some "label"
  | .placeholder _ => some "placeholder"
  | .name _ => some "name"
  | .inputType _ => some "type"
  | .text _ => some "text"
  | .css _ => some "css"
  | .role r _ => some r.name
  | .firstField | .firstOfRole _ => none

theorem Locator.word?_of_ofKind? {word : String} {build : String → Locator}
    (h : ofKind? word = some build) (t : String) : (build t).word? = some word := by
  unfold ofKind? at h
  split at h <;> first | (cases h; rfl) | cases h

theorem Locator.equals_notMem_word {l : Locator} {word : String} (h : l.word? = some word) :
    '=' ∉ word.toList ∧ ∀ c ∈ word.toList, ¬ Text.isBlank c := by
  cases l with
  | role r => cases r <;> cases h <;> exact ⟨by decide, List.any_eq_false.mp (by decide)⟩
  | firstField | firstOfRole => cases h
  | _ => cases h; exact ⟨by decide, List.any_eq_false.mp (by decide)⟩

theorem Locator.ofKind?_of_word? {l : Locator} {word : String} (h : l.word? = some word) :
    ∃ build t, ofKind? word = some build ∧ l = build t := by
  cases l with
  | role r t => cases r <;> cases h <;> exact ⟨_, t, rfl, rfl⟩
  | firstField | firstOfRole => cases h
  | label t | placeholder t | name t | inputType t | text t | css t =>
    cases h
    exact ⟨_, t, rfl, rfl⟩

theorem Locator.kind_of_word? {l new : Locator} {word : String} (h : l.word? = some word)
    (hnew : new.word? = some word) : l.kind = new.kind := by
  obtain ⟨build, t, hbuild, rfl⟩ := ofKind?_of_word? h
  obtain ⟨_, u, hbuild', rfl⟩ := ofKind?_of_word? hnew
  cases hbuild.symm.trans hbuild'
  unfold ofKind? at hbuild
  split at hbuild <;> cases hbuild <;> rfl

theorem Locator.render_of_word? {l : Locator} {word : String} (h : l.word? = some word) :
    ∃ t, l.render = word ++ "=" ++ t := by
  cases l <;> cases h <;> exact ⟨_, rfl⟩

/-- A hint of this kind is the word for the kind, an equals sign and a text, up to blanks. -/
theorem Locator.squeezed_of_parse {hint : String} {l : Locator} (h : parse hint = .ok l)
    {word : String} (hw : l.word? = some word) (hcss : l.kind ≠ .css) :
    ∃ rest, Text.squeezed hint = word.toList ++ '=' :: rest := by
  have css (h : Except.ok (.css (Text.strip hint)) = (.ok l : Except HintError Locator)) :
      l.kind = .css := by
    cases h
    rfl
  unfold parse ofStripped at h
  split at h
  · cases h
  · split at h
    · cases h
      cases hw
    · split at h
      · cases h
        cases hw
      · split at h
        · cases h
          cases hw
        · split at h
          · exact absurd (css h) hcss
          · next before after hcut =>
            dsimp only at h
            split at h
            · exact absurd (css h) hcss
            · next build hbuild =>
              split at h
              · cases h
              · cases h
                cases (word?_of_ofKind? hbuild _).symm.trans hw
                have hstrip : Text.strip hint =
                    String.ofList before ++ "=" ++ String.ofList after := by
                  rw [← String.toList_inj, (Text.cutAtChar_eq_some_iff.mp hcut).1]
                  simp
                have hword : Text.squeezed (Text.strip (String.ofList before)) =
                    (Text.strip (String.ofList before)).toList :=
                  Text.filter_not_blank (equals_notMem_word hw).2
                refine ⟨Text.squeezed (String.ofList after), ?_⟩
                rw [← Text.squeezed_strip, hstrip, Text.squeezed_append, Text.squeezed_append,
                  ← Text.squeezed_strip (String.ofList before), hword, List.append_assoc]
                rfl

/-- The line of a hint does not look like that of what replaces the hint. -/
theorem Locator.Replaced.oneLine_ne {hint : String} {l new : Locator} (h : l.Replaced new)
    (hl : parse hint = .ok l) : Text.oneLine hint ≠ Text.oneLine new.render := by
  intro heq
  have hsqueezed : Text.squeezed hint = Text.squeezed new.render := by
    rw [← Text.squeezed_oneLine, heq, Text.squeezed_oneLine]
  cases h with
  | role r name =>
    obtain ⟨rest, hrest⟩ := squeezed_of_parse hl rfl nofun
    have hequals : '=' ∈ Text.squeezed (Locator.firstOfRole r).render := by
      rw [← hsqueezed, hrest]
      simp
    revert hequals
    cases r <;> decide
  | field old hint' other differ =>
    obtain ⟨word, hword, hcss⟩ : ∃ word, l.word? = some word ∧ l.kind ≠ .css := by
      rcases cases_of_fieldKind old with ⟨t, rfl⟩ | ⟨t, rfl⟩ | ⟨t, rfl⟩ | ⟨t, rfl⟩ | rfl
      · exact ⟨_, rfl, nofun⟩
      · exact ⟨_, rfl, nofun⟩
      · exact ⟨_, rfl, nofun⟩
      · exact ⟨_, rfl, nofun⟩
      · exact absurd rfl hint'
    obtain ⟨rest, hrest⟩ := squeezed_of_parse hl hword hcss
    cases hnew : new.word? with
    | none =>
      have hequals : '=' ∈ Text.squeezed new.render := by
        rw [← hsqueezed, hrest]
        simp
      cases new with
      | firstField => exact absurd hequals (by decide)
      | firstOfRole r => cases r <;> exact absurd hequals (by decide)
      | _ => cases hnew
    | some other' =>
      obtain ⟨t, ht⟩ := render_of_word? hnew
      have hother : Text.squeezed new.render = other'.toList ++ '=' :: Text.squeezed t := by
        rw [ht, Text.squeezed_append, Text.squeezed_append, Text.squeezed,
          Text.filter_not_blank (equals_notMem_word hnew).2, List.append_assoc]
        rfl
      have hcut : Text.cutAtChar '=' (word.toList ++ '=' :: rest) = some (word.toList, rest) :=
        Text.cutAtChar_append (equals_notMem_word hword).1
      rw [← hrest, hsqueezed, hother, Text.cutAtChar_append (equals_notMem_word hnew).1] at hcut
      have hsame : other' = word := String.toList_inj.mp (Prod.mk.inj (Option.some.inj hcut)).1
      exact differ (kind_of_word? hword (hsame ▸ hnew))

/-! ## Corrected actions -/

/-- The locator of the element that an action acts on. -/
def Action.locator? : Action → Option Locator
  | .click l | .fill l _ | .expectVisible l | .upload l _ => some l
  | .goto _ | .expectText _ | .custom _ => none

/-- The same action on another element. -/
def Action.onto (l : Locator) : Action → Action
  | .click _ => .click l
  | .fill _ value => .fill l value
  | .expectVisible _ => .expectVisible l
  | .upload _ path => .upload l path
  | .goto url => .goto url
  | .expectText t => .expectText t
  | .custom note => .custom note

/-- **What a correction makes of an action**: the same action on an element that is found in
another way, and for a note that shows a hint the hint of that other way. -/
inductive Action.Corrected : Action → Action → Prop
  | locator {a : Action} {l new : Locator} (acts : a.locator? = some l)
      (replaced : l.Replaced new) : a.Corrected (a.onto new)
  | note {hint : String} {l new : Locator} (read : Locator.parse hint = .ok l)
      (replaced : l.Replaced new) : Corrected (.custom hint) (.custom new.render)

theorem Action.onto_self {a : Action} {l : Locator} (h : a.locator? = some l) : a.onto l = a := by
  cases a <;> cases h <;> rfl

/-! ## Lines of corrected actions -/

namespace Framework

/-- How the lines of a framework name an element. -/
def naming : Framework → Locator → String
  | playwright, l => Playwright.expression l
  | cypress, l => Cypress.expression l
  | cucumber, l => Cucumber.argument (Cucumber.expression l)
  | appium, l => literal (Appium.selector l)
  | xctest, l => nativeExpression l

theorem diverge_naming {f : Framework} (hf : f ≠ .xctest) {l new : Locator}
    (h : l.Replaced new) : Text.Diverge (f.naming l) (f.naming new) := by
  cases f with
  | playwright => exact Playwright.diverge_expression h
  | cypress => exact Cypress.diverge_expression h
  | cucumber => exact Cucumber.diverge_argument h
  | appium => exact Appium.diverge_selector h
  | xctest => exact absurd rfl hf

end Framework

/-- A text is written around the name of an element. -/
def Around (naming : Locator → String) (text : Locator → String) : Prop :=
  ∃ before after, ∀ l, text l = before ++ (naming l ++ after)

theorem Around.ne {naming text : Locator → String} (h : Around naming text) {l new : Locator}
    (hdiverge : Text.Diverge (naming l) (naming new)) : text l ≠ text new := by
  obtain ⟨before, after, htext⟩ := h
  rw [htext, htext]
  exact (Text.diverge_behind_iff.mpr (hdiverge.before after after)).ne

/-- A text is written around whatever a part of it is written around. -/
theorem Around.trans {naming part text : Locator → String} (h : Around naming part)
    (ht : Around part text) : Around naming text := by
  obtain ⟨before, after, hpart⟩ := h
  obtain ⟨front, back, htext⟩ := ht
  refine ⟨front ++ before, after ++ back, fun l => ?_⟩
  rw [htext, hpart]
  simp only [String.append_assoc]

theorem Around.behind {naming text : Locator → String} (h : Around naming text) (lead : String) :
    Around naming fun l => lead ++ text l :=
  h.trans ⟨lead, "", fun _ => by rw [String.append_empty]⟩

theorem Playwright.around_actionLine {a : Action} {l : Locator} (h : a.locator? = some l) :
    Around expression fun new => actionLine (a.onto new) := by
  cases a with
  | click => exact ⟨"await ", ".click();", fun _ => String.append_assoc⟩
  | fill _ value =>
    refine ⟨"await ", ".fill(" ++ literal value ++ ");", fun _ => ?_⟩
    simp only [← String.append_assoc]
    rfl
  | expectVisible => exact ⟨"await expect(", ").toBeVisible();", fun _ => String.append_assoc⟩
  | upload _ path =>
    refine ⟨"await ", ".setInputFiles(" ++ literal path ++ ");", fun _ => ?_⟩
    simp only [← String.append_assoc]
    rfl
  | goto | expectText | custom => cases h

theorem Cypress.around_actionLine {a : Action} {l : Locator} (h : a.locator? = some l) :
    Around expression fun new => actionLine (a.onto new) := by
  cases a with
  | click => exact ⟨"", ".click();", fun _ => String.empty_append.symm⟩
  | fill _ value =>
    by_cases hvalue : value.isEmpty
    · exact ⟨"", ".clear();", fun _ => (if_pos hvalue).trans String.empty_append.symm⟩
    · refine ⟨"", ".clear().type(" ++ literal value ++ ", \x7b parseSpecialCharSequences: false \x7d);",
        fun _ => (if_neg hvalue).trans ?_⟩
      simp only [String.empty_append, String.append_assoc]
  | expectVisible => exact ⟨"", ".should(\"be.visible\");", fun _ => String.empty_append.symm⟩
  | upload _ path =>
    refine ⟨"", ".selectFile(" ++ literal path ++ ");", fun _ => ?_⟩
    simp only [String.empty_append, ← String.append_assoc]
    rfl
  | goto | expectText | custom => cases h

theorem Appium.around_expression : Around (fun l => literal (selector l)) expression :=
  ⟨"driver.$(", ")", fun _ => String.append_assoc⟩

theorem Appium.around_actionLine {a : Action} {l : Locator} (h : a.locator? = some l) :
    Around (fun l => literal (selector l)) fun new => actionLine (a.onto new) := by
  cases a with
  | click => exact around_expression.trans ⟨"await ", ".click();", fun _ => String.append_assoc⟩
  | fill _ value =>
    refine around_expression.trans ⟨"await ", ".setValue(" ++ literal value ++ ");", fun _ => ?_⟩
    simp only [← String.append_assoc]
    rfl
  | expectVisible =>
    exact around_expression.trans ⟨"await ", ".waitForDisplayed();", fun _ => String.append_assoc⟩
  | upload _ path =>
    refine ⟨"await upload(driver, ", ", " ++ literal path ++ ");", fun _ => ?_⟩
    simp only [← String.append_assoc]
    rfl
  | goto | expectText | custom => cases h

/-- An action on an element has a keyword whatever the element, and its text names it. -/
theorem Cucumber.stepText?_onto {a : Action} {l : Locator} (h : a.locator? = some l)
    (first : Bool) : ∃ keyword text, Around (fun l => argument (expression l)) text ∧
      ∀ new, stepText? first (a.onto new) = some (keyword, text new) := by
  cases a with
  | click => exact ⟨_, _, ⟨"I click ", "", fun _ => by rw [String.append_empty]⟩, fun _ => rfl⟩
  | fill _ value =>
    refine ⟨_, _, ⟨"I fill ", " with " ++ argument value, fun _ => ?_⟩, fun _ => rfl⟩
    simp only [String.append_assoc]
  | expectVisible =>
    exact ⟨_, _, ⟨"", " should be visible", fun _ => String.empty_append.symm⟩, fun _ => rfl⟩
  | upload _ path =>
    refine ⟨_, _, ⟨"I upload " ++ argument path ++ " to ", "", fun _ => ?_⟩, fun _ => rfl⟩
    rw [String.append_empty]
  | goto | expectText | custom => cases h

theorem Cucumber.around_actionLine {a : Action} {l : Locator} (h : a.locator? = some l)
    (previous : Option Keyword) :
    Around (fun l => argument (expression l)) fun new => (actionLine previous (a.onto new)).1 := by
  obtain ⟨keyword, text, haround, hstep⟩ := stepText?_onto h previous.isNone
  simp only [actionLine, hstep]
  exact haround.behind _

namespace Framework

/-- The line of an action on an element is written around the name of the element. -/
theorem around_line {f : Framework} {lay : Layout} (hf : f.layout? = some lay) {a : Action}
    {l : Locator} (h : a.locator? = some l) (before : List Action) :
    Around f.naming fun new => lay.line before (a.onto new) := by
  cases f <;> cases hf
  · exact (Playwright.around_actionLine h).behind _
  · exact (Cypress.around_actionLine h).behind _
  · exact Cucumber.around_actionLine h _
  · exact (Appium.around_actionLine h).behind _

/-- The line of a note ends in the note, on one line. -/
theorem line_custom {f : Framework} {lay : Layout} (hf : f.layout? = some lay)
    (before : List Action) :
    ∃ lead, ∀ note, lay.line before (.custom note) = lead ++ Text.oneLine note := by
  cases f <;> cases hf
  · exact ⟨"  // ", fun _ => String.append_assoc.symm⟩
  · exact ⟨"    // ", fun _ => String.append_assoc.symm⟩
  · exact ⟨"    # ", fun _ => rfl⟩
  · exact ⟨"    // ", fun _ => String.append_assoc.symm⟩

/-- **A corrected action has another line.** -/
theorem line_ne_of_corrected {f : Framework} {lay : Layout} (hf : f.layout? = some lay)
    {a b : Action} (h : a.Corrected b) (before : List Action) :
    lay.line before a ≠ lay.line before b := by
  cases h with
  | locator acts replaced =>
    have hcode : f ≠ .xctest := by
      rintro rfl
      cases hf
    have hne := (around_line hf acts before).ne (diverge_naming hcode replaced)
    rwa [Action.onto_self acts] at hne
  | note read replaced =>
    obtain ⟨lead, hlead⟩ := line_custom hf before
    rw [hlead, hlead, ne_eq, String.append_right_inj]
    exact replaced.oneLine_ne read

end Framework

end Testplan
