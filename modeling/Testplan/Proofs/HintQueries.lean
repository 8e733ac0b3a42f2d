import Testplan.Proofs.GeneratedCode
import Testplan.Proofs.HintGrammar
import Testplan.Proofs.LocatorReading
/-!
# Hints read by the step definitions

The step definitions of a Cucumber project read hints with a function of their own, which cuts
a hint at its first equals sign and asks the page for what the word before it says.  A
Playwright project has no hints: its code asks the page by the expression of the locator.

Both are code of the generated projects (`Cucumber.lines_locate`, `Playwright.expression_eq`),
and both ask for the same, except that they quote texts in selectors of attributes in two ways
(`Cucumber.found?_render`, `Playwright.value?_call`).  The two ways differ only in controls below
the space (`literal_eq_quote_iff`), so every hint is read as it is meant unless it names an
attribute whose text has such a control (`Cucumber.found?_render_eq_iff`).
-/
namespace Testplan

open CodeUnits Code

/-! ## Two ways to quote -/

/-- The control characters. -/
def Text.IsControl (c : Char) : Prop := c.toNat < 0x20 ∨ 0x7F ≤ c.toNat ∧ c.toNat < 0xA0

instance (c : Char) : Decidable (Text.IsControl c) := inferInstanceAs (Decidable (_ ∨ _))

/-- From the space on, only quotes and backslashes are escaped in a literal. -/
theorem Text.jsonChar_of_le {c : Char} (h : 0x20 ≤ c.toNat) :
    jsonChar c = if c = '\\' ∨ c = '"' then ['\\', c] else [c] := by
  by_cases hquote : c = '"'
  · subst hquote
    rfl
  · by_cases hslash : c = '\\'
    · subst hslash
      rfl
    · have hcontrol (d : Char) (hd : d.toNat < 0x20) : c ≠ d := by
        rintro rfl
        omega
      rw [jsonChar, if_neg hquote, if_neg hslash, if_neg (hcontrol '\x08' (by decide)),
        if_neg (hcontrol '\t' (by decide)), if_neg (hcontrol '\n' (by decide)),
        if_neg (hcontrol '\x0c' (by decide)), if_neg (hcontrol '\r' (by decide)),
        if_neg (Nat.not_lt.mpr h), if_neg (not_or.mpr ⟨hslash, hquote⟩)]

/-- Below the space, a literal escapes every character. -/
theorem Text.jsonChar_of_lt {c : Char} (h : c.toNat < 0x20) :
    ∃ rest, jsonChar c = '\\' :: rest := by
  obtain ⟨letter, hchar, -⟩ | ⟨-, hchar⟩ | ⟨-, -, hhigh, -⟩ := jsonChar_cases c
  · exact ⟨_, hchar⟩
  · exact ⟨_, hchar⟩
  · exact absurd h hhigh

/-- **A text is the same as a literal and between quotes** unless it has a control below the
space. -/
theorem literal_eq_quote_iff {s : String} :
    literal s = Text.quote s ↔ ∀ c ∈ s.toList, 0x20 ≤ c.toNat := by
  have hchars (cs : List Char) :
      cs.flatMap Text.jsonChar = Text.escape cs ↔ ∀ c ∈ cs, 0x20 ≤ c.toNat := by
    induction cs with
    | nil => simp [Text.escape]
    | cons c cs ih =>
      have hcons : Text.escape (c :: cs) =
          (if c = '\\' ∨ c = '"' then ['\\', c] else [c]) ++ Text.escape cs := List.flatMap_cons
      rw [List.flatMap_cons, hcons, List.forall_mem_cons, ← ih]
      by_cases hc : 0x20 ≤ c.toNat
      · rw [Text.jsonChar_of_le hc, List.append_cancel_left_eq, and_iff_right hc]
      · -- a control stands between quotes as it is, and begins with a backslash in a literal
        have hslash : c ≠ '\\' := by
          rintro rfl
          exact hc (by decide)
        have hquote : c ≠ '"' := by
          rintro rfl
          exact hc (by decide)
        obtain ⟨rest, hrest⟩ := Text.jsonChar_of_lt (Nat.lt_of_not_le hc)
        rw [hrest, if_neg (not_or.mpr ⟨hslash, hquote⟩)]
        simp [hc, Ne.symm hslash]
  rw [literal, Text.jsonLiteral, Text.quote, ← String.toList_inj]
  simpa using hchars s.toList

/-! ## Queries -/

/-- **The query for an element**, given how selectors quote a text. -/
def Locator.query (quoted : String → String) : Locator → Query
  | label t => .label (ofText t)
  | placeholder t => .placeholder (ofText t)
  | role r n => .role (ofText r.name) (ofText n)
  | text t => .text (ofText t)
  | firstField => .first (.locator (ofText firstFieldCss))
  | firstOfRole r => .first (.locator (ofText r.tag))
  | name n => .locator (ofText ("[name=" ++ quoted n ++ "]"))
  | inputType t => .locator (ofText ("input[type=" ++ quoted t ++ "]"))
  | css s => .locator (ofText s)

/-- The way of quoting matters only for locators by attributes. -/
theorem Locator.query_eq_iff {quoted quoted' : String → String} {l : Locator} :
    l.query quoted = l.query quoted' ↔
      (l.kind = .name ∨ l.kind = .inputType → ∀ t, l.payload = some t → quoted t = quoted' t) := by
  cases l with
  | name n => simp [query, kind, payload, ofText_inj]
  | inputType t => simp [query, kind, payload, ofText_inj]
  | label | placeholder | role | text | firstField | firstOfRole | css => simp [query, kind]

namespace Code

/-- Asks the page by a method. -/
def ask (method : String) (args : List Expr) : Expr := .call (.name "page") method args

/-- The first of what an expression finds. -/
def first (e : Expr) : Expr := .call e "first" []

/-- Asks the page for the elements with an attribute that is the text `value`. -/
def byAttribute (before : String) : Expr :=
  ask "locator" [.template before (.call (.name "JSON") "stringify" [.name "value"]) "]"]

end Code

/-! ## The function that reads hints -/

namespace Cucumber

/-- What the page is asked for by the word before the equals sign. -/
def hintClauses : List (List String × Expr) := [
  (["label"], ask "getByLabel" [.name "value"]),
  (["placeholder"], ask "getByPlaceholder" [.name "value"]),
  (["name"], byAttribute "[name="),
  (["type"], byAttribute "input[type="),
  (["button", "link"], ask "getByRole" [.name "prefix", .object "name" (.name "value")]),
  (["text"], ask "getByText" [.name "value"]),
  (["css"], ask "locator" [.name "value"])]

/-- **The function that reads hints.** -/
def locate : Function where
  name := "locate"
  params := ["page", "hint"]
  body := [
    .returnIf (.same (.name "hint") (.text "field"))
      (first (ask "locator" [.text "input, textarea, select"])),
    .returnIf (.same (.name "hint") (.text "button")) (first (ask "locator" [.text "button"])),
    .returnIf (.same (.name "hint") (.text "link")) (first (ask "locator" [.text "a"])),
    .const "eq" (.call (.name "hint") "indexOf" [.text "="]),
    .const "prefix" (.either (.above (.name "eq") (.number 0))
      (.call (.name "hint") "slice" [.number 0, .name "eq"]) (.text "")),
    .const "value" (.either (.above (.name "eq") (.number 0))
      (.call (.name "hint") "slice" [.plus (.name "eq") (.number 1)]) (.text "")),
    .switch (.name "prefix") hintClauses (ask "locator" [.name "hint"])]

/-- **The step definitions hold the function**, as it is written. -/
theorem lines_locate (s : RenderSettings) (url : String) :
    ∃ lines, (stepsFile s url).content = ofLines lines ∧ locate.lines <:+: lines := by
  refine ⟨_, rfl, ?_⟩
  -- it begins behind the settings, which are the only lines that are not fixed
  refine List.IsInfix.trans ?_ (List.drop_suffix 7 _).isInfix
  refine List.IsInfix.trans ?_ (List.take_prefix 27 _).isInfix
  simp only [List.drop_succ_cons, List.drop_zero, List.take_succ_cons, List.take_zero]
  decide +kernel

/-- What the function returns for a hint. -/
def found? (hint : CodeUnits) : Option Value := locate.result? [.page, .text hint]

/-- The values of names at the start of the function. -/
def hintEnv (hint : CodeUnits) : Expr.Env :=
  [("page", .page), ("hint", .text hint), ("JSON", .json)]

/-- The values of names where the function chooses by the word before the equals sign. -/
def cutEnv (before after : CodeUnits) : Expr.Env :=
  ("value", .text after) :: ("prefix", .text before) :: ("eq", .number before.length) ::
    hintEnv (before ++ 0x3D :: after)

/-- **A hint is cut at its first equals sign.** -/
theorem found?_cut {before after : CodeUnits} (hne : before ≠ []) (hsep : 0x3D ∉ before) :
    found? (before ++ 0x3D :: after) =
      (Stmt.chosen hintClauses (ask "locator" [.name "hint"]) before).value?
        (cutEnv before after) := by
  have hstart : found? (before ++ 0x3D :: after) =
      Stmt.run (hintEnv (before ++ 0x3D :: after)) locate.body := rfl
  -- the words that are hints by themselves contain no equals sign
  have hword (w : String) (hw : 0x3D ∉ ofText w) :
      (Expr.same (.name "hint") (.text w)).value? (hintEnv (before ++ 0x3D :: after)) =
        some (.truth false) := by
    have hother : before ++ 0x3D :: after ≠ ofText w := by
      intro h
      exact hw (h ▸ List.mem_append_right before List.mem_cons_self)
    simp [Expr.value?, hintEnv, List.lookup_cons, Value.same?, hother]
  have heq : ofText "=" = [0x3D] := by decide
  have hindex : (Expr.call (.name "hint") "indexOf" [.text "="]).value?
      (hintEnv (before ++ 0x3D :: after)) = some (.number before.length) := by
    simp [Expr.value?, Expr.values?, hintEnv, List.lookup_cons, Value.method?, heq, indexOf_cut hsep]
  have hpos : 0 < before.length := List.length_pos_iff.mpr hne
  have hprefix : (Expr.either (.above (.name "eq") (.number 0))
      (.call (.name "hint") "slice" [.number 0, .name "eq"]) (.text "")).value?
      (("eq", .number before.length) :: hintEnv (before ++ 0x3D :: after)) =
        some (.text before) := by
    simp [Expr.value?, Expr.values?, hintEnv, List.lookup_cons, Value.method?, Value.above?,
      Value.choose?, hpos, slice_before]
  have hvalue : (Expr.either (.above (.name "eq") (.number 0))
      (.call (.name "hint") "slice" [.plus (.name "eq") (.number 1)]) (.text "")).value?
      (("prefix", .text before) :: ("eq", .number before.length) ::
        hintEnv (before ++ 0x3D :: after)) = some (.text after) := by
    simp [Expr.value?, Expr.values?, hintEnv, List.lookup_cons, Value.method?, Value.above?,
      Value.choose?, Value.plus?, hpos, slice_behind]
  rw [hstart, locate, Stmt.run_returnIf_false (hword "field" (by decide)),
    Stmt.run_returnIf_false (hword "button" (by decide)),
    Stmt.run_returnIf_false (hword "link" (by decide)), Stmt.run_const hindex,
    Stmt.run_const hprefix, Stmt.run_const hvalue, Stmt.run_switch rfl]
  rfl

/-- A kind of locator, an equals sign and a text. -/
theorem found?_kind (kind : String) (hkind : kind ∈ Locator.kindWords) (t : String) :
    found? (ofText (kind ++ "=" ++ t)) =
      (Stmt.chosen hintClauses (ask "locator" [.name "hint"]) (ofText kind)).value?
        (cutEnv (ofText kind) (ofText t)) := by
  have hunits : ofText (kind ++ "=" ++ t) = ofText kind ++ 0x3D :: ofText t := by
    rw [ofText_append, ofText_append, List.append_assoc]
    rfl
  have hkinds : ∀ kind ∈ Locator.kindWords, ofText kind ≠ [] ∧ 0x3D ∉ ofText kind := by decide
  rw [hunits, found?_cut (hkinds kind hkind).1 (hkinds kind hkind).2]

theorem value?_byAttribute (before kind t : String) :
    (byAttribute before).value? (cutEnv (ofText kind) (ofText t)) =
      some (.query (.locator (ofText (before ++ literal t ++ "]")))) := by
  rw [ofText_append, ofText_append, ← stringify_ofText]
  rfl

/-- **What the function asks the page for**: selectors quote texts as literals. -/
theorem found?_render (l : Locator) :
    found? (ofText l.render) = some (.query (l.query literal)) := by
  cases l with
  | label t => exact (found?_kind "label" (by decide) t).trans rfl
  | placeholder t => exact (found?_kind "placeholder" (by decide) t).trans rfl
  | name n => exact (found?_kind "name" (by decide) n).trans (value?_byAttribute "[name=" "name" n)
  | inputType t =>
    exact (found?_kind "type" (by decide) t).trans (value?_byAttribute "input[type=" "type" t)
  | firstField => decide +kernel
  | role r n =>
    cases r with
    | button => exact (found?_kind "button" (by decide) n).trans rfl
    | link => exact (found?_kind "link" (by decide) n).trans rfl
  | firstOfRole r => cases r <;> decide +kernel
  | text t => exact (found?_kind "text" (by decide) t).trans rfl
  | css s => exact (found?_kind "css" (by decide) s).trans rfl

end Cucumber

namespace Playwright

/-- The expression that finds an element, as data. -/
def call : Locator → Expr
  | .label t => ask "getByLabel" [.text t]
  | .placeholder t => ask "getByPlaceholder" [.text t]
  | .role r n => ask "getByRole" [.text r.name, .object "name" (.text n)]
  | .text t => ask "getByText" [.text t]
  | .firstField => first (ask "locator" [.text firstFieldCss])
  | .firstOfRole r => first (ask "locator" [.text r.tag])
  | .name n => ask "locator" [.text (attrSelector "" "name" n)]
  | .inputType t => ask "locator" [.text (attrSelector "input" "type" t)]
  | .css s => ask "locator" [.text s]

/-- **The expression that finds an element** is the text of a call on the page. -/
theorem expression_eq (l : Locator) : expression l = (call l).written := by
  cases l with
  | label t => rfl
  | placeholder t => rfl
  | role r n =>
    -- the two sides put the text together from different pieces
    show "page.getByRole(" ++ literal r.name ++ ", \x7b name: " ++ literal n ++ " \x7d)" =
      "page" ++ "." ++ "getByRole" ++ "(" ++
        (literal r.name ++ ", " ++ ("\x7b " ++ "name" ++ ": " ++ literal n ++ " \x7d")) ++ ")"
    rw [← String.toList_inj]
    simp only [String.toList_append, List.append_assoc]
    rfl
  | text t => rfl
  | firstField => decide +kernel
  | firstOfRole r => cases r <;> decide +kernel
  | name n => rfl
  | inputType t => rfl
  | css s => rfl

/-- **What the expression asks the page for**: selectors put texts between quotes. -/
theorem value?_call (l : Locator) :
    (call l).value? [("page", .page)] = some (.query (l.query Text.quote)) := by
  have hattribute (tag attr t : String) :
      (ask "locator" [.text (attrSelector tag attr t)]).value? [("page", .page)] =
        some (.query (.locator (ofText (tag ++ "[" ++ attr ++ "=" ++ Text.quote t ++ "]")))) := by
    rw [← attrSelector_eq]
    rfl
  cases l with
  | name n => exact hattribute "" "name" n
  | inputType t => exact hattribute "input" "type" t
  | label | placeholder | role | text | firstField | firstOfRole | css => rfl

end Playwright

namespace Cucumber

/-- **When the function reads a hint as it is meant**: always, unless it names an attribute
whose text has a control below the space. -/
theorem found?_render_eq_iff (l : Locator) :
    found? (ofText l.render) = (Playwright.call l).value? [("page", .page)] ↔
      (l.kind = .name ∨ l.kind = .inputType →
        ∀ t, l.payload = some t → ∀ c ∈ t.toList, 0x20 ≤ c.toNat) := by
  rw [found?_render, Playwright.value?_call, Option.some_inj, Value.query.injEq,
    Locator.query_eq_iff]
  simp only [literal_eq_quote_iff]

example : found? (ofText (Locator.name "a\tb").render) ≠
    (Playwright.call (.name "a\tb")).value? [("page", .page)] := by decide +kernel

/-- **Hints are read as they are meant.**  The function in the step definitions, given the
canonical hint of a locator whose text has no controls, asks the page for what the expression
of the locator asks it for. -/
theorem hint_query_eq (l : Locator)
    (h : ∀ t, l.payload = some t → ∀ c ∈ t.toList, ¬ Text.IsControl c) :
    (∀ s url, ∃ lines, (stepsFile s url).content = ofLines lines ∧ locate.lines <:+: lines) ∧
    Playwright.expression l = (Playwright.call l).written ∧
    ∃ q, found? (ofText l.render) = some (.query q) ∧
      (Playwright.call l).value? [("page", .page)] = some (.query q) := by
  refine ⟨lines_locate, Playwright.expression_eq l, _, found?_render l, ?_⟩
  rw [← found?_render, eq_comm, found?_render_eq_iff]
  intro _ t ht c hc
  exact Nat.le_of_not_lt fun hlow => h t ht c hc (.inl hlow)

/-- Equals signs, quotes, backslashes and characters beyond 2¹⁶ in the name of a field. -/
theorem quoted_name_query :
    ∃ q, found? (ofText (Locator.name "a=\"b\\c😀\"").render) = some (.query q) ∧
      (Playwright.call (.name "a=\"b\\c😀\"")).value? [("page", .page)] = some (.query q) := by
  have hplain : ("a=\"b\\c😀\"".toList.all fun c => ¬ Text.IsControl c) = true := by decide
  have hcontrols : ∀ t, (Locator.name "a=\"b\\c😀\"").payload = some t →
      ∀ c ∈ t.toList, ¬ Text.IsControl c := by
    rintro t ⟨⟩ c hc
    exact of_decide_eq_true (List.all_eq_true.mp hplain c hc)
  exact (hint_query_eq (.name "a=\"b\\c😀\"") hcontrols).2.2

end Cucumber

end Testplan
