import Testplan.Framework
import Testplan.Proofs.HintRoundTrip
import Testplan.Proofs.PathNames
import Testplan.Proofs.QuotedTexts
/-!
# Locators read back from generated code

A locator that goes by a text is written into code with the text in quotes: in a JSON literal,
and for some frameworks inside of it in an XPath expression or in the value of an attribute.
XPath has no escapes, so a text with both kinds of quotes is a concatenation of literals; it is
evaluated here as XPath does it (`XPath.value?`).

What stands before the quoted text tells how the locator finds its element, and no such beginning
is the beginning of another (`Form.Apart`).  So an expression is read by trying one form after the
other, and it gives back the locator that it was written for, whatever quotes and backslashes are
in its text (`Locator.quoted_text_read_back`).
-/
namespace Testplan

/-! ## String expressions of XPath -/

namespace XPath

/-- White space between the parts of an expression. -/
def isSpace (c : Char) : Bool := c = ' ' || c = '\t' || c = '\r' || c = '\n'

/-- A literal in single or double quotes, and what follows it. -/
def literalAt? : List Char → Option (List Char × List Char)
  | '\'' :: rest => Text.cutAtChar '\'' rest
  | '"' :: rest => Text.cutAtChar '"' rest
  | _ => none

/-- Where the reading of arguments stands. -/
inductive Place where
  /-- Before an argument. -/
  | before
  /-- In a literal that ends with the quote. -/
  | inside (quote : Char)
  /-- Behind an argument. -/
  | behind

/-- The arguments of a concatenation put together, and what follows the bracket that closes it.
There have to be several: `several` says whether a comma was read. -/
def arguments? (several : Bool) : Place → List Char → Option (List Char × List Char)
  | _, [] => none
  | .before, c :: rest =>
    if isSpace c then arguments? several .before rest
    else if c = '\'' ∨ c = '"' then arguments? several (.inside c) rest
    else none
  | .inside quote, c :: rest =>
    if c = quote then arguments? several .behind rest
    else (arguments? several (.inside quote) rest).map fun (t, after) => (c :: t, after)
  | .behind, c :: rest =>
    if isSpace c then arguments? several .behind rest
    else if c = ',' then arguments? true .before rest
    else if c = ')' ∧ several then some ([], rest)
    else none

/-- **The string expression at the beginning of a text**, a literal or a concatenation of
literals: its value and what follows it. -/
def stringAt? (cs : List Char) : Option (List Char × List Char) :=
  match Text.dropPiece? "concat(".toList cs with
  | some rest => arguments? false .before rest
  | none => literalAt? cs

/-- The value of a text that is a string expression as a whole. -/
def value? (s : String) : Option String :=
  match stringAt? s.toList with
  | some (t, []) => some (String.ofList t)
  | _ => none

/-- A text is read up to the quote that closes it. -/
theorem arguments?_inside (several : Bool) {quote : Char} {t : List Char} (h : quote ∉ t)
    (rest : List Char) :
    arguments? several (.inside quote) (t ++ quote :: rest) =
      (arguments? several .behind rest).map fun (u, after) => (t ++ u, after) := by
  induction t with
  | nil => simp [arguments?]
  | cons c t ih =>
    obtain ⟨hc, ht⟩ := not_or.mp (List.mem_cons.not.mp h)
    rw [List.cons_append, arguments?, if_neg (Ne.symm hc), ih ht, Option.map_map]
    rfl

theorem arguments?_literal (several : Bool) {t : List Char} (h : '\'' ∉ t) (rest : List Char) :
    arguments? several .before ('\'' :: (t ++ '\'' :: rest)) =
      (arguments? several .behind rest).map fun (u, after) => (t ++ u, after) :=
  arguments?_inside several h rest

/-- Between two literals stands one more, which is a single quote. -/
theorem arguments?_separator (several : Bool) (rest : List Char) :
    arguments? several .behind (", \"'\", ".toList ++ rest) =
      (arguments? true .before rest).map fun (u, after) => ('\'' :: u, after) := rfl

/-- **Pieces without single quotes**, written as literals with a single quote between any two of
them, make up the text that was cut at its single quotes. -/
theorem arguments?_pieces {pieces : List (List Char)} (hpieces : ∀ t ∈ pieces, '\'' ∉ t)
    (several : Bool) (hseveral : if several then pieces ≠ [] else 2 ≤ pieces.length)
    (rest : List Char) :
    arguments? several .before
        (", \"'\", ".toList.intercalate (pieces.map fun t => '\'' :: (t ++ ['\''])) ++
          ')' :: rest) =
      some (['\''].intercalate pieces, rest) := by
  induction pieces generalizing several with
  | nil => cases several <;> simp at hseveral
  | cons t others ih =>
    obtain ⟨ht, hothers⟩ := List.forall_mem_cons.mp hpieces
    cases others with
    | nil =>
      obtain rfl : several = true := by
        cases several with
        | false => simp at hseveral
        | true => rfl
      have hclose : arguments? true .behind (')' :: rest) = some ([], rest) := rfl
      have hread := arguments?_literal true ht (')' :: rest)
      rw [hclose] at hread
      simpa using hread
    | cons u others =>
      have hnext := ih hothers true (by simp)
      have hread := arguments?_literal several ht (", \"'\", ".toList ++
        (", \"'\", ".toList.intercalate ((u :: others).map fun t => '\'' :: (t ++ ['\''])) ++
          ')' :: rest))
      rw [arguments?_separator, hnext] at hread
      rw [List.intercalate_cons_cons, List.append_assoc, List.singleton_append]
      simpa [List.intercalate_cons_cons] using hread

/-- **The literal of a text has the text as its value**, whatever follows it. -/
theorem stringAt?_xpathLiteral (s : String) (rest : List Char) :
    stringAt? ((Appium.xpathLiteral s).toList ++ rest) = some (s.toList, rest) := by
  unfold Appium.xpathLiteral
  split
  · next h =>
    have hsingle : '\'' ∉ s.toList := by simpa using h
    simpa [stringAt?, Text.dropPiece?, literalAt?] using Text.cutAtChar_append hsingle
  split
  · next h =>
    have hdouble : '"' ∉ s.toList := by simpa using h
    simpa [stringAt?, Text.dropPiece?, literalAt?] using Text.cutAtChar_append hdouble
  · next hsingle _ =>
    -- there is a single quote, so there are several pieces
    have hsplit : Text.splitAll (· = '\'') s.toList = s.toList.splitOn '\'' :=
      Text.splitAll_eq_splitOnP _ _
    have hpieces : ∀ t ∈ Text.splitAll (· = '\'') s.toList, '\'' ∉ t := fun t ht hmem =>
      Text.not_of_mem_splitAll ht '\'' hmem (by decide)
    have hjoin : ['\''].intercalate (Text.splitAll (· = '\'') s.toList) = s.toList := by
      rw [hsplit, List.intercalate_splitOn]
    have hseveral : 2 ≤ (Text.splitAll (· = '\'') s.toList).length := by
      by_contra hfew
      rcases h : Text.splitAll (· = '\'') s.toList with _ | ⟨t, _ | ⟨u, rest⟩⟩
      · exact Text.splitAll_ne_nil _ _ h
      · rw [h, List.intercalate_singleton] at hjoin
        exact hpieces t (h ▸ List.mem_singleton_self t) (hjoin ▸ by simpa using hsingle)
      · simp [h] at hfew
    have hread := arguments?_pieces hpieces false (by simpa using hseveral) rest
    have hdrop (cs : List Char) :
        Text.dropPiece? "concat(".toList ("concat(".toList ++ cs) = some cs :=
      Text.dropPiece?_eq_some_iff.mpr rfl
    rw [hjoin] at hread
    simp only [String.toList_append, String.toList_intercalate, List.map_map, List.append_assoc,
      stringAt?, hdrop]
    simpa [Function.comp_def] using hread

/-- An XPath literal is evaluated to the text that it was written for. -/
theorem value?_xpathLiteral (s : String) : value? (Appium.xpathLiteral s) = some s := by
  have hread := stringAt?_xpathLiteral s []
  rw [List.append_nil] at hread
  rw [value?, hread]
  simp

end XPath

/-! ## Forms of expressions -/

/-- **A form of expressions**: fixed texts before and behind a quoted text, and the locator that
the text makes. -/
structure Form where
  before : String
  after : String
  locator? : String → Option Locator

/-- Reads an expression of the form, where `quoted?` reads a quoted text. -/
def Form.read? (quoted? : List Char → Option (List Char × List Char)) (f : Form) (s : String) :
    Option Locator := do
  let rest ← Text.dropPiece? f.before.toList s.toList
  let (t, rest) ← quoted? rest
  if rest = f.after.toList then f.locator? (String.ofList t) else none

/-- Reads an expression of one of several forms. -/
def readForm? (quoted? : List Char → Option (List Char × List Char)) (forms : List Form)
    (s : String) : Option Locator :=
  forms.findSome? fun f => f.read? quoted? s

/-- Neither form begins like the other. -/
def Form.Apart (f g : Form) : Prop :=
  ¬ f.before.toList <+: g.before.toList ∧ ¬ g.before.toList <+: f.before.toList

instance (f g : Form) : Decidable (f.Apart g) := inferInstanceAs (Decidable (_ ∧ _))

theorem Form.Apart.read? {f g : Form} (h : g.Apart f)
    (quoted? : List Char → Option (List Char × List Char)) (s : String) :
    g.read? quoted? (f.before ++ s) = none := by
  have hdrop : Text.dropPiece? g.before.toList (f.before ++ s).toList = none := by
    rw [Option.eq_none_iff_forall_ne_some]
    intro rest hrest
    have hlist := Text.dropPiece?_eq_some_iff.mp hrest
    rw [String.toList_append] at hlist
    rcases List.prefix_or_prefix_of_prefix (List.prefix_append g.before.toList rest)
      (hlist ▸ List.prefix_append f.before.toList s.toList) with hpre | hpre
    · exact h.1 hpre
    · exact h.2 hpre
  rw [Form.read?, hdrop]
  rfl

/-- **An expression is read by its own form**, if the forms are apart. -/
theorem readForm?_of_mem {quoted? : List Char → Option (List Char × List Char)}
    {forms : List Form} (hforms : forms.Pairwise Form.Apart) {f : Form} (hf : f ∈ forms)
    {quoted t : String}
    (hquoted : ∀ rest, quoted? (quoted.toList ++ rest) = some (t.toList, rest)) {l : Locator}
    (hl : f.locator? t = some l) :
    readForm? quoted? forms (f.before ++ quoted ++ f.after) = some l := by
  obtain ⟨others, more, rfl⟩ := List.append_of_mem hf
  refine List.findSome?_eq_some_iff.mpr ⟨others, f, more, rfl, ?_, fun g hg => ?_⟩
  · have hdrop : Text.dropPiece? f.before.toList (f.before ++ quoted ++ f.after).toList =
        some (quoted.toList ++ f.after.toList) :=
      Text.dropPiece?_eq_some_iff.mpr (by simp)
    rw [Form.read?, hdrop]
    simp [hquoted, hl]
  · rw [String.append_assoc]
    exact ((List.pairwise_append.mp hforms).2.2 g hg f List.mem_cons_self).read? ..

/-! ## Attributes -/

/-- The selectors that go by the value of an attribute. -/
def attributeForms : List Form := [
  ⟨"[name=", "]", some ∘ .name⟩,
  ⟨"input[type=", "]", some ∘ .inputType⟩]

/-- The locator that a selector of style sheets was written for. -/
def locatorOfSelector? (s : String) : Option Locator :=
  readForm? Text.escapedAt? attributeForms s

theorem attrSelector_eq (tag attr value : String) :
    attrSelector tag attr value = tag ++ "[" ++ attr ++ "=" ++ Text.quote value ++ "]" := by
  rw [attrSelector, Text.quote, ← String.toList_inj]
  simp [Text.escape]

theorem locatorOfSelector?_attrSelector {f : Form} (hf : f ∈ attributeForms) {tag attr : String}
    (hbefore : f.before = tag ++ "[" ++ attr ++ "=") (hafter : f.after = "]") {t : String}
    {l : Locator} (hl : f.locator? t = some l) :
    locatorOfSelector? (attrSelector tag attr t) = some l := by
  have hapart : attributeForms.Pairwise Form.Apart := by decide
  rw [attrSelector_eq, ← hbefore, ← hafter]
  exact readForm?_of_mem hapart hf (Text.escapedAt?_quote t) hl

theorem locatorOfSelector?_name (t : String) :
    locatorOfSelector? (attrSelector "" "name" t) = some (.name t) :=
  locatorOfSelector?_attrSelector (.head _) (by decide) rfl rfl

theorem locatorOfSelector?_inputType (t : String) :
    locatorOfSelector? (attrSelector "input" "type" t) = some (.inputType t) :=
  locatorOfSelector?_attrSelector (.tail _ (.head _)) (by decide) rfl rfl

/-! ## Expressions that are calls -/

/-- The locator goes by a text that every framework puts in quotes. -/
def Locator.IsQuoted (l : Locator) : Prop :=
  l.kind ∈ [LocatorKind.placeholder, .name, .inputType, .role, .text]

instance (l : Locator) : Decidable l.IsQuoted := inferInstanceAs (Decidable (_ ∈ _))

/-- The functions that a framework finds elements with. -/
structure Calls where
  placeholder : String
  role : String
  text : String
  selector : String

namespace Calls

variable (c : Calls)

def roleForm (r : Role) : Form :=
  ⟨c.role ++ "(" ++ literal r.name ++ ", \x7b name: ", " \x7d)", some ∘ .role r⟩

def forms : List Form := [
  ⟨c.placeholder ++ "(", ")", some ∘ .placeholder⟩,
  c.roleForm .button,
  c.roleForm .link,
  ⟨c.text ++ "(", ")", some ∘ .text⟩,
  ⟨c.selector ++ "(", ")", locatorOfSelector?⟩]

/-- The locator that a call was written for. -/
def locatorOf? (s : String) : Option Locator := readForm? Text.literalAt? c.forms s

/-- **A framework writes the calls** for the locators that go by a quoted text. -/
structure Writes (expression : Locator → String) : Prop where
  placeholder : ∀ t, expression (.placeholder t) = c.placeholder ++ "(" ++ literal t ++ ")"
  role : ∀ r t, expression (.role r t) =
    c.role ++ "(" ++ literal r.name ++ ", \x7b name: " ++ literal t ++ " \x7d)"
  text : ∀ t, expression (.text t) = c.text ++ "(" ++ literal t ++ ")"
  name : ∀ t, expression (.name t) = c.selector ++ "(" ++ literal (attrSelector "" "name" t) ++ ")"
  inputType : ∀ t,
    expression (.inputType t) = c.selector ++ "(" ++ literal (attrSelector "input" "type" t) ++ ")"
  apart : c.forms.Pairwise Form.Apart

variable {c} {expression : Locator → String} {l : Locator}

theorem Writes.exists_form (h : c.Writes expression) (hl : l.IsQuoted) : ∃ f ∈ c.forms, ∃ t,
    f.locator? t = some l ∧ expression l = f.before ++ literal t ++ f.after := by
  have hselector : ⟨c.selector ++ "(", ")", locatorOfSelector?⟩ ∈ c.forms := by simp [forms]
  cases l with
  | placeholder t => exact ⟨_, .head _, t, rfl, h.placeholder t⟩
  | role r t =>
    have hrole : c.roleForm r ∈ c.forms := by cases r <;> simp [forms]
    exact ⟨_, hrole, t, rfl, h.role r t⟩
  | text t => exact ⟨_, .tail _ (.tail _ (.tail _ (.head _))), t, rfl, h.text t⟩
  | name t =>
    refine ⟨_, hselector, _, ?_, h.name t⟩
    simpa only using locatorOfSelector?_name t
  | inputType t =>
    refine ⟨_, hselector, _, ?_, h.inputType t⟩
    simpa only using locatorOfSelector?_inputType t
  | label | firstField | firstOfRole | css => simp [Locator.IsQuoted, Locator.kind] at hl

theorem Writes.locatorOf?_expression (h : c.Writes expression) (hl : l.IsQuoted) :
    c.locatorOf? (expression l) = some l := by
  obtain ⟨f, hf, t, hlocator, hexpr⟩ := h.exists_form hl
  rw [hexpr]
  exact readForm?_of_mem h.apart hf (Text.literalAt?_jsonLiteral t) hlocator

end Calls

def Playwright.calls : Calls where
  placeholder := "page.getByPlaceholder"
  role := "page.getByRole"
  text := "page.getByText"
  selector := "page.locator"

def Cypress.calls : Calls where
  placeholder := "cy.findByPlaceholderText"
  role := "cy.findByRole"
  text := "cy.contains"
  selector := "cy.get"

theorem Playwright.writes_calls : calls.Writes expression where
  placeholder _ := rfl
  role _ _ := rfl
  text _ := rfl
  name _ := rfl
  inputType _ := rfl
  apart := by decide

theorem Cypress.writes_calls : calls.Writes expression where
  placeholder _ := rfl
  role _ _ := rfl
  text _ := rfl
  name _ := rfl
  inputType _ := rfl
  apart := by decide

/-! ## Expressions with XPath -/

namespace Appium

/-- The XPath expressions that go by a text. -/
def pathForms : List Form := [
  ⟨"//*[@placeholder=", "]", some ∘ .placeholder⟩,
  ⟨"//*[@name=", "]", some ∘ .name⟩,
  ⟨"//input[@type=", "]", some ∘ .inputType⟩,
  ⟨"//*[self::button or @role='button'][normalize-space()=", "]", some ∘ .role .button⟩,
  ⟨"//a[normalize-space()=", "]", some ∘ .role .link⟩,
  ⟨"//*[text()[contains(normalize-space(), ", ")]]", some ∘ .text⟩]

/-- The locator that a selector was written for. -/
def locatorOfPath? (s : String) : Option Locator := readForm? XPath.stringAt? pathForms s

/-- The locator that an expression was written for. -/
def locatorOf? (s : String) : Option Locator :=
  readForm? Text.literalAt? [⟨"driver.$(", ")", locatorOfPath?⟩] s

variable {l : Locator}

theorem exists_pathForm (h : l.IsQuoted) : ∃ f ∈ pathForms, ∃ t,
    f.locator? t = some l ∧ selector l = f.before ++ xpathLiteral t ++ f.after := by
  cases l with
  | placeholder t => exact ⟨_, .head _, t, rfl, rfl⟩
  | name t => exact ⟨_, .tail _ (.head _), t, rfl, rfl⟩
  | inputType t => exact ⟨_, .tail _ (.tail _ (.head _)), t, rfl, rfl⟩
  | role r t =>
    cases r with
    | button => exact ⟨_, .tail _ (.tail _ (.tail _ (.head _))), t, rfl, rfl⟩
    | link => exact ⟨_, .tail _ (.tail _ (.tail _ (.tail _ (.head _)))), t, rfl, rfl⟩
  | text t => exact ⟨_, .tail _ (.tail _ (.tail _ (.tail _ (.tail _ (.head _))))), t, rfl, rfl⟩
  | label | firstField | firstOfRole | css => simp [Locator.IsQuoted, Locator.kind] at h

theorem locatorOfPath?_selector (h : l.IsQuoted) : locatorOfPath? (selector l) = some l := by
  have hapart : pathForms.Pairwise Form.Apart := by decide
  obtain ⟨f, hf, t, hlocator, hselector⟩ := exists_pathForm h
  rw [hselector]
  exact readForm?_of_mem hapart hf (XPath.stringAt?_xpathLiteral t) hlocator

theorem locatorOf?_expression (h : l.IsQuoted) : locatorOf? (expression l) = some l :=
  readForm?_of_mem (List.pairwise_singleton _ _) (List.mem_singleton_self _)
    (Text.literalAt?_jsonLiteral (selector l)) (locatorOfPath?_selector h)

end Appium

/-- **The text of a locator survives quoting.**  An XPath literal has the text as its value; the
value of an attribute is read up to its closing quote; and what the expressions of the frameworks
that generate code were written for is read back from them. -/
theorem Locator.quoted_text_read_back :
    (∀ t, XPath.value? (Appium.xpathLiteral t) = some t) ∧
    (∀ tag attr t, ∃ value : String, attrSelector tag attr t = tag ++ "[" ++ attr ++ "=" ++ value ∧
      Text.escapedAt? value.toList = some (t.toList, [']'])) ∧
    ∀ l : Locator, l.IsQuoted →
      Appium.locatorOf? (Appium.expression l) = some l ∧
      Playwright.calls.locatorOf? (Playwright.expression l) = some l ∧
      Cypress.calls.locatorOf? (Cypress.expression l) = some l := by
  refine ⟨XPath.value?_xpathLiteral, fun tag attr t => ⟨Text.quote t ++ "]", ?_, ?_⟩,
    fun l hl => ⟨Appium.locatorOf?_expression hl, ?_, ?_⟩⟩
  · rw [attrSelector_eq, ← String.append_assoc]
  · rw [String.toList_append]
    exact Text.escapedAt?_quote t _
  · exact Playwright.writes_calls.locatorOf?_expression hl
  · exact Cypress.writes_calls.locatorOf?_expression hl

/-- A name with both kinds of quotes and a backslash before a quote. -/
theorem Locator.both_quotes_read_back :
    (name "it's \\\"x\\").IsQuoted ∧
    Appium.expression (name "it's \\\"x\\") =
      "driver.$(\"//*[@name=concat('it', \\\"'\\\", 's \\\\\\\"x\\\\')]\")" ∧
    Appium.locatorOf? (Appium.expression (name "it's \\\"x\\")) = some (name "it's \\\"x\\") := by
  have hquoted : (name "it's \\\"x\\").IsQuoted := by decide
  exact ⟨hquoted, by decide +kernel, (quoted_text_read_back.2.2 _ hquoted).1⟩

end Testplan
