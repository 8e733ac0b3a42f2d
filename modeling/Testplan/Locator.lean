import Testplan.TextBlank
import Testplan.TextCut
/-!
# Locators

A step of a test plan says which element it means by a **hint**, a short text such
as `label=Email` or `button=Log in`.  A `Locator` is the meaning of a hint,
independent of any test framework.

The grammar of hints, after blanks at both ends are dropped:

* `field`, `button` and `link` alone mean the first such element;
* `kind=value` with one of the eight kinds names an element by `value`, which must
  not be blank;
* any other text is a selector of style sheets, taken as it is.

`parse` reads a hint and `render` writes the canonical hint of a locator.
-/
namespace Testplan

/-- The roles by which elements can be found. -/
inductive Role where
  | button
  | link
deriving DecidableEq, Repr

namespace Role

/-- The role's name in hints. -/
def name : Role → String
  | button => "button"
  | link => "link"

/-- The element that has the role. -/
def tag : Role → String
  | button => "button"
  | link => "a"

end Role

/-- **A locator**: how a step finds its element. -/
inductive Locator where
  | label (text : String)
  | placeholder (text : String)
  | name (text : String)
  | inputType (text : String)
  | firstField
  | role (role : Role) (name : String)
  | firstOfRole (role : Role)
  | text (text : String)
  | css (selector : String)
deriving DecidableEq, Repr

/-- The kind of a locator. -/
inductive LocatorKind where
  | label
  | placeholder
  | name
  | inputType
  | firstField
  | role
  | firstOfRole
  | text
  | css
deriving DecidableEq, Repr

namespace LocatorKind

/-- All kinds. -/
def all : List LocatorKind :=
  [label, placeholder, name, inputType, firstField, role, firstOfRole, text, css]

/-- The kind's written name. -/
def title : LocatorKind → String
  | label => "Label"
  | placeholder => "Placeholder"
  | name => "Name"
  | inputType => "InputType"
  | firstField => "FirstField"
  | role => "Role"
  | firstOfRole => "FirstOfRole"
  | text => "Text"
  | css => "Css"

end LocatorKind

/-- Why a text is no hint. -/
inductive HintError where
  /-- Nothing but blanks. -/
  | blank
  /-- A kind of locator without a value after the equals sign. -/
  | blankValue (kind : String)
deriving DecidableEq, Repr

/-- The wording of a hint error. -/
def HintError.message : HintError → String
  | blank => "대상 힌트가 비어 있습니다"
  | blankValue kind => "`" ++ kind ++ "=` 힌트 값이 비어 있습니다"

namespace Locator

def kind : Locator → LocatorKind
  | label _ => .label
  | placeholder _ => .placeholder
  | name _ => .name
  | inputType _ => .inputType
  | firstField => .firstField
  | role _ _ => .role
  | firstOfRole _ => .firstOfRole
  | text _ => .text
  | css _ => .css

/-- The text by which the element is found, if it is found by a text. -/
def payload : Locator → Option String
  | label t | placeholder t | name t | inputType t | text t | css t => some t
  | role _ n => some n
  | firstField | firstOfRole _ => none

/-- The locator that a kind written before an equals sign makes of a value. -/
def ofKind? : String → Option (String → Locator)
  | "label" => some label
  | "placeholder" => some placeholder
  | "name" => some name
  | "type" => some inputType
  | "text" => some text
  | "css" => some css
  | "button" => some (role .button)
  | "link" => some (role .link)
  | _ => none

/-- The meaning of a hint without blanks at its ends. -/
def ofStripped (hint : String) : Except HintError Locator :=
  if hint.isEmpty then .error .blank
  else if hint = "field" then .ok firstField
  else if hint = "button" then .ok (firstOfRole .button)
  else if hint = "link" then .ok (firstOfRole .link)
  else match Text.cutAtChar '=' hint.toList with
    | none => .ok (css hint)
    | some (before, after) =>
      let kind := Text.strip (String.ofList before)
      match ofKind? kind with
      | none => .ok (css hint)
      | some build =>
        let value := Text.strip (String.ofList after)
        if value.isEmpty then .error (.blankValue kind) else .ok (build value)

/-- Reads a hint. -/
def parse (hint : String) : Except HintError Locator := ofStripped (Text.strip hint)

/-- A kind makes a locator that goes by the value. -/
theorem payload_of_ofKind? {kind : String} {build : String → Locator}
    (h : ofKind? kind = some build) (value : String) : (build value).payload = some value := by
  unfold ofKind? at h
  split at h <;> first | (cases h; rfl) | cases h

/-- The text of a locator that was read from a hint has no blanks at its ends. -/
theorem strip_payload_of_parse {hint t : String} {l : Locator} (h : parse hint = .ok l)
    (ht : l.payload = some t) : Text.strip t = t := by
  have css : Except.ok (.css (Text.strip hint)) = (.ok l : Except HintError Locator) →
      Text.strip t = t := by
    intro h
    obtain rfl := Except.ok.inj h
    rw [← Option.some.inj ht, Text.strip_strip]
  unfold parse ofStripped at h
  split at h
  · cases h
  · split at h
    · cases h; cases ht
    · split at h
      · cases h; cases ht
      · split at h
        · cases h; cases ht
        · split at h
          · exact css h
          · next before after _ =>
            dsimp only at h
            split at h
            · exact css h
            · next build hb =>
              split at h
              · cases h
              · obtain rfl := Except.ok.inj h
                rw [payload_of_ofKind? hb] at ht
                rw [← Option.some.inj ht, Text.strip_strip]

/-- Writes the canonical hint. -/
def render : Locator → String
  | label t => "label=" ++ t
  | placeholder t => "placeholder=" ++ t
  | name t => "name=" ++ t
  | inputType t => "type=" ++ t
  | firstField => "field"
  | role r n => r.name ++ "=" ++ n
  | firstOfRole r => r.name
  | text t => "text=" ++ t
  | css s => "css=" ++ s

instance : ToString Locator := ⟨render⟩

/-- An element of a role: by its name if it has one, otherwise the first. -/
def ofRole (r : Role) (name : Option String) : Locator :=
  match Text.present? name with
  | some n => role r n
  | none => firstOfRole r

/-- A button, by its text if it has one. -/
def button (text : Option String) : Locator := ofRole .button text

/-- A link, by its text if it has one. -/
def link (text : Option String) : Locator := ofRole .link text

end Locator

end Testplan
