import Testplan.Locator
/-!
# Form fields: how to find them and what to type

A crawled form field is described by whatever hints the page gave: a label, a
placeholder, a name, a type.  Two tables decide what a test does with it.

`fieldRules` lists the ways to find a field from the best to the last: by label,
by placeholder, by name, by type, and as the first field of the page.  A rule
without a text to go by does not apply.  `FieldDescriptor.locator` takes the
first rule that applies, and `locatorAfter` the next one after a rule that
failed — the step that healing makes.

`valueRules` choose a plausible text to type; `fillValue` takes the first that
fits the field's type and texts.
-/
namespace Testplan

/-- **A form field** as a crawler describes it. -/
structure FieldDescriptor where
  name : Option String := none
  label : Option String := none
  placeholder : Option String := none
  type : Option String := none
  required : Bool := false
deriving DecidableEq, Repr

/-! ## Finding a field -/

/-- The ways to find a field, best first. -/
def fieldRules : List (LocatorKind × (FieldDescriptor → Option Locator)) := [
  (.label, fun f => (Text.present? f.label).map .label),
  (.placeholder, fun f => (Text.present? f.placeholder).map .placeholder),
  (.name, fun f => (Text.present? f.name).map .name),
  (.inputType, fun f => (Text.present? f.type).map .inputType),
  (.firstField, fun _ => some .firstField)]

namespace FieldDescriptor

/-- The best locator of a field. -/
def locator (f : FieldDescriptor) : Locator :=
  (fieldRules.findSome? fun rule => rule.2 f).getD .firstField

/-- The next locator of a field after one of kind `failed`; none if no rule has that
kind or none is left. -/
def locatorAfter (f : FieldDescriptor) (failed : LocatorKind) : Option Locator := do
  let i ← fieldRules.findIdx? fun rule => rule.1 = failed
  (fieldRules.drop (i + 1)).findSome? fun rule => rule.2 f

/-- Some rule makes `l` of the field. -/
def produces (f : FieldDescriptor) (l : Locator) : Bool :=
  fieldRules.any fun rule => rule.1 = l.kind && rule.2 f = some l

/-- A field for uploads. -/
def isFile (f : FieldDescriptor) : Bool :=
  f.type.any fun t => Text.sameIgnoringCase t "file"

/-- A field that takes free text. -/
def isTextual (f : FieldDescriptor) : Bool :=
  match f.type with
  | none => true
  | some t => ["", "text", "search", "email", "textarea", "url"].contains (Text.lowerAscii t)

/-! ## Filling a field -/

/-- The texts of a field, joined and in lower case.  Only the letters `A` to `Z` need
lowering: the rules look for words of plain letters, and no other letter has a
lower case that completes one of them. -/
def searchText (f : FieldDescriptor) : String :=
  Text.lowerAscii (" ".intercalate ([f.name, f.placeholder, f.label].filterMap id))

/-- The type of a field, stripped and in lower case. -/
def plainType (f : FieldDescriptor) : String :=
  Text.lowerAscii (Text.strip (f.type.getD ""))

/-- The text contains one of the words. -/
def mentions (f : FieldDescriptor) (words : List String) : Bool :=
  words.any fun w => Text.contains f.searchText w

end FieldDescriptor

/-- The texts to type, with the fields they are for. -/
def valueRules : List ((FieldDescriptor → Bool) × String) := [
  (fun f => f.plainType = "email" || f.mentions ["email"], "qa+auto@example.com"),
  (fun f => f.plainType = "tel" || f.mentions ["phone"], "4045551234"),
  (fun f => f.mentions ["zip", "postal"], "30301"),
  (fun f => f.mentions ["name"], "QA Auto"),
  (fun f => f.plainType = "password" || f.mentions ["pass"], "P@ssw0rd!"),
  (fun f => f.plainType = "number", "42")]

/-- The text for a field to which no rule applies. -/
def fallbackValue : String := "Test value"

/-- A plausible text for a field. -/
def FieldDescriptor.fillValue (f : FieldDescriptor) : String :=
  ((valueRules.find? fun rule => rule.1 f).map (·.2)).getD fallbackValue

end Testplan
