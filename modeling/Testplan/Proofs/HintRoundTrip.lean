import Testplan.Field
import Testplan.Proofs.TextsAndLists
/-!
# Hints read back

The canonical hint of a locator is read back as the same locator
(`Locator.parse_render`).  The text by which the locator finds its element may be any that
is **trimmed**: it is not empty and has no blanks at its ends.  Equals signs and the words
of the grammar may occur in it, since a hint is cut at its first equals sign and no kind of
locator contains one.

The texts by which fields, buttons and links are found are trimmed, so what a page is known
for comes through the hints unchanged (`FieldDescriptor.parse_render_locator`,
`Locator.parse_render_ofRole`).
-/
namespace Testplan

namespace Text

/-- **A text without blanks at its ends**, and not empty. -/
def Trimmed (t : String) : Prop := strip t = t ∧ t ≠ ""

instance (t : String) : Decidable (Trimmed t) := inferInstanceAs (Decidable (_ ∧ _))

theorem trimmed_of_present? {s : Option String} {t : String} (h : present? s = some t) :
    Trimmed t := by
  obtain ⟨u, -, rfl, hne⟩ := present?_eq_some_iff.mp h
  exact ⟨strip_strip u, hne⟩

theorem Trimmed.trim {t : String} (h : Trimmed t) : trim t.toList = t.toList := by
  simpa [strip] using congrArg String.toList h.1

theorem Trimmed.dropEndWhile {t : String} (h : Trimmed t) :
    dropEndWhile isBlank t.toList = t.toList ∧ t.toList ≠ [] := by
  refine ⟨?_, fun hnil => h.2 (String.toList_eq_nil_iff.mp hnil)⟩
  rw [← h.trim, Text.trim, dropEndWhile_dropEndWhile]

end Text

namespace Locator

/-- **A hint with an equals sign** is read by what stands before the first one. -/
theorem parse_cut {before : String} (hbefore : '=' ∉ before.toList) (after : String) :
    parse (before ++ "=" ++ after) =
      match ofKind? (Text.strip before) with
      | none => .ok (css (Text.strip (before ++ "=" ++ after)))
      | some build =>
        if Text.strip after = "" then .error (.blankValue (Text.strip before))
        else .ok (build (Text.strip after)) := by
  have hlist : (before ++ "=" ++ after).toList = before.toList ++ '=' :: after.toList := by simp
  have hcut : Text.cutAtChar '=' (Text.strip (before ++ "=" ++ after)).toList =
      some (before.toList.dropWhile Text.isBlank,
        Text.dropEndWhile Text.isBlank after.toList) := by
    rw [Text.strip, String.toList_ofList, hlist, Text.trim_cut (by decide)]
    exact Text.cutAtChar_append fun h => hbefore ((List.dropWhile_suffix _).subset h)
  -- what the two parts have lost are blanks at their ends
  have hkind : Text.strip (String.ofList (before.toList.dropWhile Text.isBlank)) =
      Text.strip before := by
    rw [Text.strip, Text.strip, String.toList_ofList, Text.trim, Text.trim,
      List.dropWhile_idempotent]
  have hvalue : Text.strip (String.ofList (Text.dropEndWhile Text.isBlank after.toList)) =
      Text.strip after := by
    rw [Text.strip, Text.strip, String.toList_ofList, Text.trim_dropEndWhile]
  -- the words that are hints by themselves contain no equals sign
  have hword : ∀ w : String, Text.cutAtChar '=' w.toList = none →
      Text.strip (before ++ "=" ++ after) ≠ w := by
    rintro w hw rfl
    rw [hcut] at hw
    cases hw
  have hempty : (Text.strip (before ++ "=" ++ after)).isEmpty = false := by
    rw [Bool.eq_false_iff, ne_eq, String.isEmpty_iff]
    exact hword "" rfl
  unfold parse ofStripped
  rw [hempty, if_neg Bool.false_ne_true, if_neg (hword "field" (by decide)),
    if_neg (hword "button" (by decide)), if_neg (hword "link" (by decide)), hcut]
  dsimp only
  rw [hkind, hvalue]
  cases ofKind? (Text.strip before) with
  | none => rfl
  | some build => simp only [String.isEmpty_iff]

/-- The kinds of locators are words without blanks and equals signs. -/
theorem word_of_ofKind? {kind : String} {build : String → Locator}
    (h : ofKind? kind = some build) : '=' ∉ kind.toList ∧ Text.strip kind = kind := by
  unfold ofKind? at h
  split at h
  all_goals first
    | exact ⟨by decide, by decide⟩
    | cases h

/-- A kind, an equals sign and a trimmed text are a hint. -/
theorem parse_kind (kind : String) {build : String → Locator} (hk : ofKind? kind = some build)
    {t : String} (ht : Text.Trimmed t) : parse (kind ++ "=" ++ t) = .ok (build t) := by
  obtain ⟨hsep, hstrip⟩ := word_of_ofKind? hk
  rw [parse_cut hsep, hstrip, hk, ht.1]
  exact if_neg ht.2

/-- **The hint of a locator is read back as the locator**, if the text by which it finds
its element is trimmed. -/
theorem parse_render (l : Locator) (h : ∀ t, l.payload = some t → Text.Trimmed t) :
    parse l.render = .ok l := by
  cases l with
  | label t => exact parse_kind "label" rfl (h t rfl)
  | placeholder t => exact parse_kind "placeholder" rfl (h t rfl)
  | name t => exact parse_kind "name" rfl (h t rfl)
  | inputType t => exact parse_kind "type" rfl (h t rfl)
  | firstField => rfl
  | role r n =>
    cases r with
    | button => exact parse_kind "button" rfl (h n rfl)
    | link => exact parse_kind "link" rfl (h n rfl)
  | firstOfRole r => cases r <;> rfl
  | text t => exact parse_kind "text" rfl (h t rfl)
  | css s => exact parse_kind "css" rfl (h s rfl)

/-- **What a hint is read as**: the first element of a sort, an element by a text, or a
selector of style sheets. -/
theorem parse_cases {hint : String} {l : Locator} (h : parse hint = .ok l) :
    l.payload = none ∨
    (∃ kind build value, ofKind? kind = some build ∧ Text.strip value ≠ "" ∧
      l = build (Text.strip value)) ∨
    Text.strip hint ≠ "" ∧ l = .css (Text.strip hint) := by
  unfold parse ofStripped at h
  split at h
  · cases h
  · next hne =>
    have css (h : Except.ok (.css (Text.strip hint)) = (.ok l : Except HintError Locator)) :
        Text.strip hint ≠ "" ∧ l = .css (Text.strip hint) :=
      ⟨by simpa using hne, (Except.ok.inj h).symm⟩
    split at h
    · cases h
      exact .inl rfl
    · split at h
      · cases h
        exact .inl rfl
      · split at h
        · cases h
          exact .inl rfl
        · split at h
          · exact .inr (.inr (css h))
          · next before after _ =>
            dsimp only at h
            split at h
            · exact .inr (.inr (css h))
            · next build hbuild =>
              split at h
              · cases h
              · next hvalue =>
                obtain rfl := Except.ok.inj h
                exact .inr (.inl ⟨_, build, _, hbuild, by simpa using hvalue, rfl⟩)

/-- Elements are found by trimmed texts. -/
theorem trimmed_payload_of_parse {hint t : String} {l : Locator} (h : parse hint = .ok l)
    (ht : l.payload = some t) : Text.Trimmed t := by
  rcases parse_cases h with hnone | ⟨kind, build, value, hbuild, hne, rfl⟩ | ⟨hne, rfl⟩
  · rw [hnone] at ht
    cases ht
  · rw [payload_of_ofKind? hbuild] at ht
    obtain rfl := Option.some.inj ht
    exact ⟨Text.strip_strip _, hne⟩
  · obtain rfl := Option.some.inj ht
    exact ⟨Text.strip_strip _, hne⟩

/-- Buttons and links are found by trimmed texts. -/
theorem trimmed_payload_ofRole {r : Role} {name : Option String} {t : String}
    (h : (ofRole r name).payload = some t) : Text.Trimmed t := by
  unfold ofRole at h
  split at h
  · next n hn =>
    cases h
    exact Text.trimmed_of_present? hn
  · cases h

theorem parse_render_ofRole (r : Role) (name : Option String) :
    parse (ofRole r name).render = .ok (ofRole r name) :=
  parse_render _ fun _ => trimmed_payload_ofRole

end Locator

namespace FieldDescriptor

/-- A rule makes locators of its kind, and they go by trimmed texts. -/
theorem trimmed_payload_of_rule {f : FieldDescriptor} {l : Locator}
    {rule : LocatorKind × (FieldDescriptor → Option Locator)} (hrule : rule ∈ fieldRules)
    (hl : rule.2 f = some l) :
    l.kind = rule.1 ∧ ∀ t, l.payload = some t → Text.Trimmed t := by
  -- each rule goes by one text of the field
  have hpresent {s : Option String} {build : String → Locator} {kind : LocatorKind}
      (hkind : ∀ u, (build u).kind = kind) (hbuild : ∀ u, (build u).payload = some u)
      (hs : (Text.present? s).map build = some l) :
      l.kind = kind ∧ ∀ t, l.payload = some t → Text.Trimmed t := by
    obtain ⟨u, hu, rfl⟩ := Option.map_eq_some_iff.mp hs
    refine ⟨hkind u, fun t ht => ?_⟩
    rw [hbuild] at ht
    cases ht
    exact Text.trimmed_of_present? hu
  simp only [fieldRules, List.mem_cons, List.not_mem_nil, or_false] at hrule
  rcases hrule with rfl | rfl | rfl | rfl | rfl
  · exact hpresent (fun _ => rfl) (fun _ => rfl) hl
  · exact hpresent (fun _ => rfl) (fun _ => rfl) hl
  · exact hpresent (fun _ => rfl) (fun _ => rfl) hl
  · exact hpresent (fun _ => rfl) (fun _ => rfl) hl
  · cases hl
    exact ⟨rfl, nofun⟩

/-- Fields are found by trimmed texts. -/
theorem trimmed_payload_locator {f : FieldDescriptor} {t : String}
    (h : f.locator.payload = some t) : Text.Trimmed t := by
  unfold locator at h
  cases hrule : fieldRules.findSome? fun rule => rule.2 f with
  | none =>
    rw [hrule] at h
    cases h
  | some l =>
    rw [hrule, Option.getD_some] at h
    obtain ⟨rule, hmem, hl⟩ := List.exists_of_findSome?_eq_some hrule
    exact (trimmed_payload_of_rule hmem hl).2 t h

theorem parse_render_locator (f : FieldDescriptor) :
    Locator.parse f.locator.render = .ok f.locator :=
  Locator.parse_render _ fun _ => trimmed_payload_locator

end FieldDescriptor

end Testplan
