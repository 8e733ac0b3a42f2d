import Testplan.Proofs.HealedActions
/-!
# The grammar of hints

A hint is cut at its first equals sign.  If the word for a kind of locator stands before it,
then what stands behind it is the text of a locator of that kind (`Locator.parse_cut`); blanks
around the word and around the text do not count.  Every other text is a selector as a whole,
unless it is one of the three words that mean the first of a sort (`Locator.parse_uncut`).

So there are two ways in which a text is no hint (`Locator.Unreadable`): nothing but blanks, or
nothing but blanks behind the word for a kind.  All else is read as a locator, whose canonical
hint means the same to every step, and no two locators share a canonical hint
(`Locator.hint_grammar`).
-/
namespace Testplan

namespace Locator

/-! ## Reading a hint -/

/-- The words for the kinds of locators that go by a text. -/
def kindWords : List String :=
  ["label", "placeholder", "name", "type", "text", "css", "button", "link"]

theorem ofKind?_isSome_iff {kind : String} : (ofKind? kind).isSome ↔ kind ∈ kindWords := by
  unfold ofKind?
  split <;> simp_all [kindWords]

/-- **A hint without an equals sign** means the first of a sort, or is a selector. -/
theorem parse_uncut {hint : String} (h : '=' ∉ hint.toList) :
    parse hint =
      if Text.strip hint = "" then .error .blank
      else if Text.strip hint = "field" then .ok firstField
      else if Text.strip hint = "button" then .ok (firstOfRole .button)
      else if Text.strip hint = "link" then .ok (firstOfRole .link)
      else .ok (css (Text.strip hint)) := by
  have hcut : Text.cutAtChar '=' (Text.strip hint).toList = none := by
    rw [Option.eq_none_iff_forall_ne_some]
    rintro ⟨before, after⟩ hcut
    have hmem : '=' ∈ (Text.strip hint).toList := by
      rw [(Text.cutAtChar_eq_some_iff.mp hcut).1]
      simp
    rw [Text.strip, String.toList_ofList] at hmem
    exact h ((List.dropWhile_suffix _).subset (Text.mem_of_mem_dropEndWhile hmem))
  unfold parse ofStripped
  rw [hcut]
  simp only [String.isEmpty_iff]

/-! ## Texts that are no hints -/

/-- **Why a text is no hint**: it is blank, or nothing stands behind its first equals sign,
before which the word for a kind of locator stands. -/
inductive Unreadable (hint : String) : HintError → Prop
  | blank (h : Text.strip hint = "") : Unreadable hint .blank
  | blankValue {before after : String} (h : hint = before ++ "=" ++ after)
      (first : '=' ∉ before.toList) (kind : Text.strip before ∈ kindWords)
      (value : Text.strip after = "") : Unreadable hint (.blankValue (Text.strip before))

theorem parse_eq_error_iff {hint : String} {e : HintError} :
    parse hint = .error e ↔ Unreadable hint e := by
  constructor
  · intro h
    by_cases hmem : '=' ∈ hint.toList
    · obtain ⟨before, after, hlist, hbefore⟩ := List.eq_append_cons_of_mem hmem
      have hhint : hint = String.ofList before ++ "=" ++ String.ofList after := by
        rw [← String.toList_inj, hlist]
        simp
      have hfirst : '=' ∉ (String.ofList before).toList := by rwa [String.toList_ofList]
      rw [hhint, parse_cut hfirst] at h
      split at h
      · cases h
      · next build hbuild =>
        split at h
        · next hvalue =>
          cases h
          exact .blankValue hhint hfirst
            (ofKind?_isSome_iff.mp (Option.isSome_of_eq_some hbuild)) hvalue
        · cases h
    · rw [parse_uncut hmem] at h
      split at h
      · next hblank =>
        cases h
        exact .blank hblank
      · split at h
        · cases h
        · split at h
          · cases h
          · split at h <;> cases h
  · intro h
    cases h with
    | blank h =>
      unfold parse
      rw [h]
      rfl
    | blankValue h first kind value =>
      obtain ⟨build, hbuild⟩ := Option.isSome_iff_exists.mp (ofKind?_isSome_iff.mpr kind)
      rw [h, parse_cut first, hbuild]
      exact if_pos value

/-! ## Canonical hints -/

/-- What a hint is read as is read from its canonical hint as well. -/
theorem parse_render_of_parse {hint : String} {l : Locator} (h : parse hint = .ok l) :
    parse l.render = .ok l :=
  parse_render l fun _ => trimmed_payload_of_parse h

/-- Locators that are read from hints are told apart by their canonical hints. -/
theorem render_inj_of_parse {hint other : String} {l l' : Locator} (h : parse hint = .ok l)
    (h' : parse other = .ok l') (heq : l.render = l'.render) : l = l' := by
  have hread := parse_render_of_parse h
  rw [heq, parse_render_of_parse h'] at hread
  exact (Except.ok.inj hread).symm

/-- A step makes of the canonical hint what it makes of the hint, unless its target is an
address or is shown as it stands. -/
theorem action_retargeted_of_parse {hint : String} {l : Locator} (h : parse hint = .ok l)
    {step : Step} (ht : step.target = some hint) (hgoto : step.kind ≠ .goto)
    (hcustom : step.kind ≠ .custom) : (step.retargeted l.render).action = step.action := by
  have hread := Step.action_of_parse ht h
  have hother := Step.action_of_parse (s := step.retargeted l.render) rfl (parse_render_of_parse h)
  obtain ⟨kind, target, value, note⟩ := step
  cases kind with
  | goto => exact absurd rfl hgoto
  | custom => exact absurd rfl hcustom
  | click | fill | expectVisible | upload | expectText => exact hother.trans hread.symm

/-- **The grammar of hints.**  A text is a hint unless it is blank, or blank behind the first
equals sign with the word for a kind of locator before it.  The canonical hint of what was read
is read as the same locator, which goes by a trimmed text if by any; every step that acts on
an element takes the one hint for the other; and a canonical hint belongs to one locator. -/
theorem hint_grammar (hint : String) :
    (∀ e, parse hint = .error e ↔ Unreadable hint e) ∧
    ∀ l, parse hint = .ok l →
      parse l.render = .ok l ∧
      (∀ t, l.payload = some t → Text.Trimmed t) ∧
      (∀ step : Step, step.target = some hint → step.kind ≠ .goto → step.kind ≠ .custom →
        (step.retargeted l.render).action = step.action) ∧
      ∀ other l', parse other = .ok l' → l.render = l'.render → l = l' := by
  refine ⟨fun e => parse_eq_error_iff, fun l hl => ⟨parse_render_of_parse hl, ?_, ?_, ?_⟩⟩
  · exact fun t => trimmed_payload_of_parse hl
  · exact fun step => action_retargeted_of_parse hl
  · exact fun other l' => render_inj_of_parse hl

/-- Blanks around the word and the text are not part of the locator, but a second equals sign
is. -/
theorem button_with_equals_sign :
    parse " button = a=b " = .ok (role .button "a=b") ∧
    (Step.click " button = a=b ").target = some " button = a=b " ∧
    (Step.click "button=a=b").action = (Step.click " button = a=b ").action := by
  have hread : parse " button = a=b " = .ok (role .button "a=b") := by decide
  exact ⟨hread, rfl,
    ((hint_grammar " button = a=b ").2 _ hread).2.2.1 (.click " button = a=b ") rfl nofun nofun⟩

end Locator

end Testplan
