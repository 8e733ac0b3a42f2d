import Testplan.Proofs.EvidenceArguments
import Testplan.Proofs.ExactHealing
import Testplan.RenderAppium
/-!
# Healing from the messages of Appium

A test that waits in vain for an element fails with a message that quotes the selector of the
element (`Appium.notDisplayed`).  The selector was written from a locator, whose text stands
in it behind a tilde or as a literal of an XPath expression.  The text is an argument of every
line of evidence with that message (`Locator.mem_evidenceArguments`), so healing finds the
steps that look for the element; and it changes them unless something else in the message is
the text of another hint (`Plan.heal_notDisplayed`).
-/
namespace Testplan

/-! ## The messages of Appium -/

namespace Appium

/-- The message of a test that waits in vain for an element. -/
def notDisplayed (l : Locator) : String :=
  "element (\"" ++ selector l ++ "\") still not displayed"

theorem toList_xpathLiteral {t : String} (h : '\'' ∉ t.toList) :
    (xpathLiteral t).toList = '\'' :: (t.toList ++ ['\'']) := by
  have hcontains : (!t.toList.contains '\'') = true := by simpa using h
  rw [xpathLiteral, if_pos hcontains, String.toList_append, String.toList_append]
  rfl

/-- The first literal behind an equals sign is found. -/
theorem finds_literal (lead : String) (hlead : '=' ∉ lead.toList) {t : String}
    (ht : '\'' ∉ t.toList) (back : List Char) :
    Finds attributeAt? ((lead ++ "=" ++ xpathLiteral t ++ "]").toList ++ back) t.toList := by
  have hfound : attributeAt? ("=".toList ++ ((xpathLiteral t).toList ++ ("]".toList ++ back))) =
      some (t.toList, "]".toList ++ back) := by
    rw [toList_xpathLiteral ht, List.cons_append, List.append_assoc]
    exact attributeAt?_literal ht _
  simp only [String.toList_append, List.append_assoc]
  exact .attribute_append (.here hfound) hlead

/-- **The text of a locator is found in its selector**, if the selector is an expression with
that text. -/
theorem finds_selector {l : Locator} (hk : l.kind ∈ [.placeholder, .name, .inputType, .role])
    {t : String} (hpayload : l.payload = some t) (ht : '\'' ∉ t.toList) (back : List Char) :
    Finds attributeAt? ((selector l).toList ++ back) t.toList := by
  cases l with
  | placeholder =>
    cases hpayload
    exact finds_literal "//*[@placeholder" (by decide) ht back
  | name =>
    cases hpayload
    exact finds_literal "//*[@name" (by decide) ht back
  | inputType =>
    cases hpayload
    exact finds_literal "//input[@type" (by decide) ht back
  | role r =>
    cases hpayload
    cases r with
    | link => exact finds_literal "//a[normalize-space()" (by decide) ht back
    | button =>
      -- the role of the button is found first
      have hrole (rest : List Char) :
          attributeAt? ("='button'".toList ++ rest) = some ("button".toList, rest) := by
        have hsplit : "='button'".toList = '=' :: '\'' :: ("button".toList ++ ['\'']) := by decide
        rw [hsplit, List.cons_append, List.cons_append, List.append_assoc]
        exact attributeAt?_literal (by decide) rest
      have hname := finds_literal "][normalize-space()" (by decide) ht back
      have hselector : selector (.role .button t) = "//*[self::button or @role" ++
          ("='button'" ++ ("][normalize-space()" ++ "=" ++ xpathLiteral t ++ "]")) := by
        simp only [← String.append_assoc]
        rfl
      rw [hselector, String.toList_append, String.toList_append, List.append_assoc,
        List.append_assoc]
      exact .attribute_append (.behind (hrole _) hname) (by decide)
  | label | text | css => simp [Locator.kind] at hk
  | firstField | firstOfRole => cases hpayload

end Appium

/-! ## What the messages say -/

/-- **The text of a locator is an argument** of every line of evidence with the message. -/
theorem Locator.mem_evidenceArguments {l : Locator}
    (hk : l.kind ∈ [.label, .placeholder, .name, .inputType, .role]) {t : String}
    (hpayload : l.payload = some t) (htrimmed : Text.Trimmed t) (hquotes : Unquoted t.toList)
    (htilde : t.toList.head? ≠ some '~') {before : String} (hbefore : Unquoted before.toList)
    (after : String) : t ∈ evidenceArguments (before ++ Appium.notDisplayed l ++ after) := by
  obtain ⟨hplain, hbehind⟩ := argumentOf?_of_trimmed htrimmed htilde
  -- no quote stands before that of the selector
  have hlead : Unquoted (before.toList ++ "element ".toList) :=
    unquoted_append.mpr ⟨hbefore, by decide⟩
  obtain ⟨rest, hlist⟩ : ∃ rest, (before ++ Appium.notDisplayed l ++ after).toList =
      (before.toList ++ "element ".toList) ++
        '(' :: '"' :: ((Appium.selector l).toList ++ '"' :: rest) := by
    have hopen : "element (\"".toList = "element ".toList ++ ['(', '"'] := by decide
    have hclose : "\") still not displayed".toList = '"' :: ") still not displayed".toList := by
      decide
    refine ⟨") still not displayed".toList ++ after.toList, ?_⟩
    simp only [Appium.notDisplayed, String.toList_append, hopen, hclose, List.append_assoc,
      List.cons_append, List.nil_append]
  rw [mem_evidenceArguments_iff, hlist]
  by_cases hlabel : l.kind = .label
  · refine ⟨'~' :: t.toList, .inl ?_, hbehind⟩
    obtain rfl : l = .label t := by
      cases l <;> cases hlabel
      cases hpayload
      rfl
    have hselector : quotedAt? ('"' :: ((Appium.selector (.label t)).toList ++ '"' :: rest)) =
        some ('~' :: t.toList, rest) := by
      have htext : (Appium.selector (.label t)).toList = '~' :: t.toList := String.toList_append
      rw [htext]
      exact Text.cutAtChar_append (by simpa using hquotes.2)
    exact (Finds.skip rfl (.here hselector)).quoted_append hlead
  · refine ⟨t.toList, .inr (.inl ?_), hplain⟩
    have hexpr : l.kind ∈ [LocatorKind.placeholder, .name, .inputType, .role] :=
      (List.mem_cons.mp hk).resolve_left hlabel
    have hselector := Appium.finds_selector hexpr hpayload hquotes.1 ('"' :: rest)
    exact (Finds.skip rfl (.skip rfl hselector)).attribute_append_of_unquoted hlead (by decide)
      (by decide)

/-- **Healing closes the loop with Appium.**  A run that waited in vain for the element of a
hint always leads to a suspect.  If the evidence names no other hint of the plan, the hint is
replaced by what else is known about the element, wherever it stands, unless the plan has the
last version that there is; or it is reported that nothing else is known. -/
theorem Plan.heal_notDisplayed_iff (p : Plan) (d : Discovery) {hint : String}
    (hhint : hint ∈ p.hints) {l : Locator} (hl : Locator.parse hint = .ok l)
    (hk : l.kind ∈ [.label, .placeholder, .name, .inputType, .role]) {t : String}
    (hpayload : l.payload = some t) (hquotes : Unquoted t.toList)
    (htilde : t.toList.head? ≠ some '~') {before : String} (hbefore : Unquoted before.toList)
    (after : String) {evidence : String}
    (hevidence : evidence = before ++ Appium.notDisplayed l ++ after) :
    t ∈ evidenceArguments evidence ∧
    p.heal d evidence ≠ .error .noEvidence ∧
    ((∀ other ∈ p.hints, isSuspect (evidenceArguments evidence) other → other = hint) →
      ((∃ new healed, d.Alternative l new ∧ p.heal d evidence = .ok healed ∧
          p.Repaired hint new.render healed) ↔
        p.id.version.toNat + 1 < UInt32.size ∧ ∃ new, d.Alternative l new) ∧
      (p.heal d evidence = .error (.noAlternative hint) ↔ ∀ new, ¬ d.Alternative l new) ∧
      (p.heal d evidence = .overflow ↔
        p.id.version.toNat + 1 = UInt32.size ∧ ∃ new, d.Alternative l new)) := by
  have hargument : t ∈ evidenceArguments evidence := by
    rw [hevidence]
    exact Locator.mem_evidenceArguments hk hpayload (Locator.trimmed_payload_of_parse hl hpayload)
      hquotes htilde hbefore after
  have hsuspect : isSuspect (evidenceArguments evidence) hint :=
    isSuspect_iff.mpr ⟨l, t, hl, hpayload, hargument⟩
  refine ⟨hargument, fun hnone => ?_, fun hsole => ?_⟩
  · have hmem := mem_suspects_iff.mpr ⟨hhint, hsuspect⟩
    rw [suspects_of_noEvidence hnone] at hmem
    cases hmem
  · have hs := suspects_eq_singleton hhint hsuspect hsole
    rcases heal_of_sole hs hl d with ⟨new, hnew, hheal⟩ | ⟨hno, hheal⟩
    · have hrepaired : (∃ new healed, d.Alternative l new ∧ p.heal d evidence = .ok healed ∧
          p.Repaired hint new.render healed) ↔ p.id.version.toNat + 1 < UInt32.size := by
        constructor
        · rintro ⟨_, healed, -, -, hr⟩
          exact hr.version ▸ healed.plan.id.version.toNat_lt_size
        · intro hroom
          obtain ⟨healed, hhealed⟩ := revisedTo_of_room hint new.render hroom
          exact ⟨new, healed, hnew, hheal.trans hhealed, revisedTo_eq_ok_iff.mp hhealed⟩
      refine ⟨hrepaired.trans (and_iff_left ⟨new, hnew⟩).symm, ?_, ?_⟩
      · rw [hheal]
        exact iff_of_false revisedTo_ne_error fun hno => hno new hnew
      · rw [hheal, revisedTo_eq_overflow_iff]
        exact (and_iff_left ⟨new, hnew⟩).symm
    · have hnothing : ¬ ∃ new, d.Alternative l new := fun ⟨new, hnew⟩ => hno new hnew
      refine ⟨iff_of_false ?_ fun h => hnothing h.2, iff_of_true hheal hno, ?_⟩
      · rintro ⟨new, -, hnew, -⟩
        exact hno new hnew
      · rw [hheal]
        exact iff_of_false nofun fun h => hnothing h.2

/-- The message names the attribute by which the field was looked for, and the first field is
taken instead. -/
theorem Plan.healed_by_first_field : ∃ healed,
    (Sample.plan .statement "name=email").heal (Sample.discovery "email")
      "Error: element (\"//*[@name='email']\") still not displayed after 10000ms" = .ok healed ∧
    healed.plan.hints = ["field"] := by
  have hhints : (Sample.plan .statement "name=email").hints = ["name=email"] := by decide +kernel
  have hparse : Locator.parse "name=email" = .ok (.name "email") := by decide +kernel
  have hbefore : Unquoted "Error: ".toList := by decide
  have hevidence : "Error: element (\"//*[@name='email']\") still not displayed after 10000ms" =
      "Error: " ++ Appium.notDisplayed (.name "email") ++ " after 10000ms" := by decide +kernel
  obtain ⟨-, -, hsole⟩ := Plan.heal_notDisplayed_iff (Sample.plan .statement "name=email")
    (Sample.discovery "email") (hhints ▸ List.mem_cons_self) hparse (by decide) rfl (by decide)
    (by decide) hbefore _ hevidence
  have halternative : (Sample.discovery "email").Alternative (.name "email") .firstField :=
    Discovery.alternative?_eq_some_iff.mp (by decide +kernel)
  obtain ⟨hrepaired, -, -⟩ := hsole fun other hother _ => by simpa [hhints] using hother
  obtain ⟨new, healed, hnew, hheal, hr⟩ := hrepaired.mpr ⟨by decide +kernel, _, halternative⟩
  cases (Discovery.alternative?_eq_some_iff.mpr hnew).symm.trans
    (Discovery.alternative?_eq_some_iff.mpr halternative)
  refine ⟨healed, hheal, ?_⟩
  unfold Plan.hints
  rw [hr.cases]
  decide +kernel

/-- A plan in the last version that there is cannot be corrected, although the message names
one of its hints and something else is known about the field. -/
theorem Plan.notDisplayed_in_last_version : ∃ p : Plan, p.hints = ["name=email"] ∧
    Locator.parse "name=email" = .ok (.name "email") ∧
    (Sample.discovery "email").Alternative (.name "email") .firstField ∧
    p.heal (Sample.discovery "email")
      ("Error: " ++ Appium.notDisplayed (.name "email") ++ " after 10000ms") = .overflow :=
  ⟨{ Sample.plan .statement "name=email" with id := ⟨Sample.uuid 1000, 4294967295, none⟩ },
    by decide +kernel, by decide +kernel, Discovery.alternative?_eq_some_iff.mp (by decide +kernel),
    by decide +kernel⟩

end Testplan
