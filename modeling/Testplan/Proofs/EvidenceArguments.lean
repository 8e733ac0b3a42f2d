import Testplan.Healing
import Testplan.Proofs.HintRoundTrip
/-!
# The arguments of evidence

Three searches go through a line of evidence: for texts in quotes, for attributes, and for the
texts of messages about labels.  Each passes over the places where nothing begins, and goes on
behind what it found.  `Finds` says this without the count that bounds a search, and the
count never cuts a search short (`mem_findAll_iff`), so the arguments are what the searches find
(`mem_evidenceArguments_iff`).

A search for quotes or attributes passes over whole texts in which nothing can begin
(`Finds.quoted_append`, `Finds.attribute_append`), and this is how a text that was written
into a message is found in it.
-/
namespace Testplan

/-! ## Searches -/

section Search

variable {found? : List Char → Option (List Char × List Char)}

theorem findAll_of_some {cs found rest : List Char} (h : found? cs = some (found, rest))
    (fuel : Nat) : findAll found? (fuel + 1) cs = found :: findAll found? fuel rest := by
  simp only [findAll, h]

theorem findAll_of_none {c : Char} {cs : List Char} (h : found? (c :: cs) = none)
    (fuel : Nat) : findAll found? (fuel + 1) (c :: cs) = findAll found? fuel cs := by
  simp only [findAll, h]

/-- **A search from left to right comes upon a text.** -/
inductive Finds (found? : List Char → Option (List Char × List Char)) :
    List Char → List Char → Prop
  | here {cs found rest} (h : found? cs = some (found, rest)) : Finds found? cs found
  | behind {cs other rest found} (h : found? cs = some (other, rest))
      (hrest : Finds found? rest found) : Finds found? cs found
  | skip {c cs found} (h : found? (c :: cs) = none) (hrest : Finds found? cs found) :
      Finds found? (c :: cs) found

/-- Whatever is found is taken from the text. -/
def Consumes (found? : List Char → Option (List Char × List Char)) : Prop :=
  ∀ cs found rest, found? cs = some (found, rest) → rest.length < cs.length

theorem Finds.mem_findAll (hfound : Consumes found?) :
    ∀ {fuel cs found}, Finds found? cs found → cs.length < fuel → found ∈ findAll found? fuel cs
  | 0, _, _, _, hfuel => absurd hfuel (Nat.not_lt_zero _)
  | fuel + 1, cs, found, h, hfuel => by
    cases h with
    | here h =>
      rw [findAll_of_some h]
      exact List.mem_cons_self
    | @behind _ other rest _ h hrest =>
      have hless := hfound cs other rest h
      rw [findAll_of_some h]
      exact List.mem_cons_of_mem _ (hrest.mem_findAll hfound (by omega))
    | skip h hrest =>
      rw [findAll_of_none h]
      exact hrest.mem_findAll hfound (Nat.lt_of_succ_lt_succ hfuel)

theorem finds_of_mem_findAll {found : List Char} :
    ∀ {fuel cs}, found ∈ findAll found? fuel cs → Finds found? cs found
  | 0, _, h => by cases h
  | fuel + 1, cs, h => by
    cases hcs : found? cs with
    | some next =>
      rw [findAll_of_some hcs] at h
      rcases List.mem_cons.mp h with rfl | h
      · exact .here hcs
      · exact .behind hcs (finds_of_mem_findAll h)
    | none =>
      cases cs with
      | nil =>
        simp only [findAll, hcs] at h
        cases h
      | cons c rest =>
        rw [findAll_of_none hcs] at h
        exact .skip hcs (finds_of_mem_findAll h)

/-- **What a search finds**, whatever the count that bounds it. -/
theorem mem_findAll_iff (hfound : Consumes found?) {cs found : List Char} {fuel : Nat}
    (hfuel : cs.length < fuel) : found ∈ findAll found? fuel cs ↔ Finds found? cs found :=
  ⟨finds_of_mem_findAll, fun h => h.mem_findAll hfound hfuel⟩

end Search

/-! ## Texts in quotes -/

/-- No quote of either kind. -/
def Unquoted (cs : List Char) : Prop := '\'' ∉ cs ∧ '"' ∉ cs

instance (cs : List Char) : Decidable (Unquoted cs) := inferInstanceAs (Decidable (_ ∧ _))

theorem unquoted_cons {c : Char} {cs : List Char} :
    Unquoted (c :: cs) ↔ (c ≠ '\'' ∧ c ≠ '"') ∧ Unquoted cs := by
  unfold Unquoted
  rw [List.mem_cons, List.mem_cons, not_or, not_or, ne_comm (a := c), ne_comm (a := c)]
  exact and_and_and_comm

theorem unquoted_append {before after : List Char} :
    Unquoted (before ++ after) ↔ Unquoted before ∧ Unquoted after := by
  unfold Unquoted
  rw [List.mem_append, List.mem_append, not_or, not_or]
  exact and_and_and_comm

theorem quotedAt?_cons_of_ne {c : Char} (h : c ≠ '\'' ∧ c ≠ '"') (cs : List Char) :
    quotedAt? (c :: cs) = none := by
  unfold quotedAt?
  split
  · next heq => exact absurd (List.cons.inj heq).1 h.1
  · next heq => exact absurd (List.cons.inj heq).1 h.2
  · rfl

theorem attributeAt?_cons_of_ne {c : Char} (h : c ≠ '=') (cs : List Char) :
    attributeAt? (c :: cs) = none := by
  unfold attributeAt?
  split
  · next heq => exact absurd (List.cons.inj heq).1 h
  · rfl

theorem consumes_quotedAt? : Consumes quotedAt? := by
  intro cs found rest h
  unfold quotedAt? at h
  split at h
  · exact Nat.lt_succ_of_lt (Text.length_of_cutAtChar h)
  · exact Nat.lt_succ_of_lt (Text.length_of_cutAtChar h)
  · cases h

theorem consumes_attributeAt? : Consumes attributeAt? := by
  intro cs found rest h
  unfold attributeAt? at h
  split at h
  · next tail =>
    have hdrop := (List.dropWhile_suffix Text.isBlank (l := tail)).length_le
    have hrest := consumes_quotedAt? _ _ _ h
    rw [List.length_cons]
    omega
  · cases h

/-- A literal behind an equals sign is an attribute. -/
theorem attributeAt?_literal {cs : List Char} (h : '\'' ∉ cs) (rest : List Char) :
    attributeAt? ('=' :: '\'' :: (cs ++ '\'' :: rest)) = some (cs, rest) := by
  show quotedAt? (('\'' :: (cs ++ '\'' :: rest)).dropWhile Text.isBlank) = _
  rw [List.dropWhile_cons_of_neg (by decide)]
  exact Text.cutAtChar_append h

/-- No quote stands behind the blanks of a text without quotes, if neither a blank nor a quote
follows. -/
theorem quotedAt?_dropWhile_of_unquoted {cs : List Char} (hcs : Unquoted cs) {c : Char}
    (hblank : Text.isBlank c = false) (hc : c ≠ '\'' ∧ c ≠ '"') (rest : List Char) :
    quotedAt? ((cs ++ c :: rest).dropWhile Text.isBlank) = none := by
  induction cs with
  | nil =>
    rw [List.nil_append, List.dropWhile_cons_of_neg (by simp [hblank])]
    exact quotedAt?_cons_of_ne hc rest
  | cons d cs ih =>
    obtain ⟨hd, hcs⟩ := unquoted_cons.mp hcs
    rw [List.cons_append, List.dropWhile_cons]
    split
    · exact ih hcs
    · exact quotedAt?_cons_of_ne hd _

namespace Finds

variable {cs rest found : List Char}

/-- The search for quotes passes over a text without quotes. -/
theorem quoted_append (h : Finds quotedAt? rest found) (hcs : Unquoted cs) :
    Finds quotedAt? (cs ++ rest) found := by
  induction cs with
  | nil => exact h
  | cons c cs ih =>
    obtain ⟨hc, hcs⟩ := unquoted_cons.mp hcs
    exact .skip (quotedAt?_cons_of_ne hc _) (ih hcs)

/-- The search for attributes passes over a text without equals signs. -/
theorem attribute_append (h : Finds attributeAt? rest found) (hcs : '=' ∉ cs) :
    Finds attributeAt? (cs ++ rest) found := by
  induction cs with
  | nil => exact h
  | cons c cs ih =>
    rw [List.mem_cons, not_or] at hcs
    exact .skip (attributeAt?_cons_of_ne (Ne.symm hcs.1) _) (ih hcs.2)

/-- The search for attributes passes over a text without quotes, if neither a blank nor a quote
follows. -/
theorem attribute_append_of_unquoted {c : Char} (h : Finds attributeAt? (c :: rest) found)
    (hcs : Unquoted cs) (hblank : Text.isBlank c = false) (hc : c ≠ '\'' ∧ c ≠ '"') :
    Finds attributeAt? (cs ++ c :: rest) found := by
  induction cs with
  | nil => exact h
  | cons d cs ih =>
    obtain ⟨-, hcs⟩ := unquoted_cons.mp hcs
    refine .skip ?_ (ih hcs)
    by_cases hd : d = '='
    · rw [hd]
      exact quotedAt?_dropWhile_of_unquoted hcs hblank hc rest
    · exact attributeAt?_cons_of_ne hd _

end Finds

/-! ## Arguments -/

theorem length_of_beforeRemark {cs acc found rest : List Char}
    (h : beforeRemark acc cs = some (found, rest)) : rest.length ≤ cs.length := by
  induction cs generalizing acc with
  | nil =>
    unfold beforeRemark at h
    split at h
    · cases h
    · cases h
      exact Nat.le_refl _
  | cons c cs ih =>
    unfold beforeRemark at h
    split at h
    · next remark hremark =>
      cases h
      split at hremark
      · cases hremark
      · have := Text.length_of_dropPiece? hremark
        omega
    · split at h
      · cases h
      · exact Nat.le_succ_of_le (ih h)

theorem consumes_labelTextAt? : Consumes labelTextAt? := by
  intro cs found rest h
  obtain ⟨text, htext, h⟩ := Option.bind_eq_some_iff.mp h
  have hphrase : rest.length ≤ text.length := length_of_beforeRemark h
  have hlabel : text.length + 9 = cs.length := Text.length_of_dropPiece? htext
  omega

/-- **The arguments of evidence** are what the searches find, without white space and tildes. -/
theorem mem_evidenceArguments_iff {evidence t : String} :
    t ∈ evidenceArguments evidence ↔ ∃ found,
      (Finds quotedAt? evidence.toList found ∨ Finds attributeAt? evidence.toList found ∨
        Finds labelTextAt? evidence.toList found) ∧ argumentOf? found = some t := by
  have hfuel := Nat.lt_succ_self evidence.toList.length
  unfold evidenceArguments
  simp only [List.mem_filterMap, List.mem_append, or_assoc,
    mem_findAll_iff consumes_quotedAt? hfuel, mem_findAll_iff consumes_attributeAt? hfuel,
    mem_findAll_iff consumes_labelTextAt? hfuel]

/-- A trimmed text without a tilde in front is an argument as it is, and behind a tilde. -/
theorem argumentOf?_of_trimmed {t : String} (h : Text.Trimmed t)
    (htilde : t.toList.head? ≠ some '~') :
    argumentOf? t.toList = some t ∧ argumentOf? ('~' :: t.toList) = some t := by
  obtain ⟨hend, hne⟩ := h.dropEndWhile
  have htrim : Text.trim ('~' :: t.toList) = '~' :: t.toList := by
    rw [Text.trim, List.dropWhile_cons_of_neg (by decide),
      Text.dropEndWhile_cons_of_not (by decide), hend]
  have hdrop : t.toList.dropWhile (· = '~') = t.toList := by
    cases ht : t.toList with
    | nil => rfl
    | cons c rest =>
      rw [ht] at htilde
      exact List.dropWhile_cons_of_neg (by simpa using htilde)
  have hvalue : t.toList.isEmpty = false := by simpa using hne
  unfold argumentOf?
  rw [h.trim, htrim, List.dropWhile_cons_of_pos (by simp), hdrop]
  simp [hvalue]

end Testplan
