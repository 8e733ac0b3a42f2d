import Mathlib.Data.List.Basic
import Mathlib.Data.List.Chain
import Mathlib.Data.List.DropRight
import Mathlib.Data.List.Forall2
import Mathlib.Data.List.Nodup
import Mathlib.Data.List.Sigma
import Testplan.TextBlank
import Testplan.TextCut
/-!
# Lists, texts and computations that may fail

Facts that other modules share and that mention no plan, job or page: when a computation that
may fail gives a result, how lists without duplicates and lists of blocks are made up, and what
is left of a text that is trimmed, cut at a character or a piece, or read word by word.
-/
namespace Testplan

/-! ## Computations that may fail -/

theorem bind_eq_ok_iff {α β ε : Type} {x : Except ε α} {f : α → Except ε β} {b : β} :
    (x >>= f) = .ok b ↔ ∃ a, x = .ok a ∧ f a = .ok b := by
  cases x <;> simp [bind, Except.bind]

theorem map_eq_ok_iff {α β ε : Type} {x : Except ε α} {f : α → β} {b : β} :
    x.map f = .ok b ↔ ∃ a, x = .ok a ∧ f a = b := by
  cases x <;> simp [Except.map]

theorem mapM_eq_ok_iff {α β ε : Type} {f : α → Except ε β} {as : List α} {bs : List β} :
    as.mapM f = .ok bs ↔ List.Forall₂ (fun a b => f a = .ok b) as bs := by
  induction as generalizing bs with
  | nil => simp [pure, Except.pure, eq_comm]
  | cons a as ih =>
    rw [List.mapM_cons, List.forall₂_cons_left_iff]
    cases ha : f a with
    | error e => simp [bind, Except.bind]
    | ok b =>
      cases has : as.mapM f with
      | error e =>
        have hnone (u : List β) : ¬ List.Forall₂ (fun a b => f a = .ok b) as u := fun h => by
          cases has.symm.trans (ih.mpr h)
        simp [bind, Except.bind, hnone]
      | ok others =>
        constructor
        · intro h
          cases h
          exact ⟨b, others, rfl, ih.mp has, rfl⟩
        · rintro ⟨c, u, hc, hu, rfl⟩
          cases hc
          cases has.symm.trans (ih.mpr hu)
          rfl

/-! ## Lists -/

theorem exists_related {α β : Type} {R : α → β → Prop} {as : List α} {bs : List β}
    (h : List.Forall₂ R as bs) : (∀ a ∈ as, ∃ b ∈ bs, R a b) ∧ ∀ b ∈ bs, ∃ a ∈ as, R a b := by
  induction h with
  | nil => simp
  | @cons a b as bs hab _ ih =>
    refine ⟨List.forall_mem_cons.mpr ⟨⟨b, List.mem_cons_self, hab⟩, fun x hx => ?_⟩,
      List.forall_mem_cons.mpr ⟨⟨a, List.mem_cons_self, hab⟩, fun y hy => ?_⟩⟩
    · obtain ⟨y, hy, hxy⟩ := ih.1 x hx
      exact ⟨y, List.mem_cons_of_mem _ hy, hxy⟩
    · obtain ⟨x, hx, hxy⟩ := ih.2 y hy
      exact ⟨x, List.mem_cons_of_mem _ hx, hxy⟩

theorem zip_map_self {α β : Type} (f : α → β) (l : List α) :
    l.zip (l.map f) = l.map fun a => (a, f a) := by
  simpa using List.zip_map' (f := id) (g := f) (l := l)

theorem length_splitOn (c : Char) (cs : List Char) :
    (cs.splitOn c).length = cs.count c + 1 := by
  induction cs with
  | nil => rfl
  | cons d cs ih =>
    rw [List.splitOn_cons_eq_if_modifyHead, List.count_cons]
    split
    · rw [List.length_cons, ih]
    · rw [List.length_modifyHead, ih]

theorem intercalate_nil {α : Type} (blocks : List (List α)) :
    [].intercalate blocks = blocks.flatten := by
  induction blocks with
  | nil => rfl
  | cons b rest ih =>
    cases rest with
    | nil => simp
    | cons c rest => rw [List.intercalate_cons_cons, ih]; simp

/-- Blocks of known lengths are read off the list that joins them. -/
theorem intercalate_inj {α : Type} {gap : List α} {xs ys : List (List α)}
    (h : List.Forall₂ (fun x y => x.length = y.length) xs ys)
    (heq : gap.intercalate xs = gap.intercalate ys) : xs = ys := by
  induction h with
  | nil => rfl
  | @cons x y xs ys hxy hrest ih =>
    cases hrest with
    | nil => simpa using heq
    | cons hnext htail =>
      rw [List.intercalate_cons_cons, List.intercalate_cons_cons, List.append_assoc,
        List.append_assoc] at heq
      obtain ⟨rfl, hgap⟩ := List.append_inj heq hxy
      rw [ih (List.append_cancel_left hgap)]

theorem nodup_eraseDups {α : Type} [BEq α] [LawfulBEq α] (as : List α) :
    as.eraseDups.Nodup := by
  match as with
  | [] => exact List.nodup_nil
  | a :: as =>
    rw [List.eraseDups_cons]
    exact List.nodup_cons.mpr ⟨by simp [List.mem_eraseDups], nodup_eraseDups _⟩
termination_by as.length
decreasing_by exact Nat.lt_succ_of_le (List.length_filter_le _ _)

theorem eraseDups_map {α β : Type} [BEq α] [LawfulBEq α] [BEq β] [LawfulBEq β] {f : α → β}
    (hf : Function.Injective f) (as : List α) :
    (as.map f).eraseDups = as.eraseDups.map f := by
  match as with
  | [] => rfl
  | a :: as =>
    have hfilter : (as.map f).filter (fun b => !b == f a) =
        (as.filter fun b => !b == a).map f := by
      rw [List.filter_map]
      exact congrArg _ (List.filter_congr fun b _ => by simp [hf.eq_iff])
    rw [List.map_cons, List.eraseDups_cons, List.eraseDups_cons, List.map_cons, hfilter,
      eraseDups_map hf]
termination_by as.length
decreasing_by exact Nat.lt_succ_of_le (List.length_filter_le _ _)

/-- Positions in a list are different. -/
theorem nodup_positions {α : Type} {l : List α} {some_of_them : List (α × Nat)}
    (h : some_of_them.Sublist l.zipIdx) : (some_of_them.map fun a => some a.2).Nodup := by
  have hnodup := (List.nodup_zipIdx_map_snd l).sublist (h.map Prod.snd)
  have hsome := hnodup.map fun _ _ => Option.some.inj
  rwa [List.map_map] at hsome

/-- Lists whose members tell which list they are from have no member in common. -/
theorem nodup_flatMap_of_source {α β : Type} {l : List α} {f : α → List β} (source : β → α)
    (hl : l.Nodup) (hf : ∀ a ∈ l, (f a).Nodup) (hsource : ∀ a ∈ l, ∀ b ∈ f a, source b = a) :
    (l.flatMap f).Nodup := by
  refine List.nodup_flatMap.mpr ⟨hf, hl.imp_of_mem fun {a b} ha hb hne c hc hc' => hne ?_⟩
  rw [← hsource a ha c hc, hsource b hb c hc']

/-- A run of steps that each lower a number is not longer than the number with which it
begins. -/
theorem length_le_of_isChain {α : Type} {r : α → α → Prop} {number : α → Nat}
    {a : α} {later : List α} (h : (a :: later).IsChain r)
    (hr : ∀ a b, r a b → number b < number a) : later.length ≤ number a := by
  induction later generalizing a with
  | nil => exact Nat.zero_le _
  | cons b later ih =>
    obtain ⟨hab, hrest⟩ := List.isChain_cons_cons.mp h
    exact Nat.lt_of_le_of_lt (ih hrest) (hr _ _ hab)

/-! ## Numbers as texts -/

theorem toList_toString (n : Nat) : (toString n).toList = Nat.toDigits 10 n :=
  Nat.toList_repr

theorem digits_toString {n : Nat} {c : Char} (hc : c ∈ (toString n).toList) :
    c.isDigit = true := by
  rw [toList_toString] at hc
  exact Nat.isDigit_of_mem_toDigits (Nat.zero_lt_succ 9) (Nat.le_refl 10) hc

namespace Text

/-! ## Texts that are trimmed -/

theorem dropEndWhile_eq_nil_iff {p : Char → Bool} {cs : List Char} :
    dropEndWhile p cs = [] ↔ ∀ c ∈ cs, p c = true := by
  induction cs with
  | nil => simp [dropEndWhile]
  | cons c rest ih =>
    rw [dropEndWhile, List.forall_mem_cons, ← ih]
    cases dropEndWhile p rest with
    | nil => by_cases hc : p c = true <;> simp [hc]
    | cons d others => simp

/-- What is kept of the end keeps all that stands before it. -/
theorem dropEndWhile_append {p : Char → Bool} {before after : List Char}
    (h : dropEndWhile p after ≠ []) :
    dropEndWhile p (before ++ after) = before ++ dropEndWhile p after := by
  induction before with
  | nil => rfl
  | cons c rest ih =>
    rw [List.cons_append, dropEndWhile, ih]
    cases hr : rest ++ dropEndWhile p after with
    | nil => exact absurd (List.append_eq_nil_iff.mp hr).2 h
    | cons d others => rw [List.cons_append, hr]

theorem mem_of_mem_dropEndWhile {p : Char → Bool} {c : Char} {cs : List Char}
    (h : c ∈ dropEndWhile p cs) : c ∈ cs := by
  induction cs with
  | nil => exact h
  | cons d cs ih =>
    rw [dropEndWhile] at h
    split at h
    · split at h
      · cases h
      · exact List.mem_cons.mpr (.inl (List.mem_singleton.mp h))
    · rcases List.mem_cons.mp h with rfl | h
      · exact List.mem_cons_self
      · exact List.mem_cons_of_mem _ (ih h)

theorem trim_eq_nil_iff {cs : List Char} : trim cs = [] ↔ ∀ c ∈ cs, isBlank c = true := by
  rw [trim, dropEndWhile_eq_nil_iff, ← List.dropWhile_eq_nil_iff, List.dropWhile_idempotent,
    List.dropWhile_eq_nil_iff]

theorem strip_eq_empty_iff {s : String} : strip s = "" ↔ isBlankText s = true := by
  rw [isBlankText, List.all_eq_true, ← trim_eq_nil_iff, strip]
  constructor
  · intro h
    simpa using congrArg String.toList h
  · intro h
    rw [h]

theorem trim_of_strip {t : String} (h : strip t = t) : trim t.toList = t.toList := by
  simpa [strip] using congrArg String.toList h

/-- Blanks that were dropped at the end are not missed. -/
theorem trim_dropEndWhile (cs : List Char) : trim (dropEndWhile isBlank cs) = trim cs := by
  unfold trim
  induction cs with
  | nil => rfl
  | cons c rest ih =>
    by_cases hc : isBlank c = true
    · rw [List.dropWhile_cons_of_pos hc, ← ih, dropEndWhile]
      cases dropEndWhile isBlank rest with
      | nil => simp [hc]
      | cons d others => rw [List.dropWhile_cons_of_pos hc]
    · rw [dropEndWhile_cons_of_not hc, List.dropWhile_cons_of_neg hc,
        List.dropWhile_cons_of_neg hc, dropEndWhile_cons_of_not hc, dropEndWhile_cons_of_not hc,
        dropEndWhile_dropEndWhile]

/-- Texts without blanks at their ends make a text without blanks at its ends. -/
theorem trim_append {a b : List Char} (ha : trim a = a) (hb : trim b = b) (hane : a ≠ [])
    (hbne : b ≠ []) : trim (a ++ b) = a ++ b := by
  have hfirst : a.dropWhile isBlank = a := by
    rw [← ha, trim, dropWhile_dropEndWhile]
  have hlast : dropEndWhile isBlank b = b := by
    rw [← hb, trim, dropEndWhile_dropEndWhile]
  have hne : a.isEmpty = false := by simpa using hane
  have hwhole : (a ++ b).dropWhile isBlank = a ++ b := by
    rw [List.dropWhile_append, hfirst, hne]
    rfl
  rw [trim, hwhole, dropEndWhile_append (by rwa [hlast]), hlast]

/-- A text with a character that is no blank is trimmed at the outer ends of the parts before
and after it. -/
theorem trim_cut {sep : Char} (hsep : ¬ isBlank sep = true) (before after : List Char) :
    trim (before ++ sep :: after) =
      before.dropWhile isBlank ++ sep :: dropEndWhile isBlank after := by
  have hfirst : (before ++ sep :: after).dropWhile isBlank =
      before.dropWhile isBlank ++ sep :: after := by
    rw [List.dropWhile_append]
    split
    · next h => rw [List.isEmpty_iff.mp h, List.dropWhile_cons_of_neg hsep, List.nil_append]
    · rfl
  have hlast : dropEndWhile isBlank (sep :: after) = sep :: dropEndWhile isBlank after :=
    dropEndWhile_cons_of_not hsep after
  rw [trim, hfirst, dropEndWhile_append (by rw [hlast]; exact List.cons_ne_nil _ _), hlast]

theorem present?_eq_some_iff {s : Option String} {t : String} :
    present? s = some t ↔ ∃ u, s = some u ∧ strip u = t ∧ t ≠ "" := by
  unfold present?
  rw [Option.filter_eq_some_iff, Option.map_eq_some_iff]
  constructor
  · rintro ⟨⟨u, hu, ht⟩, hne⟩
    exact ⟨u, hu, ht, by simpa using hne⟩
  · rintro ⟨u, hu, ht, hne⟩
    exact ⟨⟨u, hu, ht⟩, by simpa using hne⟩

/-- A text is there unless it is blank. -/
theorem present?_some (s : String) :
    present? (some s) = if isBlankText s then none else some (strip s) := by
  unfold present?
  by_cases hs : isBlankText s = true
  · simp [hs, strip_eq_empty_iff.mpr hs]
  · have hne : strip s ≠ "" := fun h => hs (strip_eq_empty_iff.mp h)
    simp [hs, hne]

theorem present?_eq_some_iff_not_blank {s : Option String} {t : String} :
    present? s = some t ↔ ∃ u, s = some u ∧ isBlankText u = false ∧ strip u = t := by
  cases s with
  | none => simp [present?]
  | some u =>
    rw [present?_some]
    cases h : isBlankText u <;> simp [h]

/-! ## Texts that are cut -/

/-- A text is cut at the first of a character: there is none in the part before. -/
theorem cutAtChar_eq_some_iff {sep : Char} {cs before after : List Char} :
    cutAtChar sep cs = some (before, after) ↔ cs = before ++ sep :: after ∧ sep ∉ before := by
  induction cs generalizing before with
  | nil => simp [cutAtChar]
  | cons c rest ih =>
    rw [cutAtChar]
    by_cases hc : c = sep
    · rw [if_pos hc, Option.some_inj, Prod.mk.injEq]
      constructor
      · rintro ⟨rfl, rfl⟩
        exact ⟨congrArg (· :: rest) hc, List.not_mem_nil⟩
      · rintro ⟨h, hsep⟩
        cases before with
        | nil => exact ⟨rfl, (List.cons.inj h).2⟩
        | cons d before =>
          exact absurd ((List.cons.inj h).1 ▸ hc ▸ List.mem_cons_self) hsep
    · rw [if_neg hc, Option.map_eq_some_iff]
      constructor
      · rintro ⟨⟨_, _⟩, h, heq⟩
        cases heq
        obtain ⟨rfl, hsep⟩ := ih.mp h
        exact ⟨rfl, by simp [hsep, Ne.symm hc]⟩
      · rintro ⟨h, hsep⟩
        cases before with
        | nil => exact absurd (List.cons.inj h).1 hc
        | cons d before =>
          obtain ⟨rfl, hrest⟩ := List.cons.inj h
          rw [List.mem_cons, not_or] at hsep
          exact ⟨(before, after), ih.mpr ⟨hrest, hsep.2⟩, rfl⟩

/-- The parts before and after a character that the part before does not contain. -/
theorem cutAtChar_append {sep : Char} {before after : List Char} (h : sep ∉ before) :
    cutAtChar sep (before ++ sep :: after) = some (before, after) :=
  cutAtChar_eq_some_iff.mpr ⟨rfl, h⟩

theorem length_of_cutAtChar {sep : Char} {cs before after : List Char}
    (h : cutAtChar sep cs = some (before, after)) : after.length < cs.length := by
  rw [(cutAtChar_eq_some_iff.mp h).1, List.length_append, List.length_cons]
  omega

/-- What follows a piece is what the text has behind it. -/
theorem dropPiece?_eq_some_iff {piece cs rest : List Char} :
    dropPiece? piece cs = some rest ↔ cs = piece ++ rest := by
  induction piece generalizing cs with
  | nil => exact Option.some_inj
  | cons c piece ih =>
    cases cs with
    | nil => simp [dropPiece?]
    | cons d cs =>
      rw [dropPiece?, List.cons_append, List.cons.injEq]
      by_cases hc : c = d
      · rw [if_pos hc, ih, and_iff_right hc.symm]
      · simp [hc, Ne.symm hc]

theorem length_of_dropPiece? {piece cs rest : List Char}
    (h : dropPiece? piece cs = some rest) : rest.length + piece.length = cs.length := by
  rw [dropPiece?_eq_some_iff.mp h, List.length_append, Nat.add_comm]

section Barrier

variable {piece : List Char} {c : Char} (hc : c ∉ piece)
include hc

/-- A piece does not reach across a character that it does not contain. -/
theorem dropPiece?_barrier (cs more : List Char) :
    dropPiece? piece (cs ++ c :: more) = (dropPiece? piece cs).map (· ++ c :: more) := by
  induction piece generalizing cs with
  | nil => rfl
  | cons p piece ih =>
    obtain ⟨hp, hrest⟩ := List.ne_and_not_mem_of_not_mem_cons hc
    cases cs with
    | nil => simp [dropPiece?, Ne.symm hp]
    | cons d cs =>
      rw [List.cons_append, dropPiece?, dropPiece?]
      split
      · exact ih hrest cs
      · rfl

/-- The first occurrence of a piece is looked for before such a character, and then from there
on. -/
theorem cutAt_barrier (hne : piece ≠ []) (cs more : List Char) :
    cutAt piece (cs ++ c :: more) =
      match cutAt piece cs with
      | some (before, after) => some (before, after ++ c :: more)
      | none => (cutAt piece (c :: more)).map fun (before, after) => (cs ++ before, after) := by
  induction cs with
  | nil =>
    have hnone : cutAt piece [] = none := by
      cases piece with
      | nil => exact absurd rfl hne
      | cons p piece => rfl
    rw [hnone, List.nil_append]
    simp
  | cons d cs ih =>
    rw [List.cons_append, cutAt, cutAt, ← List.cons_append, dropPiece?_barrier hc]
    cases dropPiece? piece (d :: cs) with
    | some rest => rfl
    | none =>
      simp only [Option.map_none]
      rw [ih]
      cases cutAt piece cs with
      | some parts => rfl
      | none => simp [Function.comp_def]

end Barrier

/-- A text is cut into what stands before the piece, the piece and what follows. -/
theorem eq_append_of_cutAt {piece cs before after : List Char}
    (h : cutAt piece cs = some (before, after)) : cs = before ++ (piece ++ after) := by
  induction cs generalizing before with
  | nil =>
    obtain ⟨rest, hrest, heq⟩ := Option.map_eq_some_iff.mp h
    cases heq
    rwa [dropPiece?_eq_some_iff] at hrest
  | cons c cs ih =>
    rw [cutAt] at h
    cases hdrop : dropPiece? piece (c :: cs) with
    | some rest =>
      rw [hdrop] at h
      cases h
      rwa [dropPiece?_eq_some_iff] at hdrop
    | none =>
      rw [hdrop] at h
      obtain ⟨⟨_, _⟩, hcut, heq⟩ := Option.map_eq_some_iff.mp h
      cases heq
      exact congrArg (c :: ·) (ih hcut)

theorem contains_eq (s piece : String) :
    contains s piece = (cutAt piece.toList s.toList).isSome := rfl

/-- What follows the first of a character, with the character. -/
theorem dropWhile_ne_of_mem {sep : Char} {cs : List Char} (h : sep ∈ cs) :
    ∃ rest, cs.dropWhile (· ≠ sep) = sep :: rest ∧ rest ⊆ cs := by
  obtain ⟨before, rest, rfl, hbefore⟩ := List.eq_append_cons_of_mem h
  refine ⟨rest, ?_, fun c hc => by simp [hc]⟩
  rw [List.dropWhile_append_of_pos, List.dropWhile_cons_of_neg (by simp)]
  intro c hc
  simpa using fun heq : c = sep => hbefore (heq ▸ hc)

theorem dropWhile_ne_of_notMem {sep : Char} {cs : List Char} (h : sep ∉ cs) :
    cs.dropWhile (· ≠ sep) = [] :=
  List.dropWhile_eq_nil_iff.mpr fun c hc => by simpa using fun heq : c = sep => h (heq ▸ hc)

theorem splitAll_eq_splitOnP (p : Char → Bool) (cs : List Char) :
    splitAll p cs = cs.splitOnP p := by
  induction cs with
  | nil => rfl
  | cons c cs ih =>
    rw [List.splitOnP_cons_eq_if_modifyHead, splitAll, ih]
    split
    · rfl
    · cases h : cs.splitOnP p with
      | nil => exact absurd h (List.splitOnP_ne_nil p cs)
      | cons piece rest => rfl

theorem splitAll_ne_nil (p : Char → Bool) (cs : List Char) : splitAll p cs ≠ [] := by
  rw [splitAll_eq_splitOnP]
  exact List.splitOnP_ne_nil p cs

theorem not_of_mem_splitAll {p : Char → Bool} {cs piece : List Char}
    (h : piece ∈ splitAll p cs) : ∀ c ∈ piece, ¬ p c := by
  induction cs generalizing piece with
  | nil =>
    rw [List.mem_singleton.mp h]
    simp
  | cons d cs ih =>
    rw [splitAll] at h
    split at h
    · rcases List.mem_cons.mp h with rfl | h
      · simp
      · exact ih h
    · next hd =>
      split at h
      · rw [List.mem_singleton.mp h]
        simpa using hd
      · next first rest heq =>
        rw [heq] at ih
        rcases List.mem_cons.mp h with rfl | h
        · exact List.forall_mem_cons.mpr ⟨hd, ih List.mem_cons_self⟩
        · exact ih (List.mem_cons_of_mem _ h)

/-! ## Words -/

theorem not_isBlank_of_mem_wordsFrom {acc cs : List Char} (hacc : ∀ c ∈ acc, ¬ isBlank c) :
    ∀ w ∈ wordsFrom acc cs, ∀ c ∈ w, ¬ isBlank c := by
  have hword : ∀ c ∈ acc.reverse, ¬ isBlank c := fun c hc => hacc c (List.mem_reverse.mp hc)
  induction cs generalizing acc with
  | nil =>
    rw [wordsFrom]
    split
    · simp
    · simpa using hword
  | cons d cs ih =>
    rw [wordsFrom]
    split
    · have hrest := @ih [] (by simp) (by simp)
      split
      · exact hrest
      · exact List.forall_mem_cons.mpr ⟨hword, hrest⟩
    · next hd =>
      have hcons : ∀ c ∈ d :: acc, ¬ isBlank c := List.forall_mem_cons.mpr ⟨hd, hacc⟩
      exact ih hcons fun c hc => hcons c (List.mem_reverse.mp hc)

theorem ne_nil_of_mem_wordsFrom {acc cs : List Char} : ∀ w ∈ wordsFrom acc cs, w ≠ [] := by
  induction cs generalizing acc with
  | nil =>
    rw [wordsFrom]
    split
    · simp
    · next hacc => simpa using hacc
  | cons c cs ih =>
    rw [wordsFrom]
    split
    · split
      · exact ih
      · next hacc => exact List.forall_mem_cons.mpr ⟨by simpa using hacc, ih⟩
    · exact ih

theorem wordsFrom_append {w : List Char} (hw : ∀ c ∈ w, ¬ isBlank c) (acc rest : List Char) :
    wordsFrom acc (w ++ rest) = wordsFrom (w.reverse ++ acc) rest := by
  induction w generalizing acc with
  | nil => rfl
  | cons c w ih =>
    obtain ⟨hc, hw⟩ := List.forall_mem_cons.mp hw
    rw [List.cons_append, wordsFrom, if_neg hc, ih hw]
    simp

theorem words_intercalate {words : List (List Char)}
    (h : ∀ w ∈ words, w ≠ [] ∧ ∀ c ∈ w, ¬ isBlank c) :
    Text.words ([' '].intercalate words) = words := by
  induction words with
  | nil => rfl
  | cons w others ih =>
    obtain ⟨⟨hne, hw⟩, hothers⟩ := List.forall_mem_cons.mp h
    have hword : ¬ (w.reverse ++ []).isEmpty := by simpa using hne
    cases others with
    | nil =>
      have hread := wordsFrom_append hw [] []
      rw [wordsFrom, if_neg hword] at hread
      simpa [Text.words] using hread
    | cons v others =>
      have hread := wordsFrom_append hw [] (' ' :: [' '].intercalate (v :: others))
      rw [wordsFrom, if_pos (by decide), if_neg hword] at hread
      have hrest := ih hothers
      rw [Text.words] at hrest ⊢
      rw [List.intercalate_cons_cons, List.append_assoc, List.singleton_append, hread, hrest]
      simp

end Text

end Testplan
