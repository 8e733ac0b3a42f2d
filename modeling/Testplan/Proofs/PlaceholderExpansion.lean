import Testplan.Proofs.ResolvedEnvironments
/-!
# What a template expands to

A template is cut at its placeholders as a search from left to right finds them: the first one is
the leftmost in the text, and the search goes on behind it (`Placeholder.Cut`).  Every text can be
cut in exactly one way (`Placeholder.exists_cut`, `Placeholder.Cut.unique`).

Expanding puts the values in and leaves the texts between the placeholders as they are; if a
placeholder has no value, the first such one is the error (`Variables.expand_exact`).
-/
namespace Testplan

namespace Placeholder

/-- **A text cut at its placeholders**, each with what stands before it; `last` stands behind all of
them.  No placeholder begins before the one at which the text is cut. -/
inductive Cut : List Char → List (List Char × String) → List Char → Prop
  | last {text} (h : Free text) : Cut text [] text
  | next {before rest last : List Char} {name : String} {parts : List (List Char × String)}
      (hname : IsName name.toList)
      (hfirst : ∀ ahead other behind, IsName other →
        before ++ written name.toList ++ rest = ahead ++ written other ++ behind →
        before.length ≤ ahead.length)
      (hrest : Cut rest parts last) :
      Cut (before ++ written name.toList ++ rest) ((before, name) :: parts) last

/-- A name ends at the first character that is none of a name's. -/
theorem written_append_inj {name other rest behind : List Char} (hname : IsName name)
    (hother : IsName other) (h : written name ++ rest = written other ++ behind) :
    name = other ∧ rest = behind := by
  have hclosing {found : List Char} (hfound : IsName found) (after : List Char) :
      closing? (found ++ '\x7d' :: after) = some (String.ofList found, after) :=
    closing?_eq_some_iff.mpr ⟨by rwa [String.toList_ofList], by rw [String.toList_ofList]⟩
  have hsame : name ++ '\x7d' :: rest = other ++ '\x7d' :: behind := by
    simpa [written] using h
  have hread := hclosing hname rest
  rw [hsame, hclosing hother behind, Option.some.injEq, Prod.mk.injEq, String.ofList_inj] at hread
  exact ⟨hread.1.symm, hread.2.symm⟩

theorem Cut.unique {text last last' : List Char} {parts parts' : List (List Char × String)}
    (h : Cut text parts last) (h' : Cut text parts' last') : parts' = parts ∧ last' = last := by
  induction h generalizing parts' with
  | last hfree =>
    cases h' with
    | last _ => exact ⟨rfl, rfl⟩
    | @next before rest _ name _ hname _ _ =>
      exact absurd ⟨hname, before, rest, rfl⟩ (hfree name.toList)
  | @next before rest last name parts hname hfirst _ ih =>
    generalize htext : before ++ written name.toList ++ rest = text at h'
    cases h' with
    | last hfree => exact absurd ⟨hname, before, rest, htext⟩ (hfree name.toList)
    | @next before' rest' _ name' parts' hname' hfirst' hrest' =>
      have hlength : before.length = before'.length :=
        le_antisymm (hfirst _ _ _ hname' htext) (hfirst' _ _ _ hname htext.symm)
      rw [List.append_assoc, List.append_assoc] at htext
      obtain ⟨rfl, hbehind⟩ := List.append_inj htext hlength
      obtain ⟨hsame, rfl⟩ := written_append_inj hname hname' hbehind
      obtain ⟨rfl, rfl⟩ := ih hrest'
      rw [String.toList_inj.mp hsame]
      exact ⟨rfl, rfl⟩

/-- The pieces of a text that is cut in this way. -/
def piecesOf (parts : List (List Char × String)) (last : List Char) : List Piece :=
  parts.flatMap (fun part => part.1.map .char ++ [.named part.2]) ++ last.map .char

theorem piecesOf_cons (part : List Char × String) (parts : List (List Char × String))
    (last : List Char) :
    piecesOf (part :: parts) last =
      part.1.map .char ++ .named part.2 :: piecesOf parts last := by
  simp [piecesOf]

/-- A character at which no placeholder begins goes to what stands before the first one. -/
theorem Cut.exists_cons {c : Char} {cs last : List Char} {parts : List (List Char × String)}
    (h : Cut cs parts last) (hhead : ∀ name, IsName name → ¬ written name <+: c :: cs) :
    ∃ parts' last', Cut (c :: cs) parts' last' ∧
      piecesOf parts' last' = .char c :: piecesOf parts last := by
  cases h with
  | last hfree =>
    refine ⟨[], c :: cs, .last fun name hmentions => ?_, rfl⟩
    rcases List.infix_cons_iff.mp hmentions.2 with hpre | hin
    · exact hhead name hmentions.1 hpre
    · exact hfree name ⟨hmentions.1, hin⟩
  | @next before rest _ name parts hname hfirst hrest =>
    have hlater : ∀ ahead other behind, IsName other →
        (c :: before) ++ written name.toList ++ rest = ahead ++ written other ++ behind →
        (c :: before).length ≤ ahead.length := by
      intro ahead other behind hother htext
      cases ahead with
      | nil => exact absurd ⟨behind, htext.symm⟩ (hhead other hother)
      | cons d ahead =>
        have htail := (List.cons.inj htext).2
        exact Nat.succ_le_succ (hfirst ahead other behind hother htail)
    exact ⟨(c :: before, name) :: parts, last, .next hname hlater hrest, by simp [piecesOf_cons]⟩

/-- **Every text can be cut at its placeholders**, and its pieces are the ones of the cut. -/
theorem exists_cut (cs : List Char) :
    ∃ parts last, Cut cs parts last ∧ pieces cs = piecesOf parts last := by
  induction cs using pieces.induct with
  | case1 => exact ⟨[], [], .last (free_of_notMem (by simp)), by simp [pieces, piecesOf]⟩
  | case2 cs name rest h ih =>
    obtain ⟨hname, rfl⟩ := closing?_eq_some_iff.mp h
    obtain ⟨parts, last, hcut, hpieces⟩ := ih
    refine ⟨([], name) :: parts, last, ?_, ?_⟩
    · have hnext : Cut ([] ++ written name.toList ++ rest) (([], name) :: parts) last :=
        .next hname (fun _ _ _ _ _ => Nat.zero_le _) hcut
      simpa [written] using hnext
    · rw [pieces_of_closing? h, hpieces, piecesOf_cons]
      rfl
  | case3 cs h ih =>
    obtain ⟨parts, last, hcut, hpieces⟩ := ih
    rw [pieces_of_not_closing? h, hpieces]
    obtain ⟨parts', last', hcut', hpieces'⟩ := hcut.exists_cons (c := '$') fun name hname hpre => by
      obtain ⟨rest, rfl⟩ := written_prefix_iff.mp hpre
      rw [closing?_eq_some_iff.mpr ⟨by rwa [String.toList_ofList], by rw [String.toList_ofList]⟩]
        at h
      cases h
    exact ⟨parts', last', hcut', hpieces'.symm⟩
  | case4 c cs hnot ih =>
    obtain ⟨parts, last, hcut, hpieces⟩ := ih
    have hcons : pieces (c :: cs) = .char c :: pieces cs := by
      rw [pieces]
      exact hnot
    rw [hcons, hpieces]
    obtain ⟨parts', last', hcut', hpieces'⟩ := hcut.exists_cons (c := c) fun name _ hpre => by
      obtain ⟨behind, htext⟩ := hpre
      obtain ⟨hc, hcs⟩ := List.cons_eq_cons.mp htext
      exact hnot _ hc.symm hcs.symm
    exact ⟨parts', last', hcut', hpieces'.symm⟩

end Placeholder

namespace Variables

open Placeholder

variable (vars process : Variables)

/-- **The value that counts for a name**: that of the variables, or that of the process if the
variables have none. -/
def HasValue (name value : String) : Prop :=
  vars.get? name = some value ∨ vars.get? name = none ∧ process.get? name = some value

/-- Neither the variables nor the process know the name. -/
def Unset (name : String) : Prop := vars.get? name = none ∧ process.get? name = none

variable {vars process}

theorem getOrProcess?_eq_some_iff {name value : String} :
    vars.getOrProcess? process name = some value ↔ vars.HasValue process name value := by
  unfold getOrProcess? HasValue
  cases vars.get? name <;> simp

theorem getOrProcess?_eq_none_iff {name : String} :
    vars.getOrProcess? process name = none ↔ vars.Unset process name := by
  unfold getOrProcess? Unset
  cases vars.get? name <;> simp

theorem Unset.not_hasValue {name value : String} (h : vars.Unset process name) :
    ¬ vars.HasValue process name value := by
  rw [← getOrProcess?_eq_some_iff, getOrProcess?_eq_none_iff.mpr h]
  nofun

/-- The text that takes the place of pieces. -/
def expandPieces (vars process : Variables) (ps : List Piece) : Except String (List Char) :=
  (ps.mapM (vars.expandPiece process)).map List.flatten

theorem expand_eq (template : String) :
    vars.expand process template =
      (vars.expandPieces process (pieces template.toList)).map String.ofList := by
  rw [expand, expandPieces]
  cases (pieces template.toList).mapM (vars.expandPiece process) <;> rfl

theorem expandPieces_cons (piece : Piece) (ps : List Piece) :
    vars.expandPieces process (piece :: ps) =
      (vars.expandPiece process piece).bind fun part =>
        (vars.expandPieces process ps).map (part ++ ·) := by
  rw [expandPieces, expandPieces, List.mapM_cons]
  cases vars.expandPiece process piece with
  | error name => rfl
  | ok part => cases ps.mapM (vars.expandPiece process) <;> rfl

theorem expandPieces_chars (cs : List Char) (ps : List Piece) :
    vars.expandPieces process (cs.map .char ++ ps) =
      (vars.expandPieces process ps).map (cs ++ ·) := by
  induction cs with
  | nil => cases h : vars.expandPieces process ps <;> simp [h, Except.map]
  | cons c cs ih =>
    rw [List.map_cons, List.cons_append, expandPieces_cons, ih]
    cases vars.expandPieces process ps <;> rfl

theorem expandPieces_last (last : List Char) :
    vars.expandPieces process (piecesOf [] last) = .ok last := by
  have h : vars.expandPieces process (last.map .char ++ []) =
      (vars.expandPieces process []).map (last ++ ·) := expandPieces_chars last []
  rw [List.append_nil] at h
  simpa [piecesOf, expandPieces, Except.map, pure, Except.pure] using h

theorem expandPieces_of_unset {name : String} (h : vars.Unset process name) (before : List Char)
    (parts : List (List Char × String)) (last : List Char) :
    vars.expandPieces process (piecesOf ((before, name) :: parts) last) = .error name := by
  rw [piecesOf_cons, expandPieces_chars, expandPieces_cons, expandPiece,
    getOrProcess?_eq_none_iff.mpr h]
  rfl

theorem expandPieces_of_hasValue {name value : String} (h : vars.HasValue process name value)
    (before : List Char) (parts : List (List Char × String)) (last : List Char) :
    vars.expandPieces process (piecesOf ((before, name) :: parts) last) =
      (vars.expandPieces process (piecesOf parts last)).map (before ++ value.toList ++ ·) := by
  rw [piecesOf_cons, expandPieces_chars, expandPieces_cons, expandPiece,
    getOrProcess?_eq_some_iff.mpr h]
  cases vars.expandPieces process (piecesOf parts last) <;> simp [Except.map, Except.bind]

theorem unset_or_hasValue (vars process : Variables) (name : String) :
    vars.Unset process name ∨ ∃ value, vars.HasValue process name value := by
  cases h : vars.getOrProcess? process name with
  | none => exact .inl (getOrProcess?_eq_none_iff.mp h)
  | some value => exact .inr ⟨value, getOrProcess?_eq_some_iff.mp h⟩

/-- The error is the first name that is unset. -/
theorem expandPieces_eq_error_iff {parts : List (List Char × String)} {last : List Char}
    {name : String} :
    vars.expandPieces process (piecesOf parts last) = .error name ↔
      ∃ earlier before later, parts = earlier ++ (before, name) :: later ∧
        (∀ part ∈ earlier, ¬ vars.Unset process part.2) ∧ vars.Unset process name := by
  induction parts with
  | nil => simp [expandPieces_last]
  | cons part parts ih =>
    obtain ⟨before, first⟩ := part
    rcases unset_or_hasValue vars process first with hunset | ⟨value, hvalue⟩
    · rw [expandPieces_of_unset hunset]
      constructor
      · intro h
        cases h
        exact ⟨[], before, parts, rfl, by simp, hunset⟩
      · rintro ⟨earlier, before', later, hparts, hearlier, -⟩
        cases earlier with
        | nil => cases hparts; rfl
        | cons other earlier =>
          cases hparts
          exact absurd hunset (hearlier _ List.mem_cons_self)
    · have hset : ¬ vars.Unset process first := fun h => h.not_hasValue hvalue
      have hmap : (vars.expandPieces process (piecesOf parts last)).map
            (before ++ value.toList ++ ·) = .error name ↔
          vars.expandPieces process (piecesOf parts last) = .error name := by
        cases vars.expandPieces process (piecesOf parts last) <;> simp [Except.map]
      rw [expandPieces_of_hasValue hvalue, hmap, ih]
      constructor
      · rintro ⟨earlier, before', later, rfl, hearlier, hunset⟩
        exact ⟨(before, first) :: earlier, before', later, rfl,
          List.forall_mem_cons.mpr ⟨hset, hearlier⟩, hunset⟩
      · rintro ⟨earlier, before', later, hparts, hearlier, hunset⟩
        cases earlier with
        | nil =>
          cases hparts
          exact absurd hunset hset
        | cons other earlier =>
          cases hparts
          exact ⟨earlier, before', later, rfl, (List.forall_mem_cons.mp hearlier).2, hunset⟩

/-- The text that values make of a text that is cut at its placeholders. -/
def filled (parts : List (List Char × String)) (values : List String) (last : List Char) :
    List Char :=
  (List.zipWith (fun part value => part.1 ++ value.toList) parts values).flatten ++ last

theorem expandPieces_eq_ok_iff {parts : List (List Char × String)} {last text : List Char} :
    vars.expandPieces process (piecesOf parts last) = .ok text ↔
      ∃ values, List.Forall₂ (fun part value => vars.HasValue process part.2 value) parts values ∧
        text = filled parts values last := by
  induction parts generalizing text with
  | nil => simp [expandPieces_last, filled, eq_comm]
  | cons part parts ih =>
    obtain ⟨before, name⟩ := part
    rcases unset_or_hasValue vars process name with hunset | ⟨value, hvalue⟩
    · rw [expandPieces_of_unset hunset]
      refine iff_of_false nofun ?_
      rintro ⟨values, hvalues, -⟩
      cases hvalues with
      | cons hvalue _ => exact hunset.not_hasValue hvalue
    · rw [expandPieces_of_hasValue hvalue, map_eq_ok_iff]
      constructor
      · rintro ⟨rest, hrest, rfl⟩
        obtain ⟨values, hvalues, rfl⟩ := ih.mp hrest
        exact ⟨value :: values, .cons hvalue hvalues, by simp [filled]⟩
      · rintro ⟨values, hvalues, rfl⟩
        cases hvalues with
        | @cons _ other _ values hother hvalues =>
          have hsame : other = value := by
            rw [← getOrProcess?_eq_some_iff] at hvalue hother
            exact Option.some.inj (hother.symm.trans hvalue)
          subst hsame
          exact ⟨_, ih.mpr ⟨values, hvalues, rfl⟩, by simp [filled]⟩

/-- **Expanding is exact.**  A template is cut at its placeholders in one way.  The first
placeholder without value is the error; if all have values, these take the places of the
placeholders, and all else stays as it is. -/
theorem expand_exact (vars process : Variables) (template : String) :
    ∃ parts last, (∀ parts' last',
        Cut template.toList parts' last' ↔ parts' = parts ∧ last' = last) ∧
      (∀ name, vars.expand process template = .error name ↔
        ∃ earlier before later, parts = earlier ++ (before, name) :: later ∧
          (∀ part ∈ earlier, ¬ vars.Unset process part.2) ∧ vars.Unset process name) ∧
      ∀ text, vars.expand process template = .ok text ↔
        ∃ values, List.Forall₂ (fun part value => vars.HasValue process part.2 value) parts values ∧
          text.toList = filled parts values last := by
  obtain ⟨parts, last, hcut, hpieces⟩ := exists_cut template.toList
  refine ⟨parts, last, fun parts' last' => ⟨hcut.unique, ?_⟩, fun name => ?_, fun text => ?_⟩
  · rintro ⟨rfl, rfl⟩
    exact hcut
  · rw [← expandPieces_eq_error_iff, expand_eq, hpieces]
    cases vars.expandPieces process (piecesOf parts last) <;> simp [Except.map]
  · rw [← expandPieces_eq_ok_iff, expand_eq, hpieces, map_eq_ok_iff]
    constructor
    · rintro ⟨cs, hcs, rfl⟩
      rwa [String.toList_ofList]
    · intro h
      exact ⟨_, h, String.ofList_toList⟩

/-- What takes the place of a placeholder is not expanded again. -/
example : (Variables.expand (.ofList [("A", "$\x7bB\x7d"), ("B", "b")]) .empty
    "$\x7bA\x7d$\x7b\x7d$\x7b$\x7bB\x7d").toOption =
      some "$\x7bB\x7d$\x7b\x7d$\x7bb" := by decide +kernel

end Variables

end Testplan
