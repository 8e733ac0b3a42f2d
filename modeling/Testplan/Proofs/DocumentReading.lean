import Testplan.PlanDocument
/-!
# What is read from a document that was written

A document that is written to a file comes back from it as the same tree of mappings, lists and
scalars, but a scalar without quotes comes back **plain** (`Document.GivenBack`).  A plain text
means something, and a plain number is a numeral of this number.

A document **reads as** a value if a reader gives the value for everything that may come back
(`Document.ReadsAs`).  Each reader of scalars, lists and members reads what the writer of the
same kind wrote, so a record reads as the value that it was written for if its members do.
-/
namespace Testplan.Document

/-! ## What comes back -/

mutual

/-- **The document comes back** as another one. -/
inductive GivenBack : Document → Document → Prop
  | text (s : String) : GivenBack (.text s) (.text s)
  | plainText {s : String} (h : isNullText s = false) : GivenBack (.text s) (.plain s)
  | int (n : Int) : GivenBack (.int n) (.int n)
  | plainNatural {n : Nat} {s : String} (h : naturalOf? s = some n) :
    GivenBack (.int n) (.plain s)
  | float (x : Single) : GivenBack (.float x) (.float x)
  | plainFloat {x : Single} {s : String} (h : floatOf? s = some x) : GivenBack (.float x) (.plain s)
  | list {items others : List Document} (h : ItemsGivenBack items others) :
    GivenBack (.list items) (.list others)
  | map {members others : List (String × Document)} (h : MembersGivenBack members others) :
    GivenBack (.map members) (.map others)

/-- The items of a list come back one by one. -/
inductive ItemsGivenBack : List Document → List Document → Prop
  | nil : ItemsGivenBack [] []
  | cons {d e : Document} {ds es : List Document} (h : GivenBack d e)
    (hrest : ItemsGivenBack ds es) : ItemsGivenBack (d :: ds) (e :: es)

/-- The members of a mapping come back one by one, under their keys. -/
inductive MembersGivenBack : List (String × Document) → List (String × Document) → Prop
  | nil : MembersGivenBack [] []
  | cons {key : String} {d e : Document} {ds es : List (String × Document)} (h : GivenBack d e)
    (hrest : MembersGivenBack ds es) : MembersGivenBack ((key, d) :: ds) ((key, e) :: es)

end

mutual

/-- Tells that a document comes back as another one. -/
def comesBack : Document → Document → Bool
  | .text s, .text t => s = t
  | .text s, .plain t => s = t && !isNullText s
  | .int n, .int m => n = m
  | .int n, .plain t => (naturalOf? t).any fun m : Nat => (m : Int) = n
  | .float x, .float y => x = y
  | .float x, .plain t => floatOf? t = some x
  | .list items, .list others => itemsComeBack items others
  | .map members, .map others => membersComeBack members others
  | _, _ => false

/-- Tells that the items of a list come back. -/
def itemsComeBack : List Document → List Document → Bool
  | [], [] => true
  | d :: ds, e :: es => comesBack d e && itemsComeBack ds es
  | _, _ => false

/-- Tells that the members of a mapping come back. -/
def membersComeBack : List (String × Document) → List (String × Document) → Bool
  | [], [] => true
  | (k, d) :: ds, (l, e) :: es => k = l && comesBack d e && membersComeBack ds es
  | _, _ => false

end

mutual

theorem givenBack_of_comesBack : ∀ d e : Document, d.comesBack e = true → d.GivenBack e
  | .text s, .text t, h => by
    obtain rfl : s = t := by simpa [comesBack] using h
    exact .text s
  | .text s, .plain t, h => by
    obtain ⟨rfl, hs⟩ : s = t ∧ isNullText s = false := by simpa [comesBack] using h
    exact .plainText hs
  | .int n, .int m, h => by
    obtain rfl : n = m := by simpa [comesBack] using h
    exact .int n
  | .int n, .plain t, h => by
    have h : ((naturalOf? t).any fun m : Nat => (m : Int) = n) = true := by rwa [comesBack] at h
    obtain ⟨m, hm, hn⟩ := (Option.any_eq_true _ _).mp h
    obtain rfl : (m : Int) = n := of_decide_eq_true hn
    exact .plainNatural hm
  | .float x, .float y, h => by
    obtain rfl : x = y := by simpa [comesBack] using h
    exact .float x
  | .float x, .plain t, h => .plainFloat (by simpa [comesBack] using h)
  | .list items, .list others, h => .list (itemsGivenBack_of_itemsComeBack items others h)
  | .map members, .map others, h =>
    .map (membersGivenBack_of_membersComeBack members others h)

theorem itemsGivenBack_of_itemsComeBack : ∀ ds es : List Document,
    itemsComeBack ds es = true → ItemsGivenBack ds es
  | [], [], _ => .nil
  | d :: ds, e :: es, h => by
    obtain ⟨hfirst, hrest⟩ : d.comesBack e = true ∧ itemsComeBack ds es = true := by
      simpa [itemsComeBack] using h
    exact .cons (givenBack_of_comesBack d e hfirst) (itemsGivenBack_of_itemsComeBack ds es hrest)

theorem membersGivenBack_of_membersComeBack : ∀ ds es : List (String × Document),
    membersComeBack ds es = true → MembersGivenBack ds es
  | [], [], _ => .nil
  | (k, d) :: ds, (l, e) :: es, h => by
    obtain ⟨⟨rfl, hfirst⟩, hrest⟩ :
        (k = l ∧ d.comesBack e = true) ∧ membersComeBack ds es = true := by
      simpa [membersComeBack] using h
    exact .cons (givenBack_of_comesBack d e hfirst)
      (membersGivenBack_of_membersComeBack ds es hrest)

end

theorem eq_of_isNullText {s : String} (h : isNullText s = true) :
    s ∈ ["", "~", "null", "Null", "NULL"] := by
  simpa [isNullText, isNullWord] using h

/-- What comes back is there. -/
theorem GivenBack.asOption? {d e : Document} (h : d.GivenBack e) {α : Type}
    (value : Document → Option α) : e.asOption? value = (value e).map some := by
  have plain {s : String} (hs : isNullText s = false) :
      (Document.plain s).asOption? value = (value (.plain s)).map some := by
    simp [Document.asOption?, hs]
  cases h with
  | plainText hs => exact plain hs
  | @plainNatural n s hs =>
    refine plain (Bool.eq_false_iff.mpr fun hnull => ?_)
    have hnone : ∀ t ∈ ["", "~", "null", "Null", "NULL"], naturalOf? t = none := by decide
    cases hs.symm.trans (hnone s (eq_of_isNullText hnull))
  | @plainFloat x s hs =>
    refine plain (Bool.eq_false_iff.mpr fun hnull => ?_)
    have hnone : ∀ t ∈ ["", "~", "null", "Null", "NULL"], floatOf? t = none := by decide
    cases hs.symm.trans (hnone s (eq_of_isNullText hnull))
  | _ => rfl

/-! ## Scalars and lists -/

/-- **The document reads as a value.** -/
def ReadsAs {α : Type} (d : Document) (value : Document → Option α) (a : α) : Prop :=
  ∀ e, d.GivenBack e → value e = some a

theorem readsAs_text (s : String) : (text s).ReadsAs asText? s := by
  intro e h
  cases h <;> rfl

theorem readsAs_name {α : Type} {ofName? : String → Option α} {s : String} {a : α}
    (h : ofName? s = some a) : (text s).ReadsAs (asName? ofName?) a := by
  intro e he
  cases he <;> exact h

theorem readsAs_natural {n : Nat} (bound : Nat) (h : n < bound) :
    (natural n).ReadsAs (asNat? bound) n := by
  intro e he
  cases he with
  | int =>
    have hrange : 0 ≤ (n : Int) ∧ (n : Int) < bound := by omega
    exact (if_pos hrange).trans (congrArg some (Int.toNat_natCast n))
  | plainNatural hs => simp [asNat?, hs, h]

theorem readsAs_float (x : Single) : (float x).ReadsAs asFloat? x := by
  intro e h
  cases h with
  | float => rfl
  | plainFloat hs => exact hs

theorem ReadsAs.map {α β : Type} {d : Document} {value : Document → Option α} {a : α}
    (h : d.ReadsAs value a) (f : α → β) : d.ReadsAs (fun e => (value e).map f) (f a) :=
  fun e he => congrArg (Option.map f) (h e he)

theorem ReadsAs.bind {α β : Type} {d : Document} {value : Document → Option α} {a : α}
    (h : d.ReadsAs value a) {f : α → Option β} {b : β} (hf : f a = some b) :
    d.ReadsAs (fun e => (value e).bind f) b :=
  fun e he => (congrArg (Option.bind · f) (h e he)).trans hf

/-- A list is read if its items are. -/
theorem readsAs_list {α : Type} {item : Document → Option α} {write : α → Document}
    {values : List α} (h : ∀ a ∈ values, (write a).ReadsAs item a) :
    (list (values.map write)).ReadsAs (asList? item) values := by
  intro e he
  cases he with
  | @list _ others hitems =>
    show others.mapM item = some values
    induction values generalizing others with
    | nil =>
      cases hitems
      rfl
    | cons a values ih =>
      obtain ⟨ha, hrest⟩ := List.forall_mem_cons.mp h
      cases hitems with
      | cons hfirst hmore =>
        rw [List.mapM_cons, ha _ hfirst, ih hrest hmore]
        rfl

theorem readsAs_texts (items : List String) : (texts items).ReadsAs (asList? asText?) items :=
  readsAs_list fun s _ => readsAs_text s

/-! ## Members that are written -/

@[simp] theorem lookup_always (key other : String) (d : Document) :
    (always key d).lookup other = if other = key then some d else none := by
  rw [always, List.lookup_cons]
  by_cases h : other = key
  · simp [h]
  · rw [beq_eq_false_iff_ne.mpr h, if_neg h]
    rfl

@[simp] theorem lookup_ifSome {α : Type} (key other : String) (o : Option α) (write : α → Document) :
    (ifSome key o write).lookup other = if other = key then o.map write else none := by
  cases o with
  | none => exact (ite_self _).symm
  | some a => exact lookup_always key other (write a)

/-- The keys of the members are some of these, in the same order. -/
def KeysIn (members : List (String × Document)) (keys : List String) : Prop :=
  (members.map Prod.fst).Sublist keys

theorem keysIn_always (key : String) (d : Document) : KeysIn (always key d) [key] :=
  List.Sublist.refl _

theorem keysIn_ifSome {α : Type} (key : String) (o : Option α) (write : α → Document) :
    KeysIn (ifSome key o write) [key] := by
  cases o with
  | none => exact List.nil_sublist _
  | some a => exact List.Sublist.refl _

theorem KeysIn.append {members more : List (String × Document)} {keys others : List String}
    (h : KeysIn members keys) (h' : KeysIn more others) :
    KeysIn (members ++ more) (keys ++ others) := by
  rw [KeysIn, List.map_append]
  exact List.Sublist.append h h'

/-! ## Members that come back -/

namespace MembersGivenBack

theorem map_fst {members others : List (String × Document)} (h : MembersGivenBack members others) :
    others.map Prod.fst = members.map Prod.fst := by
  induction members generalizing others with
  | nil =>
    cases h
    rfl
  | cons m members ih =>
    cases h with
    | cons _ hrest => exact congrArg (_ :: ·) (ih hrest)

/-- What is found under a key is what comes back of what was written under it. -/
theorem lookup {members others : List (String × Document)} (h : MembersGivenBack members others)
    (key : String) : members.lookup key = none ∧ others.lookup key = none ∨
      ∃ d e, members.lookup key = some d ∧ others.lookup key = some e ∧ d.GivenBack e := by
  induction members generalizing others with
  | nil =>
    cases h
    exact .inl ⟨rfl, rfl⟩
  | cons m members ih =>
    cases h with
    | @cons k d e _ es hfirst hrest =>
      rw [List.lookup_cons, List.lookup_cons]
      cases hk : key == k with
      | true => exact .inr ⟨d, e, rfl, rfl, hfirst⟩
      | false => exact ih hrest

variable {members others : List (String × Document)} (h : MembersGivenBack members others)
  {key : String} {α : Type} {value : Document → Option α}
include h

theorem required? {d : Document} {a : α} (hd : members.lookup key = some d)
    (ha : d.ReadsAs value a) : Document.required? others key value = some a := by
  rcases h.lookup key with ⟨hnone, -⟩ | ⟨d', e, hd', he, hback⟩
  · cases hd.symm.trans hnone
  · cases hd.symm.trans hd'
    rw [Document.required?, he]
    exact ha e hback

theorem withDefault? {d : Document} {a default : α} (hd : members.lookup key = some d)
    (ha : d.ReadsAs value a) : Document.withDefault? others key value default = some a := by
  rcases h.lookup key with ⟨hnone, -⟩ | ⟨d', e, hd', he, hback⟩
  · cases hd.symm.trans hnone
  · cases hd.symm.trans hd'
    rw [Document.withDefault?, he]
    exact ha e hback

/-- What has no value is not there, and an empty text is. -/
theorem optional? {o : Option α} {write : α → Document} (hd : members.lookup key = o.map write)
    (ha : ∀ a, o = some a → (write a).ReadsAs value a) :
    Document.optional? others key value = some o := by
  rw [Document.optional?]
  rcases h.lookup key with ⟨hnone, hothers⟩ | ⟨d, e, hd', he, hback⟩
  · rw [hothers, Option.map_eq_none_iff.mp (hd.symm.trans hnone)]
  · obtain ⟨a, rfl, rfl⟩ := Option.map_eq_some_iff.mp (hd.symm.trans hd')
    rw [he]
    dsimp only
    rw [hback.asOption?, ha a rfl e hback, Option.map_some]

/-- A record that has no key twice is taken as it comes back. -/
theorem record? {known : List String} (hknown : KeysIn members known)
    (hdistinct : known.Nodup) : (Document.map others).record? known = some others := by
  have hnodup : (others.map Prod.fst).Nodup := by
    rw [h.map_fst]
    exact hdistinct.sublist hknown
  have honce : ∀ k ∈ known, (others.filter fun m => m.1 = k).length ≤ 1 := by
    intro k _
    have hcount := List.nodup_iff_count.mp hnodup k
    rwa [List.count, List.countP_map, List.countP_eq_length_filter] at hcount
  simpa [Document.record?, members?] using honce

end MembersGivenBack

end Testplan.Document
