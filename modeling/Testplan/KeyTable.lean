/-!
# Tables in key order

Variables of an environment and tags of a scenario are written in the order of
their names, whatever order they were given in.  A `KeyTable` maps strings to
values and is held as the list of its entries with strictly increasing keys, in
the order of code points; two tables with the same entries are therefore equal.

`get?_insert` says what a table holds after an insertion, and `TagSet` is the
table without values.
-/
namespace Testplan

/-- **A table from strings to values**, in strictly increasing order of keys. -/
structure KeyTable (β : Type) where
  entries : List (String × β)
  increasing : entries.Pairwise (fun a b => a.1 < b.1)

namespace KeyTable

variable {β : Type}

theorem ext {s t : KeyTable β} (h : s.entries = t.entries) : s = t := by
  cases s; cases t; cases h; rfl

instance [DecidableEq β] : DecidableEq (KeyTable β) := fun s t =>
  if h : s.entries = t.entries then isTrue (ext h) else isFalse (fun e => h (e ▸ rfl))

/-- The table without entries. -/
def empty : KeyTable β := ⟨[], .nil⟩

instance : Inhabited (KeyTable β) := ⟨empty⟩

/-- Puts an entry into a list of entries in key order; an entry with the same key is
replaced. -/
def insertEntry (k : String) (v : β) : List (String × β) → List (String × β)
  | [] => [(k, v)]
  | (l, w) :: rest =>
    if k = l then (k, v) :: rest
    else if k < l then (k, v) :: (l, w) :: rest
    else (l, w) :: insertEntry k v rest

theorem mem_insertEntry {k : String} {v : β} {x : String × β} {es : List (String × β)}
    (h : x ∈ insertEntry k v es) : x = (k, v) ∨ x ∈ es := by
  induction es with
  | nil => simpa [insertEntry] using h
  | cons e rest ih =>
    obtain ⟨l, w⟩ := e
    simp only [insertEntry] at h
    split at h
    · simp only [List.mem_cons] at h ⊢; exact h.imp_right .inr
    · split at h
      · simpa using h
      · simp only [List.mem_cons] at h ⊢
        rcases h with h | h
        · exact .inr (.inl h)
        · exact (ih h).imp_right .inr

theorem insertEntry_increasing (k : String) (v : β) {es : List (String × β)}
    (h : es.Pairwise (fun a b => a.1 < b.1)) :
    (insertEntry k v es).Pairwise (fun a b => a.1 < b.1) := by
  induction es with
  | nil => simp [insertEntry]
  | cons e rest ih =>
    obtain ⟨l, w⟩ := e
    rw [List.pairwise_cons] at h
    simp only [insertEntry]
    split
    · next hkl => subst hkl; exact List.pairwise_cons.2 h
    · next hne =>
      split
      · next hlt =>
        refine List.pairwise_cons.2 ⟨fun x hx => ?_, List.pairwise_cons.2 h⟩
        rcases List.mem_cons.1 hx with rfl | hx
        · exact hlt
        · exact String.lt_trans hlt (h.1 x hx)
      · next hnlt =>
        refine List.pairwise_cons.2 ⟨fun x hx => ?_, ih h.2⟩
        rcases mem_insertEntry hx with rfl | hx
        · exact Std.lt_of_le_of_ne (String.not_lt.1 hnlt) (Ne.symm hne)
        · exact h.1 x hx

/-- The table with `v` at `k`. -/
def insert (t : KeyTable β) (k : String) (v : β) : KeyTable β :=
  ⟨insertEntry k v t.entries, insertEntry_increasing k v t.increasing⟩

/-- The table with the entries of a list; of two entries with one key the later
counts. -/
def ofList (es : List (String × β)) : KeyTable β :=
  es.foldl (fun t e => t.insert e.1 e.2) empty

/-- A key behind all others comes last. -/
theorem insertEntry_of_lt {k : String} {v : β} {es : List (String × β)}
    (h : ∀ e ∈ es, e.1 < k) : insertEntry k v es = es ++ [(k, v)] := by
  induction es with
  | nil => rfl
  | cons e rest ih =>
    obtain ⟨he, hrest⟩ := List.forall_mem_cons.mp h
    rw [insertEntry, if_neg (String.ne_of_lt he).symm, if_neg (String.lt_asymm he), ih hrest]
    rfl

/-- A list in key order is the list of the entries of its table. -/
theorem entries_ofList {es : List (String × β)} (h : es.Pairwise fun a b => a.1 < b.1) :
    (ofList es).entries = es := by
  -- the entries that are there already come before those to be put in
  have hfold (es before : List (String × β))
      (hordered : (before ++ es).Pairwise fun a b => a.1 < b.1) (t : KeyTable β)
      (ht : t.entries = before) :
      (es.foldl (fun t e => t.insert e.1 e.2) t).entries = before ++ es := by
    induction es generalizing before t with
    | nil => simpa using ht
    | cons e es ih =>
      have hlast : ∀ x ∈ before, x.1 < e.1 := fun x hx =>
        (List.pairwise_append.mp hordered).2.2 x hx e List.mem_cons_self
      have hinsert : (t.insert e.1 e.2).entries = before ++ [e] := by
        show insertEntry e.1 e.2 t.entries = before ++ [e]
        rw [ht, insertEntry_of_lt hlast]
      have happend : before ++ e :: es = before ++ [e] ++ es := by simp
      rw [List.foldl_cons, happend]
      exact ih _ (happend ▸ hordered) _ hinsert
  exact hfold es [] h empty rfl

/-- A table is made again from its entries. -/
theorem ofList_entries (t : KeyTable β) : ofList t.entries = t :=
  ext (entries_ofList t.increasing)

/-- The value at a key. -/
def get? (t : KeyTable β) (k : String) : Option β := t.entries.lookup k

/-- The keys in order. -/
def keys (t : KeyTable β) : List String := t.entries.map Prod.fst

theorem lookup_insertEntry (k l : String) (v : β) (es : List (String × β)) :
    (insertEntry k v es).lookup l = if l = k then some v else es.lookup l := by
  induction es with
  | nil =>
    by_cases h : l = k
    · simp [insertEntry, h]
    · simp [insertEntry, List.lookup_cons, h, beq_eq_false_iff_ne.2 h]
  | cons e rest ih =>
    obtain ⟨m, w⟩ := e
    by_cases hkm : k = m
    · subst hkm
      by_cases h : l = k
      · simp [insertEntry, h]
      · simp [insertEntry, List.lookup_cons, h, beq_eq_false_iff_ne.2 h]
    · by_cases hlt : k < m
      · by_cases h : l = k
        · simp [insertEntry, hkm, hlt, h]
        · simp [insertEntry, hkm, hlt, List.lookup_cons, h, beq_eq_false_iff_ne.2 h]
      · by_cases hlm : l = m
        · subst hlm
          simp [insertEntry, hkm, hlt, Ne.symm hkm]
        · simp [insertEntry, hkm, hlt, List.lookup_cons, beq_eq_false_iff_ne.2 hlm, ih]

/-- After an insertion the key has the new value and every other key its old one. -/
theorem get?_insert (t : KeyTable β) (k l : String) (v : β) :
    (t.insert k v).get? l = if l = k then some v else t.get? l :=
  lookup_insertEntry k l v t.entries

end KeyTable

/-- A set of tags, in the order of code points. -/
abbrev TagSet := KeyTable Unit

/-- The set of the tags in a list. -/
def TagSet.ofTags (tags : List String) : TagSet := KeyTable.ofList (tags.map fun t => (t, ()))

end Testplan
