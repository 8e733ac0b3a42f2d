/-!
# Rosters: tables in order of arrival

Personas, frameworks, pages of a rendered plan and jobs on the board are listed
in the order in which they first appeared.  A `Roster` maps keys to values and
keeps that order: `insert` replaces the value of a known key where it stands and
puts a new key last (`keys_insert`), and `erase` closes the gap.
-/
namespace Testplan

/-- **A table in order of arrival**, each key once. -/
structure Roster (κ α : Type) where
  entries : List (κ × α)
  distinct : (entries.map Prod.fst).Nodup

namespace Roster

variable {κ α : Type} [DecidableEq κ]

/-- The roster without entries. -/
def empty : Roster κ α := ⟨[], List.nodup_nil⟩

instance : Inhabited (Roster κ α) := ⟨empty⟩

/-- Changes the value of a known key by `f`; a new key gets `f none`, in last place. -/
def alterEntry (k : κ) (f : Option α → α) : List (κ × α) → List (κ × α)
  | [] => [(k, f none)]
  | (l, w) :: rest =>
    if k = l then (l, f (some w)) :: rest else (l, w) :: alterEntry k f rest

theorem map_fst_alterEntry (k : κ) (f : Option α → α) (es : List (κ × α)) :
    (alterEntry k f es).map Prod.fst =
      if k ∈ es.map Prod.fst then es.map Prod.fst else es.map Prod.fst ++ [k] := by
  induction es with
  | nil => simp [alterEntry]
  | cons e rest ih =>
    obtain ⟨l, w⟩ := e
    by_cases h : k = l
    · simp [alterEntry, h]
    · simp only [alterEntry, h, if_false, List.map_cons, ih, List.mem_cons, false_or]
      split <;> simp

/-- Changes the value of a key, or adds the key in last place. -/
def alter (r : Roster κ α) (k : κ) (f : Option α → α) : Roster κ α where
  entries := alterEntry k f r.entries
  distinct := by
    rw [map_fst_alterEntry]
    split
    · exact r.distinct
    · next h => exact List.nodup_append.2 ⟨r.distinct, by simp, by
        intro a ha b hb; simp only [List.mem_singleton] at hb; subst hb
        exact fun e => h (e ▸ ha)⟩

/-- The roster with `v` at `k`. -/
def insert (r : Roster κ α) (k : κ) (v : α) : Roster κ α := r.alter k fun _ => v

/-- The value at a key. -/
def get? (r : Roster κ α) (k : κ) : Option α := r.entries.lookup k

/-- The roster without a key. -/
def erase (r : Roster κ α) (k : κ) : Roster κ α where
  entries := r.entries.filter fun e => e.1 ≠ k
  distinct := r.distinct.sublist (List.filter_sublist.map Prod.fst)

/-- The keys in order of arrival. -/
def keys (r : Roster κ α) : List κ := r.entries.map Prod.fst

/-- The values in order of arrival. -/
def values (r : Roster κ α) : List α := r.entries.map Prod.snd

/-- The roster of a list; of two entries with one key the later value stands in the
earlier place. -/
def ofList (es : List (κ × α)) : Roster κ α :=
  es.foldl (fun r e => r.insert e.1 e.2) empty

/-- A known key keeps its place and a new key comes last. -/
theorem keys_insert (r : Roster κ α) (k : κ) (v : α) :
    (r.insert k v).keys = if k ∈ r.keys then r.keys else r.keys ++ [k] :=
  map_fst_alterEntry k _ r.entries

theorem lookup_alterEntry (k l : κ) (f : Option α → α) (es : List (κ × α)) :
    (alterEntry k f es).lookup l = if l = k then some (f (es.lookup k)) else es.lookup l := by
  induction es with
  | nil =>
    by_cases h : l = k
    · simp [alterEntry, h]
    · simp [alterEntry, List.lookup_cons, h, beq_eq_false_iff_ne.2 h]
  | cons e rest ih =>
    obtain ⟨m, w⟩ := e
    by_cases hkm : k = m
    · subst hkm
      by_cases h : l = k
      · simp [alterEntry, h]
      · simp [alterEntry, List.lookup_cons, h, beq_eq_false_iff_ne.2 h]
    · have hkm' := beq_eq_false_iff_ne.2 hkm
      by_cases hlm : l = m
      · subst hlm
        simp [alterEntry, hkm, Ne.symm hkm]
      · simp [alterEntry, List.lookup_cons, hkm, hkm', beq_eq_false_iff_ne.2 hlm, ih]

/-- After an insertion the key has the new value and every other key its old one. -/
theorem get?_insert (r : Roster κ α) (k l : κ) (v : α) :
    (r.insert k v).get? l = if l = k then some v else r.get? l :=
  lookup_alterEntry k l _ r.entries

end Roster

end Testplan
