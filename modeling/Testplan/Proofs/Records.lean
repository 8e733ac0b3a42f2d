import Testplan.Job
/-!
# What the plan store and the board remember

The two records of a run differ in which of several entries with one key they show.  The
**plan store** shows the first plan that was stored under a version: a later one changes
nothing (`PlanStore.get?_insert`).  The **board** shows the last state that was recorded
for a job (`JobBoard.get?_record`), until the job is taken off (`JobBoard.get?_remove`).  It
lists the jobs in the order in which they first came (`JobBoard.ids_record`).
-/
namespace Testplan

namespace Roster

variable {κ α : Type} [DecidableEq κ]

/-- An erased key has no value, and every other key keeps its own. -/
theorem get?_erase (r : Roster κ α) (k l : κ) :
    (r.erase k).get? l = if l = k then none else r.get? l := by
  show (r.entries.filter fun e => e.1 ≠ k).lookup l = if l = k then none else r.entries.lookup l
  induction r.entries with
  | nil => simp
  | cons e rest ih =>
    obtain ⟨m, w⟩ := e
    by_cases hmk : m = k
    · subst hmk
      rw [List.filter_cons_of_neg (by simp), ih]
      by_cases hlm : l = m
      · rw [if_pos hlm, if_pos hlm]
      · rw [if_neg hlm, if_neg hlm, List.lookup_cons, beq_eq_false_iff_ne.mpr hlm]
    · rw [List.filter_cons_of_pos (by simpa using hmk), List.lookup_cons, List.lookup_cons]
      by_cases hlm : l = m
      · subst hlm
        rw [if_neg hmk]
        simp
      · rw [beq_eq_false_iff_ne.mpr hlm]
        exact ih

theorem keys_erase (r : Roster κ α) (k : κ) : (r.erase k).keys = r.keys.filter (· ≠ k) := by
  show (r.entries.filter fun e => e.1 ≠ k).map Prod.fst = (r.entries.map Prod.fst).filter (· ≠ k)
  rw [List.filter_map]
  rfl

/-- Every entry is the one at its key. -/
theorem get?_of_mem {r : Roster κ α} {k : κ} {v : α} (h : (k, v) ∈ r.entries) :
    r.get? k = some v := by
  obtain ⟨entries, distinct⟩ := r
  show entries.lookup k = some v
  induction entries with
  | nil => cases h
  | cons e rest ih =>
    obtain ⟨l, w⟩ := e
    rw [List.map_cons, List.nodup_cons] at distinct
    rcases List.mem_cons.mp h with he | hm
    · cases he
      exact List.lookup_cons_self
    · have hne : k ≠ l := by
        rintro rfl
        exact distinct.1 (List.mem_map.mpr ⟨_, hm, rfl⟩)
      rw [List.lookup_cons, beq_eq_false_iff_ne.mpr hne]
      exact ih distinct.2 hm

theorem mem_of_get? {r : Roster κ α} {k : κ} {v : α} (h : r.get? k = some v) :
    (k, v) ∈ r.entries := by
  obtain ⟨before, after, heq, -⟩ := List.lookup_eq_some_iff.mp h
  rw [heq]
  exact List.mem_append_right _ List.mem_cons_self

theorem mem_keys_iff {r : Roster κ α} {k : κ} : k ∈ r.keys ↔ ∃ v, r.get? k = some v := by
  constructor
  · intro h
    obtain ⟨⟨l, v⟩, hm, rfl⟩ := List.mem_map.mp h
    exact ⟨v, get?_of_mem hm⟩
  · rintro ⟨v, h⟩
    refine Classical.byContradiction fun hnot => ?_
    have hnone : r.entries.lookup k = none := by
      refine List.lookup_eq_none_iff.mpr fun e he => bne_iff_ne.mpr ?_
      rintro rfl
      exact hnot (List.mem_map.mpr ⟨e, he, rfl⟩)
    cases hnone.symm.trans h

omit [DecidableEq κ] in
theorem eq_of_entries {r s : Roster κ α} (h : r.entries = s.entries) : r = s := by
  cases r
  cases s
  cases h
  rfl

/-- What is done to one key does not touch the place of another. -/
theorem erase_insert (r : Roster κ α) {k l : κ} (h : k ≠ l) (v : α) :
    (r.insert k v).erase l = (r.erase l).insert k v := by
  refine eq_of_entries ?_
  show (alterEntry k (fun _ => v) r.entries).filter (fun e => e.1 ≠ l) =
    alterEntry k (fun _ => v) (r.entries.filter fun e => e.1 ≠ l)
  induction r.entries with
  | nil => simp [alterEntry, h]
  | cons e rest ih =>
    obtain ⟨m, w⟩ := e
    by_cases hkm : k = m
    · subst hkm
      simp [alterEntry, h]
    · by_cases hml : m = l
      · subst hml
        simpa [alterEntry, hkm] using ih
      · simpa [alterEntry, hkm, hml] using ih

theorem erase_comm (r : Roster κ α) (k l : κ) : (r.erase k).erase l = (r.erase l).erase k := by
  refine eq_of_entries ?_
  show (r.entries.filter _).filter _ = (r.entries.filter _).filter _
  rw [List.filter_filter, List.filter_filter]
  exact List.filter_congr fun _ _ => Bool.and_comm ..

end Roster

namespace PlanStore

/-- A version that has a plan keeps it; a new one gets the plan that is stored. -/
theorem get?_insert (s : PlanStore) (p : Plan) (r : PlanRef) :
    (s.insert p).get? r = (s.get? r).or (if p.ref = r then some p else none) := by
  unfold insert
  cases hp : s.get? p.ref with
  | some q =>
    show s.get? r = _
    by_cases hr : p.ref = r
    · subst hr
      rw [hp, Option.some_or]
    · rw [if_neg hr, Option.or_none]
  | none =>
    show (s.plans.insert p.ref p).get? r = _
    rw [Roster.get?_insert]
    by_cases hr : p.ref = r
    · subst hr
      rw [if_pos rfl, if_pos rfl, hp, Option.none_or]
    · rw [if_neg fun e => hr e.symm, if_neg hr, Option.or_none]
      rfl

end PlanStore

namespace JobBoard

/-- The board shows what was recorded last. -/
theorem get?_record (b : JobBoard) (j : Job) (id : JobId) :
    (b.record j).get? id = if id = j.id then some j else b.get? id :=
  Roster.get?_insert b.jobs j.id id j

/-- The jobs on the board, in the order in which they were first recorded. -/
def ids (b : JobBoard) : List JobId := b.jobs.keys

theorem mem_ids_iff {b : JobBoard} {id : JobId} : id ∈ b.ids ↔ ∃ j, b.get? id = some j :=
  Roster.mem_keys_iff

theorem nodup_ids (b : JobBoard) : b.ids.Nodup := b.jobs.distinct

/-- A job keeps its place on the board, and a new one comes last. -/
theorem ids_record (b : JobBoard) (j : Job) :
    (b.record j).ids = if j.id ∈ b.ids then b.ids else b.ids ++ [j.id] :=
  Roster.keys_insert b.jobs j.id j

theorem ids_remove (b : JobBoard) (id : JobId) : (b.remove id).ids = b.ids.filter (· ≠ id) :=
  Roster.keys_erase b.jobs id

theorem get?_of_mem_toList {b : JobBoard} {j : Job} (h : j ∈ b.toList) :
    ∃ id, b.get? id = some j := by
  obtain ⟨⟨id, i⟩, hm, rfl⟩ := List.mem_map.mp h
  exact ⟨id, Roster.get?_of_mem hm⟩

theorem mem_toList {b : JobBoard} {id : JobId} {j : Job} (h : b.get? id = some j) :
    j ∈ b.toList :=
  List.mem_map_of_mem (f := Prod.snd) (Roster.mem_of_get? h)

/-- If every job is shown under its own identifier, the board lists the identifiers. -/
theorem map_id_toList {b : JobBoard} (h : ∀ id j, b.get? id = some j → j.id = id) :
    b.toList.map Job.id = b.ids := by
  show (b.jobs.entries.map Prod.snd).map Job.id = b.jobs.entries.map Prod.fst
  rw [List.map_map]
  refine List.map_congr_left fun e he => ?_
  exact h e.1 e.2 (Roster.get?_of_mem he)

theorem get?_remove (b : JobBoard) (i id : JobId) :
    (b.remove i).get? id = if id = i then none else b.get? id :=
  Roster.get?_erase b.jobs i id

theorem get?_removeAll (b : JobBoard) (gone : List JobId) (id : JobId) :
    (gone.foldl remove b).get? id = if id ∈ gone then none else b.get? id := by
  induction gone generalizing b with
  | nil => simp
  | cons i rest ih =>
    rw [List.foldl_cons, ih, get?_remove]
    by_cases hr : id ∈ rest
    · simp [hr]
    · by_cases hi : id = i <;> simp [hr, hi]

theorem ids_removeAll (b : JobBoard) (gone : List JobId) :
    (gone.foldl remove b).ids = b.ids.filter (· ∉ gone) := by
  induction gone generalizing b with
  | nil => exact (List.filter_eq_self.mpr fun _ _ => by simp).symm
  | cons i rest ih =>
    rw [List.foldl_cons, ih, ids_remove, List.filter_filter]
    refine List.filter_congr fun id _ => ?_
    by_cases hi : id = i <;> simp [hi]

theorem remove_record (b : JobBoard) {j : Job} {id : JobId} (h : j.id ≠ id) :
    (b.record j).remove id = (b.remove id).record j :=
  congrArg JobBoard.mk (b.jobs.erase_insert h j)

theorem remove_comm (b : JobBoard) (i id : JobId) :
    (b.remove i).remove id = (b.remove id).remove i :=
  congrArg JobBoard.mk (b.jobs.erase_comm i id)

theorem removeAll_record (b : JobBoard) {gone : List JobId} {j : Job} (h : j.id ∉ gone) :
    gone.foldl remove (b.record j) = (gone.foldl remove b).record j := by
  induction gone generalizing b with
  | nil => rfl
  | cons i rest ih =>
    rw [List.mem_cons, not_or] at h
    rw [List.foldl_cons, List.foldl_cons, remove_record b h.1, ih _ h.2]

theorem removeAll_remove (b : JobBoard) (gone : List JobId) (id : JobId) :
    gone.foldl remove (b.remove id) = (gone.foldl remove b).remove id := by
  induction gone generalizing b with
  | nil => rfl
  | cons i rest ih => rw [List.foldl_cons, List.foldl_cons, remove_comm, ih]

theorem removeAll_comm (b : JobBoard) (gone lost : List JobId) :
    gone.foldl remove (lost.foldl remove b) = lost.foldl remove (gone.foldl remove b) := by
  induction lost generalizing b with
  | nil => rfl
  | cons i rest ih => rw [List.foldl_cons, List.foldl_cons, ih, removeAll_remove]

end JobBoard

end Testplan
