import Mathlib.Data.List.Pairwise
import Testplan.Loading
import Testplan.Proofs.PlanFiles
import Testplan.Proofs.ResolvedEnvironments
/-!
# Missing entries of a configuration

A configuration is a record of entries, some of which are records themselves.  An entry is left out
of a document, or given another value, at the place that the keys of the records around it lead to
(`Document.without`, `Document.setAt`).

Every record is read in the same way: each entry by its key, and a missing one as its default
(`Record.Slotted`).  So a change of one entry changes one field of what is read, and the
changes of an entry of an inner record go through to the outer ones.

The defaults at the three levels are those of the default configuration, with one exception: a queue
that is described in part has one worker, also if it is the queue of test runs, which has two of
them by default (`Configuration.missing_entry_default_iff`).
-/
namespace Testplan

/-! ## Entries of documents -/

namespace Document

/-- Changes the members of a mapping. -/
def onMembers (change : List (String × Document) → List (String × Document)) :
    Document → Document
  | map members => map (change members)
  | tagged tag d => tagged tag (d.onMembers change)
  | d => d

/-- Changes what stands under a key. -/
def mapAt (key : String) (f : Document → Document) (members : List (String × Document)) :
    List (String × Document) :=
  members.map fun m => if m.1 = key then (m.1, f m.2) else m

/-- Leaves out what stands under a key. -/
def dropAt (key : String) (members : List (String × Document)) : List (String × Document) :=
  members.filter fun m => m.1 ≠ key

/-- Changes the members of the mapping at a place, to which keys lead. -/
def alterAt (change : List (String × Document) → List (String × Document)) :
    List String → Document → Document
  | [] => onMembers change
  | key :: place => onMembers (mapAt key (alterAt change place))

/-- **A document without an entry.** -/
def without (place : List String) (key : String) (d : Document) : Document :=
  alterAt (dropAt key) place d

/-- **A document with another value of an entry.** -/
def setAt (place : List String) (key : String) (d value : Document) : Document :=
  alterAt (mapAt key fun _ => value) place d

/-- The members of the mapping at a place. -/
def membersAt? : List String → Document → Option (List (String × Document))
  | [], d => d.members?
  | key :: place, d => (d.members?.bind (·.lookup key)).bind (membersAt? place)

/-- The value of an entry. -/
def valueAt? (place : List String) (key : String) (d : Document) : Option Document :=
  (d.membersAt? place).bind (·.lookup key)

/-- **Ways of saying a value in a file**: what comes back of it, or a truth value as a word. -/
inductive SaidAs : Document → Document → Prop
  | givenBack {d e : Document} (h : d.GivenBack e) : SaidAs d e
  | bool (b : Bool) : SaidAs (.bool b) (.bool b)
  | plainBool (b : Bool) : SaidAs (.bool b) (.plain (if b then "true" else "false"))

/-! ### Changes of one entry -/

/-- A change of members leaves all keys but one alone, and repeats none. -/
structure ChangesAt (key : String)
    (change : List (String × Document) → List (String × Document)) : Prop where
  nil : change [] = []
  others : ∀ members k, k ≠ key → (change members).lookup k = members.lookup k
  count : ∀ members k, ((change members).filter fun m => m.1 = k).length ≤
    (members.filter fun m => m.1 = k).length

theorem lookup_mapAt (key : String) (f : Document → Document)
    (members : List (String × Document)) (k : String) :
    (mapAt key f members).lookup k =
      if k = key then (members.lookup k).map f else members.lookup k := by
  induction members with
  | nil => simp [mapAt]
  | cons m members ih =>
    obtain ⟨l, d⟩ := m
    have hcons : mapAt key f ((l, d) :: members) =
        (l, if l = key then f d else d) :: mapAt key f members := by
      by_cases hl : l = key <;> simp [mapAt, hl]
    rw [hcons]
    by_cases hkl : k = l
    · subst hkl
      by_cases hk : k = key <;> simp [hk]
    · rw [List.lookup_cons, List.lookup_cons, beq_eq_false_iff_ne.mpr hkl]
      exact ih

theorem changesAt_mapAt (key : String) (f : Document → Document) :
    ChangesAt key (mapAt key f) where
  nil := rfl
  others members k hk := by rw [lookup_mapAt, if_neg hk]
  count members k := by
    have hkey : (fun m : String × Document => decide (m.1 = k)) ∘
        (fun m => if m.1 = key then (m.1, f m.2) else m) = fun m => decide (m.1 = k) := by
      funext m
      dsimp only [Function.comp_apply]
      split <;> rfl
    rw [mapAt, List.filter_map, hkey, List.length_map]

theorem lookup_dropAt (key : String) (members : List (String × Document)) (k : String) :
    (dropAt key members).lookup k = if k = key then none else members.lookup k := by
  induction members with
  | nil => simp [dropAt]
  | cons m members ih =>
    obtain ⟨l, d⟩ := m
    have hcons : dropAt key ((l, d) :: members) =
        if l = key then dropAt key members else (l, d) :: dropAt key members := by
      by_cases hl : l = key <;> simp [dropAt, hl]
    rw [hcons]
    by_cases hkl : k = l
    · subst hkl
      by_cases hk : k = key
      · rw [if_pos hk, ih, if_pos hk, if_pos hk]
      · simp [hk]
    · rw [List.lookup_cons, beq_eq_false_iff_ne.mpr hkl, ← ih]
      split
      · rfl
      · rw [List.lookup_cons, beq_eq_false_iff_ne.mpr hkl]

theorem changesAt_dropAt (key : String) : ChangesAt key (dropAt key) where
  nil := rfl
  others members k hk := by rw [lookup_dropAt, if_neg hk]
  count members k := by
    rw [dropAt, List.filter_filter, ← List.countP_eq_length_filter,
      ← List.countP_eq_length_filter]
    exact List.countP_mono_left fun m _ hm => (Bool.and_eq_true_iff.mp hm).1

theorem members?_onMembers {change : List (String × Document) → List (String × Document)}
    (hnil : change [] = []) : ∀ d : Document, (d.onMembers change).members? = d.members?.map change
  | map _ => rfl
  | tagged _ d => by
    rw [onMembers, members?, members?, members?_onMembers hnil d]
  | plain s => by
    have hplain : (plain s).members? = if s = "" then some [] else none := by
      split
      · next hs => rw [hs]; rfl
      · next hs => simp [members?, hs]
    show (plain s).members? = _
    rw [hplain]
    split
    · rw [Option.map_some, hnil]
    · rfl
  | null | bool _ | int _ | float _ | text _ | list _ => rfl

theorem record?_eq_some_iff {known : List String} {d : Document}
    {members : List (String × Document)} :
    d.record? known = some members ↔ d.members? = some members ∧
      ∀ k ∈ known, (members.filter fun m => m.1 = k).length ≤ 1 := by
  unfold record?
  cases d.members? with
  | none => simp
  | some found =>
    simp only [Option.bind_eq_bind, Option.bind_some, Option.some.injEq]
    constructor
    · intro h
      split at h
      · cases h
      · cases h
        exact ⟨rfl, by simp_all⟩
    · rintro ⟨rfl, honce⟩
      rw [if_neg (by simpa using honce)]

theorem record?_onMembers {known : List String} {d : Document}
    {members : List (String × Document)} (h : d.record? known = some members) {key : String}
    {change : List (String × Document) → List (String × Document)}
    (hchange : ChangesAt key change) :
    (d.onMembers change).record? known = some (change members) := by
  obtain ⟨hmembers, honce⟩ := record?_eq_some_iff.mp h
  refine record?_eq_some_iff.mpr ⟨?_, fun k hk => (hchange.count members k).trans (honce k hk)⟩
  rw [members?_onMembers hchange.nil, hmembers]
  rfl

end Document

/-! ## Records whose entries may be missing -/

namespace Record

open Document

/-- **An entry of a record**: its key, how its value is written and read, what it is if it is
missing, and its place in the record. -/
structure Slot (R : Type) where
  key : String
  Value : Type
  write : Value → Document
  read : Document → Option Value
  default : Value
  get : R → Value
  put : R → Value → R

/-- Two entries have different keys, and a value of the one leaves the other as it is. -/
def Slot.Apart {R : Type} (s t : Slot R) : Prop :=
  s.key ≠ t.key ∧ (∀ r a, t.get (s.put r a) = t.get r) ∧ ∀ r a, s.get (t.put r a) = s.get r

instance (R : Type) : Std.Symm (Slot.Apart (R := R)) where
  symm _ _ h := ⟨h.1.symm, h.2.2, h.2.1⟩

/-- **A reader of records with these entries.**  What stands under a key is one field of the
record, and if nothing does, the field has its default. -/
structure Slotted {R : Type} (read : Document → Option R) (slots : List (Slot R)) : Prop where
  read_iff : ∀ {d r}, read d = some r ↔
    ∃ members, d.record? (slots.map Slot.key) = some members ∧
      ∀ s ∈ slots, withDefault? members s.key s.read s.default = some (s.get r)
  get_put : ∀ s ∈ slots, ∀ r a, s.get (s.put r a) = a
  apart : slots.Pairwise Slot.Apart

/-- The two documents are read as records, and these are equal exactly if `P` holds. -/
def EqualIff {R : Type} (read : Document → Option R) (d d' : Document) (P : Prop) : Prop :=
  ∃ r r', read d = some r ∧ read d' = some r' ∧ (r = r' ↔ P)

section

variable {R : Type} {read : Document → Option R} {slots : List (Slot R)} {d : Document} {r : R}
  {s : Slot R} {members : List (String × Document)}

theorem EqualIff.congr {d' : Document} {P Q : Prop} (h : EqualIff read d d' P) (hPQ : P ↔ Q) :
    EqualIff read d d' Q := by
  obtain ⟨r, r', hr, hr', hiff⟩ := h
  exact ⟨r, r', hr, hr', hiff.trans hPQ⟩

/-- The members that a record is written as. -/
def written (slots : List (Slot R)) (r : R) : List (String × Document) :=
  slots.map fun s => (s.key, s.write (s.get r))

theorem exists_slot_of_lookup (slots : List (Slot R)) (r : R) {key : String} {w : Document}
    (h : (written slots r).lookup key = some w) :
    ∃ s ∈ slots, s.key = key ∧ s.write (s.get r) = w := by
  induction slots with
  | nil => cases h
  | cons s slots ih =>
    rw [written, List.map_cons, List.lookup_cons] at h
    split at h
    · next hkey =>
      exact ⟨s, List.mem_cons_self, (beq_iff_eq.mp hkey).symm, Option.some.inj h⟩
    · obtain ⟨t, ht, hfound⟩ := ih h
      exact ⟨t, List.mem_cons_of_mem _ ht, hfound⟩

theorem lookup_written (happart : slots.Pairwise Slot.Apart) (hs : s ∈ slots) :
    (written slots r).lookup s.key = some (s.write (s.get r)) := by
  induction slots with
  | nil => cases hs
  | cons t slots ih =>
    obtain ⟨hfirst, hrest⟩ := List.pairwise_cons.mp happart
    rw [written, List.map_cons, List.lookup_cons]
    rcases List.mem_cons.mp hs with rfl | hs
    · rw [beq_self_eq_true]
    · rw [beq_eq_false_iff_ne.mpr (hfirst s hs).1.symm]
      exact ih hrest hs

/-- **A record reads as itself** if its fields do. -/
theorem Slotted.readsAs_written (h : Slotted read slots)
    (hall : ∀ s ∈ slots, (s.write (s.get r)).ReadsAs s.read (s.get r)) :
    (Document.map (written slots r)).ReadsAs read r := by
  have hkeys : (written slots r).map Prod.fst = slots.map Slot.key := by
    simp [written, Function.comp_def]
  have hdistinct : (slots.map Slot.key).Nodup :=
    List.pairwise_map.mpr (h.apart.imp fun hst => hst.1)
  intro e he
  cases he with
  | map hback =>
    refine h.read_iff.mpr ⟨_, hback.record? (hkeys ▸ List.Sublist.refl _) hdistinct, ?_⟩
    exact fun s hs => hback.withDefault? (lookup_written h.apart hs) (hall s hs)

theorem Slotted.put_inj (h : Slotted read slots) (hs : s ∈ slots) {a b : s.Value} :
    s.put r a = s.put r b ↔ a = b := by
  refine ⟨fun hput => ?_, congrArg _⟩
  have hget := congrArg s.get hput
  rwa [h.get_put s hs, h.get_put s hs] at hget

variable (h : Slotted read slots) (hr : read d = some r) (hs : s ∈ slots)
include h hr hs

/-- **A change under one key changes one field.** -/
theorem Slotted.read_onMembers (hmembers : d.members? = some members)
    {change : List (String × Document) → List (String × Document)}
    (hchange : ChangesAt s.key change) {a : s.Value}
    (ha : withDefault? (change members) s.key s.read s.default = some a) :
    read (d.onMembers change) = some (s.put r a) := by
  obtain ⟨found, hfound, hall⟩ := h.read_iff.mp hr
  cases hmembers.symm.trans (record?_eq_some_iff.mp hfound).1
  refine h.read_iff.mpr ⟨_, record?_onMembers hfound hchange, fun t ht => ?_⟩
  by_cases hts : t = s
  · subst hts
    rw [ha, h.get_put t ht]
  · obtain ⟨hkey, -, hput⟩ := h.apart.forall ht hs hts
    rw [withDefault?, hchange.others members t.key hkey, hput]
    exact hall t ht

/-- Without the entry, the field has its default. -/
theorem Slotted.read_without : read (d.without [] s.key) = some (s.put r s.default) := by
  obtain ⟨members, hfound, -⟩ := h.read_iff.mp hr
  refine h.read_onMembers hr hs (record?_eq_some_iff.mp hfound).1 (changesAt_dropAt s.key) ?_
  rw [withDefault?, lookup_dropAt, if_pos rfl]

variable {u : Document} (hmembers : d.members? = some members)
  (hu : members.lookup s.key = some u)
include hmembers hu

/-- With another value of the entry, the field is what is read from that. -/
theorem Slotted.read_mapAt {f : Document → Document} {a : s.Value} (ha : s.read (f u) = some a) :
    read (d.onMembers (mapAt s.key f)) = some (s.put r a) := by
  refine h.read_onMembers hr hs hmembers (changesAt_mapAt s.key f) ?_
  rw [withDefault?, lookup_mapAt, if_pos rfl, hu]
  exact ha

/-- The value of an entry can be read. -/
theorem Slotted.read_value : s.read u = some (s.get r) := by
  obtain ⟨found, hfound, hall⟩ := h.read_iff.mp hr
  cases hmembers.symm.trans (record?_eq_some_iff.mp hfound).1
  have hvalue := hall s hs
  rwa [withDefault?, hu] at hvalue

/-- **An entry of the record itself**: leaving it out is setting it to its default. -/
theorem Slotted.equalIff_here {v : Document} {a : s.Value} (ha : s.read v = some a) :
    EqualIff read (d.without [] s.key) (d.setAt [] s.key v) (s.default = a) :=
  ⟨_, _, h.read_without hr hs, h.read_mapAt hr hs hmembers hu ha, h.put_inj hs⟩

/-- **An entry of an inner record**: what is equal there is equal here. -/
theorem Slotted.equalIff_below {place : List String} {key : String} {v : Document} {P : Prop}
    (hinner : EqualIff s.read (u.without place key) (u.setAt place key v) P) :
    EqualIff read (d.without (s.key :: place) key) (d.setAt (s.key :: place) key v) P := by
  obtain ⟨a, b, ha, hb, hiff⟩ := hinner
  exact ⟨_, _, h.read_mapAt hr hs hmembers hu ha, h.read_mapAt hr hs hmembers hu hb,
    (h.put_inj hs).trans hiff⟩

end

end Record

/-! ## The records of a configuration -/

open Document Record

def QueueSettings.slots : List (Slot QueueSettings) := [
  { key := "concurrency", Value := Nat, write := natural, read := asNat64?, default := 1
    get := concurrency, put := fun s n => { s with concurrency := n } },
  { key := "delay_secs", Value := Nat, write := natural, read := asNat64?, default := 0
    get := delaySecs, put := fun s n => { s with delaySecs := n } }]

def QueuesSettings.slots : List (Slot QueuesSettings) :=
  let slot (key : String) (get : QueuesSettings → QueueSettings)
      (put : QueuesSettings → QueueSettings → QueuesSettings) : Slot QueuesSettings :=
    { key, Value := QueueSettings, write := QueueSettings.toDocument
      read := QueueSettings.ofDocument?, default := get {}, get, put }
  [slot "run" run fun s q => { s with run := q },
    slot "healing" healing fun s q => { s with healing := q },
    slot "security" security fun s q => { s with security := q }]

def Configuration.slots (default : Configuration) : List (Slot Configuration) :=
  let slot {α : Type} (key : String) (write : α → Document) (read : Document → Option α)
      (get : Configuration → α) (put : Configuration → α → Configuration) : Slot Configuration :=
    { key, Value := α, write, read, default := get default, get, put }
  [slot "work_root" .text asText? workRoot fun c a => { c with workRoot := a },
    slot "keep_artifacts" .bool asBool? keepArtifacts fun c a => { c with keepArtifacts := a },
    slot "job_timeout_secs" natural asNat64? jobTimeoutSecs
      fun c a => { c with jobTimeoutSecs := a },
    slot "test_timeout_ms" natural asNat64? testTimeoutMs fun c a => { c with testTimeoutMs := a },
    slot "log_tail_lines" natural asNat64? logTailLines fun c a => { c with logTailLines := a },
    slot "install_dependencies" .bool asBool? installDependencies
      fun c a => { c with installDependencies := a },
    slot "report_file" .text asText? reportFile fun c a => { c with reportFile := a },
    slot "queues" QueuesSettings.toDocument QueuesSettings.ofDocument? queues
      fun c a => { c with queues := a }]

theorem QueueSettings.slotted : Slotted ofDocument? slots where
  read_iff := by
    intro d r
    simp only [ofDocument?, slots, List.map_cons, List.map_nil, Option.bind_eq_bind,
      Option.bind_eq_some_iff, Option.pure_def, Option.some.injEq, List.forall_mem_cons]
    constructor
    · rintro ⟨members, hd, c, hc, n, hn, rfl⟩
      exact ⟨members, hd, hc, hn, by simp⟩
    · rintro ⟨members, hd, hc, hn, -⟩
      exact ⟨members, hd, _, hc, _, hn, rfl⟩
  get_put := by simp [slots]
  apart := by simp [slots, Slot.Apart]

theorem QueuesSettings.slotted : Slotted ofDocument? slots where
  read_iff := by
    intro d r
    simp only [ofDocument?, slots, List.map_cons, List.map_nil, Option.bind_eq_bind,
      Option.bind_eq_some_iff, Option.pure_def, Option.some.injEq, List.forall_mem_cons]
    constructor
    · rintro ⟨members, hd, q, hq, h, hh, s, hs, rfl⟩
      exact ⟨members, hd, hq, hh, hs, by simp⟩
    · rintro ⟨members, hd, hq, hh, hs, -⟩
      exact ⟨members, hd, _, hq, _, hh, _, hs, rfl⟩
  get_put := by simp [slots]
  apart := by simp [slots, Slot.Apart]

theorem Configuration.slotted (default : Configuration) :
    Slotted (ofDocument? default) default.slots where
  read_iff := by
    intro d r
    simp only [ofDocument?, slots, List.map_cons, List.map_nil, Option.bind_eq_bind,
      Option.bind_eq_some_iff, Option.pure_def, Option.some.injEq, List.forall_mem_cons]
    constructor
    · rintro ⟨members, hd, a₁, h₁, a₂, h₂, a₃, h₃, a₄, h₄, a₅, h₅, a₆, h₆, a₇, h₇, a₈, h₈, rfl⟩
      exact ⟨members, hd, h₁, h₂, h₃, h₄, h₅, h₆, h₇, h₈, by simp⟩
    · rintro ⟨members, hd, h₁, h₂, h₃, h₄, h₅, h₆, h₇, h₈, -⟩
      exact ⟨members, hd, _, h₁, _, h₂, _, h₃, _, h₄, _, h₅, _, h₆, _, h₇, _, h₈, rfl⟩
  get_put := by simp [slots]
  apart := by simp [slots, Slot.Apart]

/-! ## Entries of the default configuration -/

theorem Document.membersAt?_eq_none {d : Document} (h : d.members? = none) (place : List String) :
    d.membersAt? place = none := by
  cases place with
  | nil => exact h
  | cons key place => rw [membersAt?, h]; rfl

theorem Document.SaidAs.read {α : Type} {d e : Document} (h : d.SaidAs e)
    (hd : ∀ b, d ≠ .bool b) {value : Document → Option α} {a : α} (ha : d.ReadsAs value a) :
    value e = some a := by
  cases h with
  | givenBack h => exact ha e h
  | bool b | plainBool b => exact absurd rfl (hd b)

theorem Document.SaidAs.asBool? {b : Bool} {e : Document} (h : (Document.bool b).SaidAs e) :
    e.asBool? = some b := by
  cases h with
  | givenBack h => cases h
  | bool => rfl
  | plainBool => cases b <;> rfl

namespace QueueSettings

variable {q std : QueueSettings} {d u w v : Document} {place : List String} {key : String}

/-- The numbers of a queue fit into 64 bits. -/
def Fits (q : QueueSettings) : Prop := q.concurrency < 1 <<< 64 ∧ q.delaySecs < 1 <<< 64

theorem readsAs_slots (h : q.Fits) : ∀ s ∈ slots, (s.write (s.get q)).ReadsAs s.read (s.get q) := by
  simp only [slots, List.forall_mem_cons]
  exact ⟨readsAs_natural _ h.1, readsAs_natural _ h.2, by simp⟩

theorem readsAs_toDocument (h : q.Fits) : q.toDocument.ReadsAs ofDocument? q :=
  slotted.readsAs_written (readsAs_slots h)

/-- **An entry of a queue**: leaving it out is setting it to that of a queue described in part. -/
theorem equalIff (hstd : std.Fits) (hd : ofDocument? d = some q)
    (hu : d.valueAt? place key = some u) (hw : std.toDocument.valueAt? place key = some w)
    (hv : w.SaidAs v) :
    place = [] ∧ EqualIff ofDocument? (d.without place key) (d.setAt place key v)
      ((key = "concurrency" → std.concurrency = 1) ∧ (key = "delay_secs" → std.delaySecs = 0)) := by
  obtain ⟨members, hmembers, hlookup⟩ := Option.bind_eq_some_iff.mp hw
  cases place with
  | nil =>
    cases hmembers
    obtain ⟨s, hs, rfl, rfl⟩ := exists_slot_of_lookup slots std hlookup
    obtain ⟨found, hfound, hvalue⟩ := Option.bind_eq_some_iff.mp hu
    have hread : s.read v = some (s.get std) := by
      refine hv.read (fun b => ?_) (readsAs_slots hstd s hs)
      revert s
      simp [slots, natural]
    refine ⟨rfl, (slotted.equalIff_here hd hs hfound hvalue hread).congr ?_⟩
    simp only [slots, List.mem_cons, List.not_mem_nil, or_false] at hs
    rcases hs with rfl | rfl <;> simp [eq_comm]
  | cons k place =>
    obtain ⟨x, hx, hbelow⟩ := Option.bind_eq_some_iff.mp hmembers
    obtain ⟨s, hs, rfl, rfl⟩ := exists_slot_of_lookup slots std hx
    have hscalar : (s.write (s.get std)).members? = none := by
      revert s
      simp [slots, natural, members?]
    rw [membersAt?_eq_none hscalar] at hbelow
    cases hbelow

end QueueSettings

namespace QueuesSettings

variable {qs : QueuesSettings} {d u w v : Document} {place : List String} {key : String}

theorem fits_default : ∀ s ∈ slots, ∃ q : QueueSettings, q.Fits ∧
    s.write (s.get {}) = q.toDocument := by
  simp only [slots, List.forall_mem_cons]
  exact ⟨⟨_, ⟨by decide, by decide⟩, rfl⟩, ⟨_, ⟨by decide, by decide⟩, rfl⟩,
    ⟨_, ⟨by decide, by decide⟩, rfl⟩, by simp⟩

theorem readsAs_slots : ∀ s ∈ slots, (s.write (s.get {})).ReadsAs s.read (s.get {}) := by
  simp only [slots, List.forall_mem_cons]
  exact ⟨QueueSettings.readsAs_toDocument ⟨by decide, by decide⟩,
    QueueSettings.readsAs_toDocument ⟨by decide, by decide⟩,
    QueueSettings.readsAs_toDocument ⟨by decide, by decide⟩, by simp⟩

theorem readsAs_default : (toDocument {}).ReadsAs ofDocument? {} :=
  slotted.readsAs_written readsAs_slots

/-- **An entry of the queues**: leaving it out is setting it to the one that they have by default,
but for the workers of the queue of test runs. -/
theorem equalIff (hd : ofDocument? d = some qs) (hu : d.valueAt? place key = some u)
    (hw : (toDocument {}).valueAt? place key = some w) (hv : w.SaidAs v) :
    EqualIff ofDocument? (d.without place key) (d.setAt place key v)
      (¬ (place = ["run"] ∧ key = "concurrency")) := by
  obtain ⟨members, hmembers, hlookup⟩ := Option.bind_eq_some_iff.mp hw
  obtain ⟨found, hfound, hvalue⟩ := Option.bind_eq_some_iff.mp hu
  cases place with
  | nil =>
    cases hmembers
    obtain ⟨s, hs, rfl, rfl⟩ := exists_slot_of_lookup slots {} hlookup
    obtain ⟨q, -, hq⟩ := fits_default s hs
    have hread : s.read v = some (s.get {}) :=
      hv.read (fun b => by rw [hq]; nofun) (readsAs_slots s hs)
    have hdefault : s.default = s.get {} := by
      revert s
      simp [slots]
    exact (slotted.equalIff_here hd hs hfound hvalue hread).congr
      (iff_of_true hdefault (by simp))
  | cons k place =>
    obtain ⟨x, hx, hbelow⟩ := Option.bind_eq_some_iff.mp hmembers
    obtain ⟨s, hs, rfl, rfl⟩ := exists_slot_of_lookup slots {} hx
    obtain ⟨y, hy, hbelow'⟩ := Option.bind_eq_some_iff.mp hfound
    obtain ⟨outer, houter, hylookup⟩ := Option.bind_eq_some_iff.mp hy
    have hinner := slotted.read_value hd hs houter hylookup
    have hu' : y.valueAt? place key = some u :=
      Option.bind_eq_some_iff.mpr ⟨_, hbelow', hvalue⟩
    have hw' : (s.write (s.get {})).valueAt? place key = some w :=
      Option.bind_eq_some_iff.mpr ⟨_, hbelow, hlookup⟩
    refine slotted.equalIff_below hd hs houter hylookup ?_
    simp only [slots, List.mem_cons, List.not_mem_nil, or_false] at hs
    rcases hs with rfl | rfl | rfl
    all_goals
      obtain ⟨rfl, hequal⟩ := QueueSettings.equalIff ⟨by decide, by decide⟩ hinner hu' hw' hv
      refine hequal.congr ?_
      simp

end QueuesSettings

namespace Configuration

variable {process : Variables} {c : Configuration} {d u w v : Document} {place : List String}
  {key : String}

/-- The default configuration has the defaults of all entries. -/
theorem default_slots (default : Configuration) :
    ∀ s ∈ default.slots, s.default = s.get default := by
  simp [slots]

theorem read_of_saidAs {s : Slot Configuration} (hs : s ∈ (default process).slots)
    (hv : (s.write (s.get (default process))).SaidAs v) :
    s.read v = some (s.get (default process)) := by
  have text (t : String) (hv : (Document.text t).SaidAs v) : v.asText? = some t :=
    hv.read nofun (readsAs_text t)
  have number (n : Nat) (hn : n < 1 <<< 64) (hv : (natural n).SaidAs v) : v.asNat64? = some n :=
    hv.read nofun (readsAs_natural _ hn)
  simp only [slots, List.mem_cons, List.not_mem_nil, or_false] at hs
  rcases hs with rfl | rfl | rfl | rfl | rfl | rfl | rfl | rfl
  · exact text _ hv
  · exact hv.asBool?
  · exact number 900 (by decide) hv
  · exact number 30000 (by decide) hv
  · exact number 200 (by decide) hv
  · exact hv.asBool?
  · exact text _ hv
  · exact hv.read nofun QueuesSettings.readsAs_default

/-- Only the queues have entries of their own. -/
theorem queues_of_membersAt? {s : Slot Configuration} (hs : s ∈ (default process).slots)
    {members : List (String × Document)}
    (h : (s.write (s.get (default process))).membersAt? place = some members) :
    s.key = "queues" := by
  by_contra hkey
  have hscalar : (s.write (s.get (default process))).members? = none := by
    revert s
    simp [slots, natural, members?]
  rw [membersAt?_eq_none hscalar] at h
  cases h

/-- **An entry of a configuration**: leaving it out is setting it to the one of the default
configuration, but for the workers of the queue of test runs. -/
theorem equalIff (hd : ofDocument? (default process) d = some c)
    (hu : d.valueAt? place key = some u)
    (hw : (default process).toDocument.valueAt? place key = some w) (hv : w.SaidAs v) :
    EqualIff (ofDocument? (default process)) (d.without place key) (d.setAt place key v)
      (¬ (place = ["queues", "run"] ∧ key = "concurrency")) := by
  have hslotted := slotted (default process)
  obtain ⟨members, hmembers, hlookup⟩ := Option.bind_eq_some_iff.mp hw
  obtain ⟨found, hfound, hvalue⟩ := Option.bind_eq_some_iff.mp hu
  cases place with
  | nil =>
    cases hmembers
    obtain ⟨s, hs, rfl, rfl⟩ := exists_slot_of_lookup (default process).slots
      (default process) hlookup
    exact (hslotted.equalIff_here hd hs hfound hvalue (read_of_saidAs hs hv)).congr
      (iff_of_true (default_slots _ s hs) (by simp))
  | cons k place =>
    obtain ⟨x, hx, hbelow⟩ := Option.bind_eq_some_iff.mp hmembers
    obtain ⟨s, hs, rfl, rfl⟩ := exists_slot_of_lookup (default process).slots
      (default process) hx
    obtain ⟨y, hy, hbelow'⟩ := Option.bind_eq_some_iff.mp hfound
    obtain ⟨outer, houter, hylookup⟩ := Option.bind_eq_some_iff.mp hy
    have hinner := hslotted.read_value hd hs houter hylookup
    refine hslotted.equalIff_below hd hs houter hylookup ?_
    have hkey := queues_of_membersAt? hs hbelow
    simp only [slots, List.mem_cons, List.not_mem_nil, or_false] at hs
    rcases hs with rfl | rfl | rfl | rfl | rfl | rfl | rfl | rfl
    iterate 7 exact absurd hkey (by simp)
    refine (QueuesSettings.equalIff hinner (Option.bind_eq_some_iff.mpr ⟨_, hbelow', hvalue⟩)
      (Option.bind_eq_some_iff.mpr ⟨_, hbelow, hlookup⟩) hv).congr ?_
    simp

/-! ## Configurations in texts -/

/-- **A text says a document**, after its placeholders are replaced. -/
def Says (process : Variables) (s : String) (d : Document) : Prop :=
  ∃ expanded, Variables.expand .empty process s = .ok expanded ∧
    Document.ofYaml? expanded = some d

theorem ofYaml_eq_ok_iff {s origin : String} :
    ofYaml process s origin = .ok c ↔
      ∃ d, Says process s d ∧ ofDocument? (default process) d = some c := by
  unfold ofYaml
  simp only [bind_eq_ok_iff, Environment.expandRequired_eq_ok_iff]
  constructor
  · rintro ⟨expanded, hexpand, h⟩
    split at h
    · next hread =>
      cases h
      obtain ⟨d, hd, hc⟩ := Option.bind_eq_some_iff.mp hread
      exact ⟨d, ⟨expanded, hexpand, hd⟩, hc⟩
    · cases h
  · rintro ⟨d, ⟨expanded, hexpand, hd⟩, hc⟩
    refine ⟨expanded, hexpand, ?_⟩
    rw [hd, Option.bind_some, hc]

/-- **A missing entry is its default**, with one exception.  A text that is read as a configuration
says a document.  For each entry of that which is one of the default configuration, the document
without it and the one where it has its default value are read, also from texts that say them, and
as the same configuration exactly if it is not the number of workers of the queue of test runs. -/
theorem missing_entry_default_iff {s origin : String} (h : ofYaml process s origin = .ok c) :
    ∃ d, Says process s d ∧ ∀ place key u w v, d.valueAt? place key = some u →
      (default process).toDocument.valueAt? place key = some w → w.SaidAs v →
      ∃ missing given,
        (ofDocument? (default process) (d.without place key) = some missing ∧
          ∀ t, Says process t (d.without place key) → ofYaml process t origin = .ok missing) ∧
        (ofDocument? (default process) (d.setAt place key v) = some given ∧
          ∀ t, Says process t (d.setAt place key v) → ofYaml process t origin = .ok given) ∧
        (missing = given ↔ ¬ (place = ["queues", "run"] ∧ key = "concurrency")) := by
  obtain ⟨d, hsays, hd⟩ := ofYaml_eq_ok_iff.mp h
  refine ⟨d, hsays, fun place key u w v hu hw hv => ?_⟩
  obtain ⟨missing, given, hmissing, hgiven, hiff⟩ := equalIff hd hu hw hv
  exact ⟨missing, given, ⟨hmissing, fun t ht => ofYaml_eq_ok_iff.mpr ⟨_, ht, hmissing⟩⟩,
    ⟨hgiven, fun t ht => ofYaml_eq_ok_iff.mpr ⟨_, ht, hgiven⟩⟩, hiff⟩

end Configuration

namespace Sample

/-- A configuration of the queue of test runs. -/
def runQueueText : String := "queues:
  run:
    concurrency: 4
    delay_secs: 5
"

/-- The keys that lead to the queue. -/
def runQueue : List String := ["queues", "run"]

/-- The default configuration of a process without variables. -/
def plainDefault : Configuration := .default .empty

theorem says_runQueueText : ∃ d c, Configuration.Says .empty runQueueText d ∧
    Configuration.ofDocument? plainDefault d = some c ∧
    (d.valueAt? runQueue "concurrency").isSome ∧ (d.valueAt? runQueue "delay_secs").isSome ∧
    (Configuration.ofDocument? plainDefault (d.without runQueue "concurrency")).map
      (·.queues.run.concurrency) = some 1 ∧
    (Configuration.ofDocument? plainDefault (d.setAt runQueue "concurrency" (natural 2))).map
      (·.queues.run.concurrency) = some 2 := by
  have hread : ((Document.ofYaml? runQueueText).any fun d =>
      (Configuration.ofDocument? plainDefault d).isSome &&
      (d.valueAt? runQueue "concurrency").isSome && (d.valueAt? runQueue "delay_secs").isSome &&
      (Configuration.ofDocument? plainDefault (d.without runQueue "concurrency")).map
        (·.queues.run.concurrency) = some 1 &&
      (Configuration.ofDocument? plainDefault (d.setAt runQueue "concurrency" (natural 2))).map
        (·.queues.run.concurrency) = some 2) = true := by
    unfold runQueueText
    rw [Document.ofYaml?_ofList]
    decide +kernel
  have hexpand : Variables.expand .empty .empty runQueueText = .ok runQueueText :=
    Variables.expand_of_free (Placeholder.free_of_notMem (by decide +kernel))
  obtain ⟨d, hd, hall⟩ := (Option.any_eq_true _ _).mp hread
  simp only [Bool.and_eq_true, decide_eq_true_eq] at hall
  obtain ⟨⟨⟨⟨hc, hworkers⟩, hdelay⟩, hmissing⟩, hgiven⟩ := hall
  obtain ⟨c, hc⟩ := Option.isSome_iff_exists.mp hc
  exact ⟨d, c, ⟨_, hexpand, hd⟩, hc, hworkers, hdelay, hmissing, hgiven⟩

end Sample

/-- A missing delay is none at all. -/
theorem Configuration.missing_delay_is_none : ∃ d c,
    Configuration.Says .empty Sample.runQueueText d ∧
    Configuration.ofDocument? (.default .empty) (d.without Sample.runQueue "delay_secs") = some c ∧
    Configuration.ofDocument? (.default .empty)
      (d.setAt Sample.runQueue "delay_secs" (.plain "0")) = some c := by
  obtain ⟨d, c, hsays, hc, -, hdelay, -⟩ := Sample.says_runQueueText
  have hload : Configuration.ofYaml .empty Sample.runQueueText "inline" = .ok c :=
    ofYaml_eq_ok_iff.mpr ⟨d, hsays, hc⟩
  obtain ⟨d', hsays', hentries⟩ := missing_entry_default_iff hload
  obtain rfl : d' = d := by
    obtain ⟨text, htext, hd⟩ := hsays
    obtain ⟨text', htext', hd'⟩ := hsays'
    cases htext.symm.trans htext'
    exact Option.some.inj (hd'.symm.trans hd)
  obtain ⟨u, hu⟩ := Option.isSome_iff_exists.mp hdelay
  have hzero : Document.naturalOf? "0" = some 0 := by decide
  obtain ⟨missing, given, hmissing, hgiven, hiff⟩ := hentries Sample.runQueue "delay_secs" u
    (natural 0) (.plain "0") hu rfl (.givenBack (.plainNatural hzero))
  obtain rfl := hiff.mpr (by simp)
  exact ⟨d', missing, hsays, hmissing.1, hgiven.1⟩

/-- **A missing number of workers is not always the default one**: without it the queue of test runs
has one worker, and by default it has two. -/
theorem Configuration.missing_workers_are_one : ∃ d c missing given,
    Configuration.ofYaml .empty Sample.runQueueText "inline" = .ok c ∧
    Configuration.Says .empty Sample.runQueueText d ∧
    (d.valueAt? ["queues", "run"] "concurrency").isSome ∧
    (Configuration.default .empty).toDocument.valueAt? ["queues", "run"] "concurrency" =
      some (natural 2) ∧
    Configuration.ofDocument? (.default .empty) (d.without ["queues", "run"] "concurrency") =
      some missing ∧
    Configuration.ofDocument? (.default .empty)
      (d.setAt ["queues", "run"] "concurrency" (natural 2)) = some given ∧
    missing.queues.run.concurrency = 1 ∧ given.queues.run.concurrency = 2 := by
  obtain ⟨d, c, hsays, hc, hworkers, -, hmissing, hgiven⟩ := Sample.says_runQueueText
  obtain ⟨missing, hmissing, hone⟩ := Option.map_eq_some_iff.mp hmissing
  obtain ⟨given, hgiven, htwo⟩ := Option.map_eq_some_iff.mp hgiven
  exact ⟨d, c, missing, given, ofYaml_eq_ok_iff.mpr ⟨d, hsays, hc⟩, hsays, hworkers, rfl,
    hmissing, hgiven, hone, htwo⟩

end Testplan
