import Mathlib.Data.List.TakeWhile
import Testplan.Proofs.QueueContents
/-!
# The ledger of a queue

A queue is called by many, in any order and at any times (`QueueCall`).  The same job may
be added more than once, so what is accounted for is not jobs but successful additions:
an **occurrence** has a number, and the ledger says where each occurrence is.  It is kept
beside the queue: when the queue moves an entry, the occurrence behind the entry moves
(`Ledger`), and the answers of the queue are recorded as they are given (`QueueRun`).

One call keeps the books (`QueueRun.Balanced.call`), so they are kept in every run.  The
delayed entries are in the order of their times, since the clock does not go back; so the
sort before each promotion moves nothing (`Ledger.promote_of_sorted`), and occurrences
leave the queue in the order in which they came (`QueueRun.conservation`).
-/
namespace Testplan

/-! ## Runs of a queue -/

/-- **A call of a queue**, or time that passes. -/
inductive QueueCall where
  | add (j : Job)
  /-- Somebody asks for a job, with a token that is cancelled or not. -/
  | next (cancelled : Bool)
  | complete (j : Job)
  | release (id : JobId)
  | pause
  | resume
  | close
  | drain (force : Bool)
  | clean (grace : Time) (limit : Nat) (status : CleanStatus)
  | advance (ms : Time)

/-- **A successful addition**: its number, its time and the job. -/
structure Occurrence where
  number : Nat
  time : Time
  job : Job

/-- **Where the occurrences are.** -/
structure Ledger where
  added : List Occurrence := []
  waiting : List Occurrence := []
  delayed : List Occurrence := []
  /-- What was handed out, and when. -/
  handed : List (Time × Occurrence) := []
  drained : List Occurrence := []

namespace Ledger

/-- The next occurrence. -/
def fresh (l : Ledger) (now : Time) (j : Job) : Occurrence := ⟨l.added.length, now, j⟩

/-- A job is added to a queue with a delay. -/
def add (l : Ledger) (delay now : Time) (j : Job) : Ledger :=
  if delay = 0 then
    { l with added := l.added ++ [l.fresh now j], waiting := l.waiting ++ [l.fresh now j] }
  else
    { l with added := l.added ++ [l.fresh now j], delayed := l.delayed ++ [l.fresh now j] }

/-- What is due is promoted. -/
def promote (l : Ledger) (delay now : Time) : Ledger :=
  let inOrder := l.delayed.mergeSort fun a b => a.time + delay ≤ b.time + delay
  { l with
    waiting := l.waiting ++ inOrder.takeWhile fun o => o.time + delay ≤ now
    delayed := inOrder.dropWhile fun o => o.time + delay ≤ now }

/-- The first waiting entry is handed out. -/
def hand (l : Ledger) (now : Time) : Ledger :=
  { l with
    waiting := l.waiting.drop 1
    handed := l.handed ++ (l.waiting.take 1).map fun o => (now, o) }

/-- The queue is drained. -/
def drain (l : Ledger) (force : Bool) : Ledger :=
  { l with
    waiting := []
    delayed := if force then [] else l.delayed
    drained := l.drained ++ (l.waiting ++ if force then l.delayed else []) }

end Ledger

/-- **A queue in use**: the clock, what was answered to those who asked for jobs and to
those who drained the queue, and the ledger. -/
structure QueueRun where
  queue : JobQueue
  now : Time
  taken : List (Time × Job) := []
  removed : List JobId := []
  ledger : Ledger := {}

namespace QueueRun

/-- What is due is promoted. -/
def promoted (r : QueueRun) : QueueRun :=
  { r with queue := r.queue.promote r.now, ledger := r.ledger.promote r.queue.delay r.now }

/-- **The queue after a call.** -/
def call (r : QueueRun) : QueueCall → QueueRun
  | .add j =>
    match r.queue.add? r.now j with
    | none => r
    | some q => { r with queue := q, ledger := r.ledger.add r.queue.delay r.now j }
  | .next cancelled =>
    let (q, taking) := r.queue.next r.now cancelled
    let ledger :=
      if cancelled || r.queue.closed then r.ledger else r.ledger.promote r.queue.delay r.now
    match taking with
    | .job j => { r with queue := q, taken := r.taken ++ [(r.now, j)], ledger := ledger.hand r.now }
    | _ => { r with queue := q, ledger }
  | .complete j => { r with queue := r.queue.complete r.now j }
  | .release id => { r with queue := r.queue.release id }
  | .pause => { r with queue := r.queue.pause }
  | .resume => { r with queue := r.queue.resume }
  | .close => { r with queue := r.queue.close }
  | .drain force =>
    { r with
      queue := (r.queue.drain force).1
      removed := r.removed ++ (r.queue.drain force).2
      ledger := r.ledger.drain force }
  | .clean grace limit status => { r with queue := (r.queue.clean r.now grace limit status).1 }
  | .advance ms => { r with now := r.now + ms }

/-- An empty queue at some time. -/
def start (name : QueueName) (settings : QueueSettings) (now : Time) : QueueRun where
  queue := { name, settings }
  now := now

/-- **The queue after all the calls.** -/
def run (r : QueueRun) (calls : List QueueCall) : QueueRun := calls.foldl call r

/-! ## What asking does -/

/-- Somebody who asks gets nothing, since the queue is at an end; or what is due is
promoted, and the first waiting job is handed out unless the queue is paused. -/
theorem call_next_cases (r : QueueRun) (cancelled : Bool) :
    (r.call (.next cancelled) = r ∧ (cancelled = true ∨ r.queue.closed = true)) ∨
    (cancelled = false ∧ r.queue.closed = false ∧
      (r.call (.next cancelled) = r.promoted ∨
      ∃ j rest active, r.queue.paused = false ∧ r.promoted.queue.waiting = j :: rest ∧
        r.call (.next cancelled) = { r.promoted with
          queue := { r.promoted.queue with waiting := rest, active }
          taken := r.taken ++ [(r.now, j)]
          ledger := r.promoted.ledger.hand r.now })) := by
  simp only [call]
  rcases r.queue.next_cases r.now cancelled with
    ⟨hs, hn⟩ | ⟨hcancelled, hclosed, ⟨-, hn⟩ | ⟨j, rest, hp, hw, hn⟩⟩
  · left
    rw [hn, if_pos (by simpa using hs)]
    exact ⟨rfl, hs⟩
  all_goals
    right
    have hs : ¬ (cancelled || r.queue.closed) = true := by simp [hcancelled, hclosed]
    rw [hn, if_neg hs]
  · exact ⟨hcancelled, hclosed, .inl rfl⟩
  · exact ⟨hcancelled, hclosed, .inr ⟨j, rest, _, hp, hw, rfl⟩⟩

end QueueRun

/-! ## Keeping the books -/

/-- Occurrences by their numbers. -/
def InOrder (l : List Occurrence) : Prop := l.Pairwise fun a b => a.number < b.number

namespace QueueRun

/-- **The books are right.** -/
structure Balanced (r : QueueRun) : Prop where
  /-- The entries of the queue are those of the ledger. -/
  waiting : r.queue.waiting = r.ledger.waiting.map Occurrence.job
  delayed : r.queue.delayed = r.ledger.delayed.map fun o => (o.time + r.queue.delay, o.job)
  /-- The answers are those of the ledger. -/
  taken : r.taken = r.ledger.handed.map fun h => (h.1, h.2.job)
  removed : r.removed = r.ledger.drained.map fun o => o.job.id
  numbers : r.ledger.added.map Occurrence.number = List.range r.ledger.added.length
  /-- Nothing is lost, and nothing is in two places. -/
  conserved : (r.ledger.handed.map Prod.snd ++ (r.ledger.waiting ++ r.ledger.delayed) ++
    r.ledger.drained).Perm r.ledger.added
  order : InOrder (r.ledger.handed.map Prod.snd ++ (r.ledger.waiting ++ r.ledger.delayed))
  /-- The times of the delayed entries do not go back. -/
  sorted : r.ledger.delayed.Pairwise fun a b => a.time ≤ b.time
  past : ∀ o ∈ r.ledger.delayed, o.time ≤ r.now
  due : ∀ o ∈ r.ledger.waiting, o.time + r.queue.delay ≤ r.now
  handed_due : ∀ h ∈ r.ledger.handed, h.2.time + r.queue.delay ≤ h.1
  undelayed : r.queue.delay = 0 → r.ledger.delayed = []

end QueueRun

/-- Entries in the order of their times stay where they are when they are sorted. -/
theorem Ledger.promote_of_sorted {l : Ledger} (h : l.delayed.Pairwise fun a b => a.time ≤ b.time)
    (delay now : Time) : l.promote delay now = { l with
      waiting := l.waiting ++ l.delayed.takeWhile fun o => o.time + delay ≤ now
      delayed := l.delayed.dropWhile fun o => o.time + delay ≤ now } := by
  have hs : l.delayed.mergeSort (fun a b => a.time + delay ≤ b.time + delay) = l.delayed :=
    List.mergeSort_of_pairwise (h.imp fun hab => by simpa using hab)
  simp only [promote, hs]

/-- The entries of a queue in the order of their times are not moved by the sort. -/
theorem JobQueue.promote_of_sorted {q : JobQueue}
    (h : q.delayed.Pairwise fun a b => a.1 ≤ b.1) (now : Time) : q.promote now = { q with
      waiting := q.waiting ++ (q.delayed.takeWhile fun d => d.1 ≤ now).map Prod.snd
      delayed := q.delayed.dropWhile fun d => d.1 ≤ now } := by
  have hs : q.delayed.mergeSort (fun a b => a.1 ≤ b.1) = q.delayed :=
    List.mergeSort_of_pairwise (h.imp fun hab => by simpa using hab)
  simp only [promote, hs]

namespace QueueRun.Balanced

variable {r : QueueRun}

theorem start (name : QueueName) (settings : QueueSettings) (now : Time) :
    (QueueRun.start name settings now).Balanced where
  waiting := rfl
  delayed := rfl
  taken := rfl
  removed := rfl
  numbers := rfl
  conserved := .refl _
  order := .nil
  sorted := .nil
  past := by simp [QueueRun.start]
  due := by simp [QueueRun.start]
  handed_due := by simp [QueueRun.start]
  undelayed _ := rfl

/-- A call that leaves the entries, the answers and the clock alone. -/
theorem of_same_entries (h : r.Balanced) {q : JobQueue} (hw : q.waiting = r.queue.waiting)
    (hd : q.delayed = r.queue.delayed) (hs : q.settings = r.queue.settings) :
    { r with queue := q }.Balanced := by
  have hdelay : q.delay = r.queue.delay := by rw [JobQueue.delay, hs, JobQueue.delay]
  exact { h with
    waiting := hw.trans h.waiting
    delayed := by
      dsimp only
      rw [hd, hdelay]
      exact h.delayed
    due := by
      dsimp only
      rw [hdelay]
      exact h.due
    handed_due := by
      dsimp only
      rw [hdelay]
      exact h.handed_due
    undelayed := by
      dsimp only
      rw [hdelay]
      exact h.undelayed }

theorem advance (h : r.Balanced) (ms : Time) : { r with now := r.now + ms }.Balanced :=
  { h with
    past := fun o ho => Nat.le_add_right_of_le (h.past o ho)
    due := fun o ho => Nat.le_add_right_of_le (h.due o ho) }

/-- The number of the next occurrence is above all others. -/
theorem number_lt (h : r.Balanced) {o : Occurrence} (ho : o ∈ r.ledger.added) :
    o.number < r.ledger.added.length := by
  have hm := List.mem_map_of_mem (f := Occurrence.number) ho
  rwa [h.numbers, List.mem_range] at hm

theorem numbers_concat (h : r.Balanced) (now : Time) (j : Job) :
    (r.ledger.added ++ [r.ledger.fresh now j]).map Occurrence.number =
      List.range (r.ledger.added ++ [r.ledger.fresh now j]).length := by
  rw [List.map_append, h.numbers, List.length_append, List.length_singleton, List.range_succ]
  rfl

/-- The next occurrence is booked behind all that are in the queue. -/
theorem conserved_concat (h : r.Balanced) (o : Occurrence) :
    (r.ledger.handed.map Prod.snd ++ (r.ledger.waiting ++ r.ledger.delayed ++ [o]) ++
      r.ledger.drained).Perm (r.ledger.added ++ [o]) := by
  refine List.Perm.trans ?_ (h.conserved.append_right [o])
  rw [← List.append_assoc, List.append_assoc _ [o], List.append_assoc _ r.ledger.drained]
  exact List.perm_append_comm.append_left _

theorem order_concat (h : r.Balanced) (now : Time) (j : Job) :
    InOrder (r.ledger.handed.map Prod.snd ++
      (r.ledger.waiting ++ r.ledger.delayed ++ [r.ledger.fresh now j])) := by
  rw [← List.append_assoc]
  refine List.pairwise_append.mpr ⟨h.order, List.pairwise_singleton .., fun o ho fresh hf => ?_⟩
  rw [List.eq_of_mem_singleton hf]
  exact h.number_lt (h.conserved.mem_iff.mp (List.mem_append_left _ ho))

theorem add (h : r.Balanced) {q : JobQueue} {j : Job} (ha : r.queue.add? r.now j = some q) :
    { r with queue := q, ledger := r.ledger.add r.queue.delay r.now j }.Balanced := by
  unfold JobQueue.add? at ha
  split at ha
  · cases ha
  · unfold Ledger.add
    split at ha
    · next hd =>
      -- without a delay nothing is delayed: the last waiting entry is the last of all
      cases ha
      rw [if_pos hd]
      have hlast : r.ledger.waiting ++ [r.ledger.fresh r.now j] ++ r.ledger.delayed =
          r.ledger.waiting ++ r.ledger.delayed ++ [r.ledger.fresh r.now j] := by
        rw [h.undelayed hd, List.append_nil, List.append_nil]
      exact { h with
        waiting := by simp [h.waiting, Ledger.fresh]
        numbers := h.numbers_concat r.now j
        conserved := hlast ▸ h.conserved_concat _
        order := hlast ▸ h.order_concat r.now j
        due := fun o ho => by
          rcases List.mem_append.mp ho with ho | ho
          · exact h.due o ho
          · rw [List.eq_of_mem_singleton ho]
            exact (Nat.add_le_add_left (Nat.le_of_eq hd) _) }
    · next hd =>
      cases ha
      rw [if_neg hd]
      have hlast : r.ledger.waiting ++ (r.ledger.delayed ++ [r.ledger.fresh r.now j]) =
          r.ledger.waiting ++ r.ledger.delayed ++ [r.ledger.fresh r.now j] :=
        (List.append_assoc ..).symm
      exact { h with
        delayed := by simp [h.delayed, Ledger.fresh, JobQueue.delay]
        numbers := h.numbers_concat r.now j
        conserved := hlast ▸ h.conserved_concat _
        order := hlast ▸ h.order_concat r.now j
        sorted := by
          refine List.pairwise_append.mpr ⟨h.sorted, List.pairwise_singleton .., fun o ho a ha => ?_⟩
          rw [List.eq_of_mem_singleton ha]
          exact h.past o ho
        past := fun o ho => by
          rcases List.mem_append.mp ho with ho | ho
          · exact h.past o ho
          · rw [List.eq_of_mem_singleton ho]
            exact Nat.le_refl _
        undelayed := fun h0 => absurd h0 hd }

theorem promoted (h : r.Balanced) : r.promoted.Balanced := by
  have hqueue : r.queue.delayed.Pairwise fun a b => a.1 ≤ b.1 := by
    rw [h.delayed, List.pairwise_map]
    exact h.sorted.imp fun hab => by simpa using hab
  have hsplit : (r.ledger.delayed.takeWhile fun o => o.time + r.queue.delay ≤ r.now) ++
      (r.ledger.delayed.dropWhile fun o => o.time + r.queue.delay ≤ r.now) = r.ledger.delayed :=
    List.takeWhile_append_dropWhile
  have hkept : (r.ledger.delayed.dropWhile fun o => o.time + r.queue.delay ≤ r.now).Sublist
      r.ledger.delayed := List.dropWhile_sublist _
  unfold QueueRun.promoted
  rw [JobQueue.promote_of_sorted hqueue, Ledger.promote_of_sorted h.sorted]
  exact { h with
    waiting := by
      rw [h.waiting, h.delayed, List.takeWhile_map, List.map_append, List.map_map]
      rfl
    delayed := by
      rw [h.delayed, List.dropWhile_map]
      rfl
    conserved := by
      rw [List.append_assoc r.ledger.waiting, hsplit]
      exact h.conserved
    order := by
      rw [List.append_assoc r.ledger.waiting, hsplit]
      exact h.order
    sorted := h.sorted.sublist hkept
    past := fun o ho => h.past o (hkept.subset ho)
    due := fun o ho => by
      rcases List.mem_append.mp ho with ho | ho
      · exact h.due o ho
      · have hdue := List.mem_takeWhile_imp ho
        exact of_decide_eq_true hdue
    undelayed := fun h0 => by
      rw [h.undelayed h0]
      rfl }

theorem hand (h : r.Balanced) {j : Job} {rest : List Job} {active : List JobId}
    (hw : r.queue.waiting = j :: rest) :
    { r with
      queue := { r.queue with waiting := rest, active }
      taken := r.taken ++ [(r.now, j)]
      ledger := r.ledger.hand r.now }.Balanced := by
  obtain ⟨o, others, hl, rfl, rfl⟩ := List.map_eq_cons_iff.mp (h.waiting.symm.trans hw)
  have hdue := h.due
  have hmove : (r.ledger.handed ++ [(r.now, o)]).map Prod.snd ++ (others ++ r.ledger.delayed) =
      r.ledger.handed.map Prod.snd ++ (r.ledger.waiting ++ r.ledger.delayed) := by
    rw [hl, List.map_append, List.append_assoc]
    rfl
  unfold Ledger.hand
  rw [hl] at hdue ⊢
  exact { h with
    waiting := rfl
    delayed := h.delayed
    taken := by simp [h.taken]
    conserved := by
      show ((r.ledger.handed ++ [(r.now, o)]).map Prod.snd ++ (others ++ r.ledger.delayed) ++
        r.ledger.drained).Perm r.ledger.added
      rw [hmove]
      exact h.conserved
    order := by
      show InOrder ((r.ledger.handed ++ [(r.now, o)]).map Prod.snd ++ (others ++ r.ledger.delayed))
      rw [hmove]
      exact h.order
    due := fun a ha => hdue a (List.mem_cons_of_mem _ ha)
    handed_due := fun a ha => by
      rcases List.mem_append.mp ha with ha | ha
      · exact h.handed_due a ha
      · rw [List.eq_of_mem_singleton ha]
        exact hdue o List.mem_cons_self
    undelayed := h.undelayed }

theorem drain (h : r.Balanced) (force : Bool) :
    { r with
      queue := (r.queue.drain force).1
      removed := r.removed ++ (r.queue.drain force).2
      ledger := r.ledger.drain force }.Balanced := by
  have hsub : (if force then [] else r.ledger.delayed).Sublist r.ledger.delayed := by
    cases force
    · exact .refl _
    · exact List.nil_sublist _
  unfold Ledger.drain
  exact { h with
    waiting := rfl
    delayed := by
      show (if force then [] else r.queue.delayed) = _
      cases force
      · exact h.delayed
      · rfl
    removed := by
      rw [h.removed, JobQueue.drain, h.waiting, h.delayed]
      cases force <;> simp [Function.comp_def]
    conserved := by
      refine List.Perm.trans ?_ h.conserved
      rw [List.nil_append, List.append_assoc, List.append_assoc]
      refine List.Perm.append_left _ ?_
      cases force with
      | true =>
        show ([] ++ (r.ledger.drained ++ (r.ledger.waiting ++ r.ledger.delayed))).Perm _
        rw [List.nil_append]
        exact List.perm_append_comm
      | false =>
        show (r.ledger.delayed ++ (r.ledger.drained ++ (r.ledger.waiting ++ []))).Perm _
        rw [List.append_nil, ← List.append_assoc, List.append_assoc r.ledger.waiting]
        exact List.perm_append_comm
    order := by
      refine h.order.sublist (List.Sublist.append_left ?_ _)
      exact hsub.trans (List.sublist_append_right _ _)
    sorted := h.sorted.sublist hsub
    past := fun o ho => h.past o (hsub.subset ho)
    due := by simp
    handed_due := h.handed_due
    undelayed := fun h0 => by
      rw [h.undelayed h0]
      exact ite_self _ }

/-- **One call keeps the books.** -/
theorem call (h : r.Balanced) (c : QueueCall) : (r.call c).Balanced := by
  cases c with
  | add j =>
    simp only [QueueRun.call]
    cases ha : r.queue.add? r.now j with
    | none => exact h
    | some q => exact h.add ha
  | next cancelled =>
    rcases r.call_next_cases cancelled with ⟨hc, -⟩ | ⟨-, -, hc | ⟨j, rest, active, -, hw, hc⟩⟩
    · rw [hc]
      exact h
    · rw [hc]
      exact h.promoted
    · rw [hc]
      exact h.promoted.hand hw
  | complete j => exact h.of_same_entries rfl rfl rfl
  | release id => exact h.of_same_entries rfl rfl rfl
  | pause => exact h.of_same_entries rfl rfl rfl
  | resume => exact h.of_same_entries rfl rfl rfl
  | close => exact h.of_same_entries rfl rfl rfl
  | drain force => exact h.drain force
  | clean grace limit status => exact h.of_same_entries rfl rfl rfl
  | advance ms => exact h.advance ms

theorem run (h : r.Balanced) (calls : List QueueCall) : (r.run calls).Balanced := by
  induction calls generalizing r with
  | nil => exact h
  | cons c rest ih => exact ih (h.call c)

end QueueRun.Balanced

/-! ## Pausing and closing -/

/-- Whether the queue is paused after a call. -/
def QueueCall.pauses (paused : Bool) : QueueCall → Bool
  | .pause => true
  | .resume => false
  | _ => paused

/-- The last call that paused or resumed the queue paused it. -/
def isPausedAfter (calls : List QueueCall) : Bool := calls.foldl QueueCall.pauses false

namespace QueueRun

theorem switches_call (r : QueueRun) (c : QueueCall) :
    (r.call c).queue.settings = r.queue.settings ∧
      ((r.call c).queue.closed = true ↔ r.queue.closed = true ∨ c = .close) ∧
      (r.call c).queue.paused = c.pauses r.queue.paused := by
  cases c with
  | add j =>
    simp only [call, JobQueue.add?]
    split
    · simp [QueueCall.pauses]
    · next q ha =>
      split at ha
      · cases ha
      · split at ha <;> obtain rfl := Option.some.inj ha <;> simp [QueueCall.pauses]
  | next cancelled =>
    have hp : r.promoted.queue.settings = r.queue.settings ∧
        r.promoted.queue.closed = r.queue.closed ∧ r.promoted.queue.paused = r.queue.paused :=
      ⟨rfl, rfl, rfl⟩
    rcases r.call_next_cases cancelled with ⟨hc, -⟩ | ⟨-, -, hc | ⟨j, rest, active, -, -, hc⟩⟩ <;>
      simp [hc, hp, QueueCall.pauses]
  | close => simp [call, JobQueue.close, QueueCall.pauses]
  | pause => simp [call, JobQueue.pause, QueueCall.pauses]
  | resume => simp [call, JobQueue.resume, QueueCall.pauses]
  | complete j => simp [call, JobQueue.complete, QueueCall.pauses]
  | release id => simp [call, JobQueue.release, QueueCall.pauses]
  | drain force => simp [call, JobQueue.drain, QueueCall.pauses]
  | clean grace limit status => simp [call, JobQueue.clean, QueueCall.pauses]
  | advance ms => simp [call, QueueCall.pauses]

theorem switches_run (r : QueueRun) (calls : List QueueCall) :
    (r.run calls).queue.settings = r.queue.settings ∧
      ((r.run calls).queue.closed = true ↔ r.queue.closed = true ∨ .close ∈ calls) ∧
      (r.run calls).queue.paused = calls.foldl QueueCall.pauses r.queue.paused := by
  induction calls generalizing r with
  | nil => simp [run]
  | cons c rest ih =>
    obtain ⟨hs, hc, hp⟩ := r.switches_call c
    obtain ⟨ihs, ihc, ihp⟩ := ih (r.call c)
    refine ⟨ihs.trans hs, ?_, ?_⟩
    · rw [List.mem_cons, ← or_assoc, eq_comm (a := QueueCall.close), ← hc]
      exact ihc
    · rw [List.foldl_cons, ← hp]
      exact ihp

/-- Only those who ask with a token in force are handed anything, and only by a queue that
is neither paused nor closed. -/
theorem cases_of_handed {r : QueueRun} {c : QueueCall}
    (h : (r.call c).ledger.handed ≠ r.ledger.handed) :
    c = .next false ∧ r.queue.paused = false ∧ r.queue.closed = false := by
  cases c with
  | add j =>
    refine absurd ?_ h
    simp only [call, Ledger.add]
    split
    · rfl
    · split <;> rfl
  | next cancelled =>
    rcases r.call_next_cases cancelled with
      ⟨hc, -⟩ | ⟨rfl, hclosed, hc | ⟨j, rest, active, hp, -, -⟩⟩
    · exact absurd (by rw [hc]) h
    · exact absurd (by rw [hc]; rfl) h
    · exact ⟨rfl, hp, hclosed⟩
  | _ => exact absurd rfl h

/-- **A queue loses nothing, and hands out first what came first.**  Whatever is called, in
any order and at any times: every successful addition is waiting, delayed, handed out or
drained, and only one of these; what came first is handed out first, after the delay, to
those who may have it; and draining gives what was in the queue, in order. -/
theorem conservation (name : QueueName) (settings : QueueSettings) (now : Time)
    (calls : List QueueCall) :
    let r := (start name settings now).run calls
    let l := r.ledger
    -- every addition is in one place
    (l.added.map Occurrence.number = List.range l.added.length ∧
      (l.handed.map Prod.snd ++ (l.waiting ++ l.delayed) ++ l.drained).Perm l.added) ∧
    -- the places are those of the queue and of its answers
    (r.queue.waiting = l.waiting.map Occurrence.job ∧
      r.queue.delayed = l.delayed.map (fun o => (o.time + settings.delaySecs * 1000, o.job)) ∧
      r.taken = l.handed.map (fun h => (h.1, h.2.job)) ∧
      r.removed = l.drained.map (fun o => o.job.id)) ∧
    -- first come, first served
    InOrder (l.handed.map Prod.snd) ∧
    -- nothing is handed out too soon, or to somebody who may not have it
    (∀ h ∈ l.handed, h.2.time + settings.delaySecs * 1000 ≤ h.1) ∧
    (∀ c, (r.call c).ledger.handed ≠ l.handed →
      c = .next false ∧ isPausedAfter calls = false ∧ .close ∉ calls) ∧
    -- draining gives what was in the queue
    (∀ force, (r.queue.drain force).2 =
        (l.waiting ++ if force then l.delayed else []).map (fun o => o.job.id) ∧
      InOrder (l.waiting ++ if force then l.delayed else []) ∧
      (r.queue.drain force).1.active = r.queue.active ∧
      (r.queue.drain force).1.finished = r.queue.finished) := by
  intro r l
  have h : r.Balanced := (Balanced.start name settings now).run calls
  obtain ⟨hsettings, hclosed, hpaused⟩ := (start name settings now).switches_run calls
  have hdelay : r.queue.delay = settings.delaySecs * 1000 := by
    show r.queue.settings.delaySecs * 1000 = _
    rw [hsettings]
    rfl
  have horder : InOrder (l.waiting ++ l.delayed) :=
    h.order.sublist (List.sublist_append_right _ _)
  refine ⟨⟨h.numbers, h.conserved⟩, ⟨h.waiting, hdelay ▸ h.delayed, h.taken, h.removed⟩,
    h.order.sublist (List.sublist_append_left _ _), hdelay ▸ h.handed_due, fun c hc => ?_,
    fun force => ⟨?_, ?_, rfl, rfl⟩⟩
  · obtain ⟨rfl, hp, hnot⟩ := cases_of_handed hc
    refine ⟨rfl, hpaused.symm.trans hp, fun hmem => ?_⟩
    have hyes : r.queue.closed = true := hclosed.mpr (.inr hmem)
    rw [hnot] at hyes
    cases hyes
  · rw [JobQueue.drain, h.waiting, h.delayed]
    cases force <;> simp [l, Function.comp_def]
  · cases force with
    | true => exact horder
    | false =>
      refine horder.sublist ?_
      show (l.waiting ++ []).Sublist _
      rw [List.append_nil]
      exact List.sublist_append_left _ _

end QueueRun

end Testplan
