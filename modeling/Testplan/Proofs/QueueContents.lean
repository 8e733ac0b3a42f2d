import Testplan.Waiting
/-!
# What the queues contain

The **contents** of a queue are the jobs that it has yet to hand out, waiting or delayed.
Time moves jobs from the delayed to the waiting ones and nothing else does, so asking a
queue for a job gives a job of the contents or leaves them as they were
(`contents_of_next`, `contents_next_of_no_job`).  A job that was handed out is active
until it is completed or released.

Each operation touches one queue of the three; the others stay (`QueueSet.get_set`).
-/
namespace Testplan

namespace JobQueue

/-- **The jobs that a queue has yet to hand out.** -/
def contents (q : JobQueue) : List Job := q.waiting ++ q.delayed.map Prod.snd

/-- An idle queue has nothing to hand out and no active job. -/
theorem isIdle_iff (q : JobQueue) : q.isIdle = true ↔ q.contents = [] ∧ q.active = [] := by
  simp only [isIdle, contents, Bool.and_eq_true, List.isEmpty_iff, List.append_eq_nil_iff,
    List.map_eq_nil_iff]

/-! ## Adding -/

theorem add?_eq_none_iff (q : JobQueue) (now : Time) (j : Job) :
    q.add? now j = none ↔ q.closed = true := by
  unfold add?
  cases hc : q.closed with
  | true => simp
  | false =>
    by_cases hd : q.delay = 0
    · simp [hd]
    · simp [hd]

/-- A job that is added joins the contents. -/
theorem contents_of_add? {q q' : JobQueue} {now : Time} {j : Job} (h : q.add? now j = some q') :
    q'.contents.Perm (j :: q.contents) := by
  unfold add? at h
  split at h
  · cases h
  · split at h
    · obtain rfl := Option.some.inj h
      show (q.waiting ++ [j] ++ q.delayed.map Prod.snd).Perm _
      rw [List.append_assoc]
      exact List.perm_middle
    · obtain rfl := Option.some.inj h
      show (q.waiting ++ (q.delayed ++ [(now + q.delay, j)]).map Prod.snd).Perm _
      rw [List.map_append, ← List.append_assoc]
      exact List.perm_append_singleton j _

theorem active_of_add? {q q' : JobQueue} {now : Time} {j : Job} (h : q.add? now j = some q') :
    q'.active = q.active ∧ q'.finished = q.finished := by
  unfold add? at h
  split at h
  · cases h
  · split at h <;> obtain rfl := Option.some.inj h <;> exact ⟨rfl, rfl⟩

/-! ## Asking -/

@[simp] theorem active_promote (q : JobQueue) (now : Time) :
    (q.promote now).active = q.active := rfl

@[simp] theorem paused_promote (q : JobQueue) (now : Time) :
    (q.promote now).paused = q.paused := rfl

/-- **What asking does.**  Who asks at the end of the service, or with a cancelled token,
gets nothing; otherwise what is due is promoted first.  Then the first waiting job is handed
out, unless the queue is paused. -/
theorem next_cases (q : JobQueue) (now : Time) (cancelled : Bool) :
    ((cancelled = true ∨ q.closed = true) ∧ q.next now cancelled = (q, .ended)) ∨
    (cancelled = false ∧ q.closed = false ∧
      (((q.paused = true ∨ (q.promote now).waiting = []) ∧
        q.next now cancelled = (q.promote now, .wait ((q.promote now).deadline now))) ∨
      ∃ j rest, q.paused = false ∧ (q.promote now).waiting = j :: rest ∧
        q.next now cancelled = ({ q.promote now with
          waiting := rest
          active := if j.id ∈ q.active then q.active else q.active ++ [j.id] }, .job j))) := by
  unfold next
  by_cases hs : (cancelled || q.closed) = true
  · left
    rw [if_pos hs]
    exact ⟨by simpa using hs, rfl⟩
  · right
    rw [if_neg hs]
    obtain ⟨hcancelled, hclosed⟩ : cancelled = false ∧ q.closed = false := by simpa using hs
    refine ⟨hcancelled, hclosed, ?_⟩
    dsimp only
    cases hw : (q.promote now).waiting with
    | nil => exact .inl ⟨.inr rfl, rfl⟩
    | cons j rest =>
      dsimp only
      rw [paused_promote, active_promote]
      cases hp : q.paused with
      | true => exact .inl ⟨.inl rfl, rfl⟩
      | false => exact .inr ⟨j, rest, rfl, rfl, rfl⟩

/-- Nobody opens or closes a queue by asking. -/
@[simp] theorem closed_next (q : JobQueue) (now : Time) (cancelled : Bool) :
    (q.next now cancelled).1.closed = q.closed := by
  rcases q.next_cases now cancelled with
    ⟨-, hn⟩ | ⟨-, -, ⟨-, hn⟩ | ⟨j, rest, -, -, hn⟩⟩ <;> rw [hn] <;> rfl

/-- Time does not change the contents. -/
theorem contents_promote (q : JobQueue) (now : Time) :
    (q.promote now).contents.Perm q.contents := by
  -- what is due is moved to the waiting jobs; sorting and cutting in two lose nothing
  show ((q.waiting ++ ((q.delayed.mergeSort fun a b => a.1 ≤ b.1).takeWhile _).map Prod.snd) ++
    ((q.delayed.mergeSort fun a b => a.1 ≤ b.1).dropWhile _).map Prod.snd).Perm _
  rw [List.append_assoc, ← List.map_append, List.takeWhile_append_dropWhile]
  exact ((List.mergeSort_perm _ _).map Prod.snd).append_left q.waiting

/-- A job that is handed out leaves the contents and becomes active. -/
theorem contents_of_next {q q' : JobQueue} {now : Time} {cancelled : Bool} {j : Job}
    (h : q.next now cancelled = (q', .job j)) :
    q.contents.Perm (j :: q'.contents) ∧ (∀ id, id ∈ q'.active ↔ id = j.id ∨ id ∈ q.active) ∧
      q'.finished = q.finished := by
  rcases q.next_cases now cancelled with
    ⟨-, hn⟩ | ⟨-, -, ⟨-, hn⟩ | ⟨i, rest, -, hw, hn⟩⟩ <;> rw [hn] at h
  · cases h
  · cases h
  · cases h
    refine ⟨(q.contents_promote now).symm.trans ?_, fun id => ?_, rfl⟩
    · show ((q.promote now).waiting ++ (q.promote now).delayed.map Prod.snd).Perm _
      rw [hw]
      exact .refl _
    · show id ∈ (if j.id ∈ q.active then q.active else q.active ++ [j.id]) ↔
        id = j.id ∨ id ∈ q.active
      split
      · next hm => exact ⟨.inr, fun h => h.elim (fun e => e ▸ hm) fun h => h⟩
      · simp [or_comm]

/-- A queue that hands out nothing keeps its contents. -/
theorem contents_next_of_no_job {q : JobQueue} {now : Time} {cancelled : Bool}
    (h : ∀ j, (q.next now cancelled).2 ≠ .job j) :
    (q.next now cancelled).1.contents.Perm q.contents ∧
      (q.next now cancelled).1.active = q.active ∧
      (q.next now cancelled).1.finished = q.finished := by
  rcases q.next_cases now cancelled with
    ⟨-, hn⟩ | ⟨-, -, ⟨-, hn⟩ | ⟨i, rest, -, hw, hn⟩⟩ <;> rw [hn] at h ⊢
  · exact ⟨.refl _, rfl, rfl⟩
  · exact ⟨q.contents_promote now, rfl, rfl⟩
  · exact absurd rfl (h i)

/-! ## Giving up a job -/

theorem mem_active_complete (q : JobQueue) (now : Time) (j : Job) (id : JobId) :
    id ∈ (q.complete now j).active ↔ id ∈ q.active ∧ id ≠ j.id := by
  simp [complete]

theorem mem_active_release (q : JobQueue) (i id : JobId) :
    id ∈ (q.release i).active ↔ id ∈ q.active ∧ id ≠ i := by
  simp [release]

/-- Draining only takes jobs out. -/
theorem contents_drain (q : JobQueue) (force : Bool) :
    (q.drain force).1.contents.Sublist q.contents := by
  show (([] : List Job) ++ (if force then [] else q.delayed).map Prod.snd).Sublist _
  rw [List.nil_append]
  split
  · exact List.nil_sublist _
  · exact List.sublist_append_right _ _

end JobQueue

/-! ## The three queues -/

namespace QueueSet

theorem get_set (s : QueueSet) (n m : QueueName) (q : JobQueue) :
    (s.set n q).get m = if m = n then q else s.get m := by
  cases n <;> cases m <;> rfl

theorem allIdle_iff (s : QueueSet) : s.allIdle = true ↔ ∀ n, (s.get n).isIdle = true := by
  simp only [allIdle, QueueName.all, List.all_cons, List.all_nil, Bool.and_true, Bool.and_eq_true]
  constructor
  · rintro ⟨hr, hh, hs⟩ n
    cases n with
    | run => exact hr
    | healing => exact hh
    | security => exact hs
  · intro h
    exact ⟨h .run, h .healing, h .security⟩

end QueueSet

namespace QueueHall

/-- Adding a job replaces one queue. -/
theorem queues_of_add? {h h' : QueueHall} {n : QueueName} {j : Job} (ha : h.add? n j = some h') :
    ∃ q, (h.queues.get n).add? h.now j = some q ∧ h'.queues = h.queues.set n q := by
  unfold add? at ha
  obtain ⟨q, hq, rfl⟩ := Option.map_eq_some_iff.mp ha
  exact ⟨q, hq, rfl⟩

theorem add?_eq_none_iff (h : QueueHall) (n : QueueName) (j : Job) :
    h.add? n j = none ↔ (h.queues.get n).closed = true := by
  unfold add?
  rw [Option.map_eq_none_iff, JobQueue.add?_eq_none_iff]

/-- Who asks is told that nothing comes any more, gets a job, or is parked. -/
theorem attend_cases (h : QueueHall) (who : Nat) (n : QueueName) (token : Nat) :
    ((h.ask n token).2 = .ended ∧ h.attend who n token = ((h.ask n token).1, some none)) ∨
    (∃ j, (h.ask n token).2 = .job j ∧
      h.attend who n token = ((h.ask n token).1, some (some j))) ∨
    ∃ deadline, (h.ask n token).2 = .wait deadline ∧
      h.attend who n token = ({ (h.ask n token).1 with
        parked := h.parked ++ [{ who, queue := n, token, deadline }] }, none) := by
  have hparked : (h.ask n token).1.parked = h.parked := rfl
  unfold attend
  split
  · next he => exact .inl ⟨by rw [he], by rw [he]⟩
  · next j he => exact .inr (.inl ⟨j, by rw [he], by rw [he]⟩)
  · next deadline he =>
    rw [he] at hparked
    exact .inr (.inr ⟨deadline, by rw [he], by rw [he, ← hparked]⟩)

end QueueHall

end Testplan
