import Mathlib.Data.List.TakeWhile
import Testplan.Proofs.QueueContents
/-!
# No wake-up is lost

Who is parked at a queue sleeps until the queue signals news, the deadline comes or the
token is cancelled.  Not every change is news: who asks for a job promotes delayed jobs and
tells nobody, and pausing and draining signal nothing.  Still nobody sleeps beside a job
that could be handed out (`QueueHall.no_lost_wakeup`).

What carries this is a relation between a deadline and the queue (`JobQueue.Rests`): the
queue is not closed, no delayed job is due before the deadline, and there is no waiting job
unless the queue is paused or the deadline has come.  The last case is the one where
somebody else promoted a job: it was due, so the deadline was not after it.
-/
namespace Testplan

namespace JobQueue

/-- **Something would come of asking**: a job is at hand, or there will be none. -/
def Dispatchable (q : JobQueue) (now : Time) : Prop :=
  q.closed = true ∨
    q.paused = false ∧ (q.waiting ≠ [] ∨ ∃ d ∈ q.delayed, d.1 ≤ now)

/-- **Nothing would come of asking before the deadline.** -/
structure Rests (q : JobQueue) (now deadline : Time) : Prop where
  opened : q.closed = false
  delayed : ∀ d ∈ q.delayed, deadline ≤ d.1
  waiting : q.paused = true ∨ q.waiting = [] ∨ deadline ≤ now

variable {q q' : JobQueue} {now deadline : Time}

/-- A queue that rests has something to hand out only from the deadline on. -/
theorem Rests.due (h : q.Rests now deadline) (hd : q.Dispatchable now) : deadline ≤ now := by
  rcases hd with hc | ⟨hp, hw | ⟨d, hm, hdue⟩⟩
  · rw [h.opened] at hc
    cases hc
  · rcases h.waiting with hp' | hw' | hle
    · rw [hp] at hp'
      cases hp'
    · exact absurd hw' hw
    · exact hle
  · exact Nat.le_trans (h.delayed d hm) hdue

theorem Rests.later (h : q.Rests now deadline) {now' : Time} (hle : now ≤ now') :
    q.Rests now' deadline where
  opened := h.opened
  delayed := h.delayed
  waiting := h.waiting.imp_right fun hw => hw.imp_right fun hd => Nat.le_trans hd hle

/-- A change that adds nothing. -/
theorem Rests.of_fewer (h : q.Rests now deadline) (hc : q'.closed = q.closed)
    (hd : ∀ d ∈ q'.delayed, d ∈ q.delayed)
    (hw : q'.paused = true ∨ q'.waiting = [] ∨
      q'.paused = q.paused ∧ q'.waiting = q.waiting) : q'.Rests now deadline where
  opened := hc.trans h.opened
  delayed d hm := h.delayed d (hd d hm)
  waiting := by
    rcases hw with hp | hw | ⟨hp, hw⟩
    · exact .inl hp
    · exact .inr (.inl hw)
    · rw [hp, hw]
      exact h.waiting

/-! ## Promotion -/

/-- The delayed jobs by their times. -/
theorem pairwise_inOrder (q : JobQueue) :
    (q.delayed.mergeSort fun a b => a.1 ≤ b.1).Pairwise fun a b => a.1 ≤ b.1 := by
  have h : (q.delayed.mergeSort fun a b => a.1 ≤ b.1).Pairwise
      fun a b => decide (a.1 ≤ b.1) = true := List.pairwise_mergeSort
    (fun a b c hab hbc => by
      rw [decide_eq_true_eq] at hab hbc ⊢
      exact Nat.le_trans hab hbc)
    (fun a b => by
      rw [Bool.or_eq_true, decide_eq_true_eq, decide_eq_true_eq]
      exact Nat.le_total a.1 b.1) q.delayed
  exact h.imp fun hab => of_decide_eq_true hab

theorem pairwise_delayed_promote (q : JobQueue) (now : Time) :
    (q.promote now).delayed.Pairwise fun a b => a.1 ≤ b.1 :=
  q.pairwise_inOrder.sublist (List.dropWhile_sublist _)

theorem mem_delayed_of_promote {d : Time × Job} (h : d ∈ (q.promote now).delayed) :
    d ∈ q.delayed :=
  (List.mergeSort_perm _ _).mem_iff.mp ((List.dropWhile_sublist _).subset h)

/-- What waits after a promotion waited before, or something was due. -/
theorem waiting_promote (q : JobQueue) (now : Time) :
    (q.promote now).waiting = q.waiting ∨ ∃ d ∈ q.delayed, d.1 ≤ now := by
  cases hdue : (q.delayed.mergeSort fun a b => a.1 ≤ b.1).takeWhile fun d => d.1 ≤ now with
  | nil =>
    left
    rw [promote, hdue]
    exact List.append_nil _
  | cons d rest =>
    right
    have hm : d ∈ (q.delayed.mergeSort fun a b => a.1 ≤ b.1).takeWhile fun d => d.1 ≤ now := by
      rw [hdue]
      exact List.mem_cons_self
    exact ⟨d, (List.mergeSort_perm _ _).mem_iff.mp ((List.takeWhile_sublist _).subset hm),
      by simpa using List.mem_takeWhile_imp hm⟩

theorem Rests.promote (h : q.Rests now deadline) : (q.promote now).Rests now deadline where
  opened := h.opened
  delayed d hm := h.delayed d (mem_delayed_of_promote hm)
  waiting := by
    rcases q.waiting_promote now with hw | ⟨d, hm, hdue⟩
    · rw [hw]
      exact h.waiting
    · exact .inr (.inr (Nat.le_trans (h.delayed d hm) hdue))

/-- Who asks may leave jobs that nobody was told of, but only after the deadlines of the
others. -/
theorem Rests.next (h : q.Rests now deadline) (cancelled : Bool) :
    (q.next now cancelled).1.Rests now deadline := by
  rcases q.next_cases now cancelled with
    ⟨-, hn⟩ | ⟨-, -, ⟨-, hn⟩ | ⟨j, rest, hp, hw, hn⟩⟩ <;> rw [hn]
  · exact h
  · exact h.promote
  · have hr := h.promote
    have hdispatchable : (q.promote now).Dispatchable now :=
      .inr ⟨hp, .inl (by rw [hw]; exact List.cons_ne_nil _ _)⟩
    exact { hr with waiting := .inr (.inr (hr.due hdispatchable)) }

/-! ## Deadlines -/

/-- The deadline lies ahead: what was due is no longer delayed. -/
theorem lt_deadline_promote (q : JobQueue) (now : Time) :
    now < (q.promote now).deadline now := by
  unfold deadline
  cases hd : (q.promote now).delayed with
  | nil => exact Nat.lt_add_of_pos_right (by decide)
  | cons d rest =>
    have hhead := List.head?_dropWhile_not (fun d : Time × Job => decide (d.1 ≤ now))
      (q.delayed.mergeSort fun a b => a.1 ≤ b.1)
    rw [show List.dropWhile _ _ = d :: rest from hd] at hhead
    exact Nat.lt_of_not_le (of_decide_eq_false hhead)

/-- **The deadline is right**: nothing would come of asking before it. -/
theorem rests_of_wait {cancelled : Bool} (h : q.next now cancelled = (q', .wait deadline)) :
    q'.Rests now deadline ∧ now < deadline ∧ cancelled = false := by
  rcases q.next_cases now cancelled with
    ⟨-, hn⟩ | ⟨hcancelled, hclosed, ⟨hw, hn⟩ | ⟨j, rest, -, -, hn⟩⟩ <;> rw [hn] at h
  · cases h
  · cases h
    refine ⟨⟨hclosed, fun d hm => ?_, ?_⟩, q.lt_deadline_promote now, hcancelled⟩
    · have hsorted := q.pairwise_delayed_promote now
      unfold JobQueue.deadline
      cases hd : (q.promote now).delayed with
      | nil =>
        rw [hd] at hm
        cases hm
      | cons first rest =>
        rw [hd] at hm hsorted
        rcases List.mem_cons.mp hm with rfl | hm
        · exact Nat.le_refl _
        · exact List.rel_of_pairwise_cons hsorted hm
    · exact hw.imp_right .inl
  · cases h

end JobQueue

/-! ## The hall -/

/-- A standstill is one of each queue. -/
theorem QueueSet.get_halt (s : QueueSet) (now : Time) (n : QueueName) :
    (s.halt now).1.get n = (haltOne (s.get n) now).1 := by
  cases n <;> rfl

namespace QueueHall

/-- **What can happen in the hall**, by anybody and in any order. -/
inductive Step : QueueHall → QueueHall → Prop
  | add {h h' : QueueHall} {n : QueueName} {j : Job} (added : h.add? n j = some h') : Step h h'
  /-- Somebody comes to a queue, with any token. -/
  | attend (h : QueueHall) (who : Nat) (n : QueueName) (token : Nat) :
    Step h (h.attend who n token).1
  /-- One who can ask again does so. -/
  | wake {h : QueueHall} {before after : List Waiter} {w : Waiter}
      (parked : h.parked = before ++ w :: after) (ready : h.isRunnable w = true) :
    Step h ({ h with parked := before ++ after }.attend w.who w.queue w.token).1
  /-- One who waits goes away. -/
  | leave {h : QueueHall} {before after : List Waiter} {w : Waiter}
      (parked : h.parked = before ++ w :: after) : Step h { h with parked := before ++ after }
  | pause (h : QueueHall) (n : QueueName) : Step h (h.modify n JobQueue.pause)
  | resume (h : QueueHall) (n : QueueName) : Step h (h.resume n)
  | drain (h : QueueHall) (n : QueueName) (force : Bool) :
    Step h (h.modify n fun q => (q.drain force).1)
  | close (h : QueueHall) (n : QueueName) : Step h (h.close n)
  | complete (h : QueueHall) (n : QueueName) (j : Job) : Step h (h.modify n (·.complete h.now j))
  | release (h : QueueHall) (n : QueueName) (id : JobId) : Step h (h.modify n (·.release id))
  | clean (h : QueueHall) (n : QueueName) (grace : Time) (limit : Nat) (status : CleanStatus) :
    Step h (h.modify n fun q => (q.clean h.now grace limit status).1)
  | halt (h : QueueHall) : Step h h.halt.1
  | cancel (h : QueueHall) (token : Nat) : Step h { h with cancelled := token :: h.cancelled }
  | renew (h : QueueHall) : Step h h.renew
  | advance (h : QueueHall) (ms : Time) : Step h (h.advance ms)

/-- **What can be reached** from empty queues. -/
inductive Reachable (s : QueuesSettings) : QueueHall → Prop
  | start : Reachable s (ofSettings s)
  | step {h h' : QueueHall} (reached : Reachable s h) (step : Step h h') : Reachable s h'

/-- **Nobody was forgotten**: who is parked was signalled news, or the queue rests until
the deadline. -/
def Attentive (h : QueueHall) : Prop :=
  ∀ w ∈ h.parked, w.signalled = true ∨ (h.queues.get w.queue).Rests h.now w.deadline

variable {h h' : QueueHall}

theorem Attentive.of_fewer_waiters (ha : h.Attentive) {parked : List Waiter}
    (hsub : ∀ w ∈ parked, w ∈ h.parked) : { h with parked }.Attentive :=
  fun w hw => ha w (hsub w hw)

/-- A change of one queue. -/
theorem Attentive.set (ha : h.Attentive) {n : QueueName} {q : JobQueue}
    (hq : ∀ deadline, (h.queues.get n).Rests h.now deadline → q.Rests h.now deadline) :
    { h with queues := h.queues.set n q }.Attentive := by
  intro w hw
  refine (ha w hw).imp_right fun hr => ?_
  rw [QueueSet.get_set]
  split
  · next hn =>
    rw [hn] at hr
    exact hq _ hr
  · exact hr

/-- A change of one queue that is signalled. -/
theorem Attentive.set_signal (ha : h.Attentive) (n : QueueName) (q : JobQueue) :
    ({ h with queues := h.queues.set n q }.signal n).Attentive := by
  intro w hw
  obtain ⟨v, hv, rfl⟩ := List.mem_map.mp hw
  by_cases hn : v.queue = n
  · left
    rw [if_pos hn]
  · rw [if_neg hn]
    refine (ha v hv).imp_right fun hr => ?_
    show ((h.queues.set n q).get v.queue).Rests h.now v.deadline
    rw [QueueSet.get_set, if_neg hn]
    exact hr

theorem Attentive.ask (ha : h.Attentive) (n : QueueName) (token : Nat) :
    (h.ask n token).1.Attentive :=
  ha.set fun _ hr => hr.next _

/-- Who comes and finds nothing is parked at a queue that rests. -/
theorem Attentive.attend (ha : h.Attentive) (who : Nat) (n : QueueName) (token : Nat) :
    (h.attend who n token).1.Attentive := by
  have hask := ha.ask n token
  rcases h.attend_cases who n token with ⟨-, he⟩ | ⟨j, -, he⟩ | ⟨deadline, hn, he⟩ <;> rw [he]
  · exact hask
  · exact hask
  · intro w hw
    rcases List.mem_append.mp hw with hw | hw
    · exact hask w hw
    · right
      rw [List.eq_of_mem_singleton hw]
      show ((h.queues.set n _).get n).Rests h.now deadline
      rw [QueueSet.get_set, if_pos rfl]
      have hn : ((h.queues.get n).next h.now (token ∈ h.cancelled)).2 = .wait deadline := hn
      exact (JobQueue.rests_of_wait (Prod.ext rfl hn)).1

theorem Attentive.step (ha : h.Attentive) (hs : Step h h') : h'.Attentive := by
  cases hs with
  | add added =>
    obtain ⟨q, -, rfl⟩ := Option.map_eq_some_iff.mp added
    exact ha.set_signal _ q
  | attend who n token => exact ha.attend who n token
  | wake parked ready =>
    refine Attentive.attend (ha.of_fewer_waiters fun v hv => ?_) _ _ _
    rw [parked]
    exact (List.sublist_cons_self ..).append_left _ |>.subset hv
  | leave parked =>
    refine ha.of_fewer_waiters fun v hv => ?_
    rw [parked]
    exact (List.sublist_cons_self ..).append_left _ |>.subset hv
  | pause n => exact ha.set fun _ hr => hr.of_fewer rfl (fun _ hd => hd) (.inl rfl)
  | resume n => exact ha.set_signal n _
  | drain n force =>
    refine ha.set fun _ hr => hr.of_fewer rfl (fun d hd => ?_) (.inr (.inl rfl))
    cases force with
    | true => cases hd
    | false => exact hd
  | close n => exact ha.set_signal n _
  | complete n j =>
    exact ha.set fun _ hr => hr.of_fewer rfl (fun _ hd => hd) (.inr (.inr ⟨rfl, rfl⟩))
  | release n id =>
    exact ha.set fun _ hr => hr.of_fewer rfl (fun _ hd => hd) (.inr (.inr ⟨rfl, rfl⟩))
  | clean n grace limit status =>
    exact ha.set fun _ hr => hr.of_fewer rfl (fun _ hd => hd) (.inr (.inr ⟨rfl, rfl⟩))
  | halt =>
    intro w hw
    refine (ha w hw).imp_right fun hr => ?_
    show (((h.queues.halt h.now).1).get w.queue).Rests h.now w.deadline
    rw [QueueSet.get_halt]
    exact hr.of_fewer rfl (fun _ hd => absurd hd List.not_mem_nil) (.inl rfl)
  | cancel token => exact ha
  | renew => exact ha
  | advance ms => exact fun w hw => (ha w hw).imp_right fun hr => hr.later (Nat.le_add_right _ _)

theorem Reachable.attentive {s : QueuesSettings} (hr : Reachable s h) : h.Attentive := by
  induction hr with
  | start => exact fun w hw => absurd hw List.not_mem_nil
  | step _ hs ih => exact ih.step hs

/-- Who is parked at a queue with something to hand out can ask again. -/
theorem Attentive.isRunnable (ha : h.Attentive) {w : Waiter} (hw : w ∈ h.parked)
    (hd : (h.queues.get w.queue).Dispatchable h.now) : h.isRunnable w = true := by
  unfold QueueHall.isRunnable
  rcases ha w hw with hsig | hr
  · rw [hsig]
    rfl
  · rw [decide_eq_true (hr.due hd), Bool.or_true]
    rfl

/-! ## Letting everybody run -/

/-- Who was parked by coming has a deadline ahead, no news and a token in force. -/
theorem parked_attend (h : QueueHall) (who : Nat) (n : QueueName) (token : Nat) :
    (h.attend who n token).1.now = h.now ∧ (h.attend who n token).1.cancelled = h.cancelled ∧
      ∀ w ∈ (h.attend who n token).1.parked,
        w ∈ h.parked ∨ h.isRunnable w = false := by
  rcases h.attend_cases who n token with ⟨-, he⟩ | ⟨j, -, he⟩ | ⟨deadline, hn, he⟩ <;> rw [he]
  · exact ⟨rfl, rfl, fun w hw => .inl hw⟩
  · exact ⟨rfl, rfl, fun w hw => .inl hw⟩
  · refine ⟨rfl, rfl, fun w hw => ?_⟩
    rcases List.mem_append.mp hw with hw | hw
    · exact .inl hw
    · right
      have hn : ((h.queues.get n).next h.now (token ∈ h.cancelled)).2 = .wait deadline := hn
      obtain ⟨-, hlt, hcancelled⟩ := JobQueue.rests_of_wait (Prod.ext rfl hn)
      rw [List.eq_of_mem_singleton hw, isRunnable, hcancelled, Bool.or_false, Bool.false_or]
      exact decide_eq_false (Nat.not_le_of_lt hlt)

theorem parked_attendAll (h : QueueHall) (l : List Waiter) :
    (h.attendAll l).1.now = h.now ∧ (h.attendAll l).1.cancelled = h.cancelled ∧
      ∀ w ∈ (h.attendAll l).1.parked, w ∈ h.parked ∨ h.isRunnable w = false := by
  induction l generalizing h with
  | nil => exact ⟨rfl, rfl, fun w hw => .inl hw⟩
  | cons v rest ih =>
    obtain ⟨hnow, hcancelled, hparked⟩ := h.parked_attend v.who v.queue v.token
    obtain ⟨inow, icancelled, iparked⟩ := ih (h.attend v.who v.queue v.token).1
    refine ⟨inow.trans hnow, icancelled.trans hcancelled, fun w hw => ?_⟩
    rcases iparked w hw with hw | hw
    · exact hparked w hw
    · right
      rwa [isRunnable, hnow, hcancelled] at hw

/-- Once all who can ask again have asked, nobody can. -/
theorem isRunnable_settle (h : QueueHall) :
    ∀ w ∈ h.settle.1.parked, h.settle.1.isRunnable w = false := by
  intro w hw
  let rest : QueueHall := { h with parked := (h.parked.partition h.isRunnable).2 }
  have hsettle : h.settle.1 = (rest.attendAll (h.parked.partition h.isRunnable).1).1 := rfl
  obtain ⟨hnow, hcancelled, hparked⟩ :=
    rest.parked_attendAll (h.parked.partition h.isRunnable).1
  rw [← hsettle] at hnow hcancelled hparked
  have same : h.settle.1.isRunnable w = h.isRunnable w := by
    rw [isRunnable, hnow, hcancelled]
    rfl
  rw [same]
  rcases hparked w hw with hw | hw
  · have hw : w ∈ (h.parked.partition h.isRunnable).2 := hw
    rw [List.partition_eq_filter_filter] at hw
    simpa using (List.mem_filter.mp hw).2
  · exact hw

theorem Reachable.leave {s : QueuesSettings} {before kept all : List Waiter}
    (hsub : kept.Sublist all) (hr : Reachable s { h with parked := before ++ all }) :
    Reachable s { h with parked := before ++ kept } := by
  induction hsub generalizing before with
  | slnil => exact hr
  | cons w _ ih => exact ih (hr.step (.leave rfl))
  | @cons_cons kept all w _ ih =>
    have hfirst : Reachable s { h with parked := (before ++ [w]) ++ all } := by simpa using hr
    simpa using ih hfirst

theorem Reachable.attendAll {s : QueuesSettings} (hr : Reachable s h) (l : List Waiter) :
    Reachable s (h.attendAll l).1 := by
  induction l generalizing h with
  | nil => exact hr
  | cons w rest ih => exact ih (hr.step (.attend h w.who w.queue w.token))

theorem Reachable.settle {s : QueuesSettings} (hr : Reachable s h) : Reachable s h.settle.1 := by
  have hsub : (h.parked.partition h.isRunnable).2.Sublist h.parked := by
    rw [List.partition_eq_filter_filter]
    exact List.filter_sublist
  have hall : Reachable s { h with parked := [] ++ h.parked } := hr
  exact (hall.leave hsub).attendAll _

/-- **No wake-up is lost.**  Whatever happened before: if a queue is closed, or has a job to
hand out, then all who are parked at it can ask again.  So when nobody can ask again,
nobody is parked at such a queue; and that is so once all who can ask again have asked. -/
theorem no_lost_wakeup {s : QueuesSettings} {h : QueueHall} (hr : Reachable s h) :
    (∀ w ∈ h.parked, (h.queues.get w.queue).Dispatchable h.now → h.isRunnable w = true) ∧
    ((∀ w ∈ h.parked, h.isRunnable w = false) →
      ∀ w ∈ h.parked, ¬ (h.queues.get w.queue).Dispatchable h.now) ∧
    (Reachable s h.settle.1 ∧ (∀ w ∈ h.settle.1.parked, h.settle.1.isRunnable w = false) ∧
      ∀ w ∈ h.settle.1.parked,
        ¬ (h.settle.1.queues.get w.queue).Dispatchable h.settle.1.now) := by
  have quiet {g : QueueHall} (hg : Reachable s g)
      (hnone : ∀ w ∈ g.parked, g.isRunnable w = false) :
      ∀ w ∈ g.parked, ¬ (g.queues.get w.queue).Dispatchable g.now := by
    intro w hw hd
    have hrun := hg.attentive.isRunnable hw hd
    rw [hnone w hw] at hrun
    cases hrun
  exact ⟨fun w hw => hr.attentive.isRunnable hw, quiet hr, hr.settle, h.isRunnable_settle,
    quiet hr.settle h.isRunnable_settle⟩

/-- One who waits for an hour is woken when a job is added. -/
theorem woken_by_addition : ∃ h, Reachable {} h ∧ ∃ w ∈ h.parked,
    (h.queues.get w.queue).Dispatchable h.now ∧ h.now < w.deadline ∧ h.isRunnable w = true := by
  let j : Job := { id := default, plan := default, framework := "playwright-ts", queue := .run }
  let w : Waiter := ⟨0, .run, 0, JobQueue.longestWait, false⟩
  let queues : QueueSet := .ofSettings {}
  have hsleep : ((ofSettings {}).attend 0 .run 0).1 = { ofSettings {} with parked := [w] } := by
    simp [attend, ask, JobQueue.next, JobQueue.promote, JobQueue.deadline, QueueSet.get,
      QueueSet.set, ofSettings, QueueSet.ofSettings, w]
  let awake : QueueHall :=
    { queues := { queues with run := { queues.run with waiting := [j] } }
      parked := [{ w with signalled := true }] }
  have hadd : { ofSettings {} with parked := [w] }.add? .run j = some awake := by
    simp [add?, JobQueue.add?, JobQueue.delay, signal, QueueSet.get, QueueSet.set, ofSettings,
      QueueSet.ofSettings, w, awake, queues]
  have hr : Reachable {} awake := by
    have h := Reachable.start.step (.attend (ofSettings {}) 0 .run 0)
    rw [hsleep] at h
    exact h.step (.add hadd)
  have hd : (awake.queues.get .run).Dispatchable awake.now :=
    .inr ⟨rfl, .inl (List.cons_ne_nil _ _)⟩
  have hw : { w with signalled := true } ∈ awake.parked := List.mem_singleton.mpr rfl
  exact ⟨awake, hr, _, hw, hd, by decide, (no_lost_wakeup hr).1 _ hw hd⟩

end QueueHall

end Testplan
