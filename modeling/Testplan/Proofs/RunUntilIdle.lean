import Mathlib.Data.List.Basic
import Testplan.Proofs.Standstill
/-!
# Runs of a pool of workers

A `WorkerPool` has a clock: its workers wait in seats at the queues until somebody signals
news or a deadline comes, and many of them may be answered in one turn.  Each turn is a
number of steps of a service (`WorkerPool.Follows.turn`), so a run of the pool is a run of
the service (`Orchestrator.exists_run`), and what a service leaves behind when its run
returns is what `Orchestrator.runUntilIdle` leaves behind
(`Service.Reachable.run_atRest_iff`).

What connects the two are the seats: who is parked asks for a job, at the queue and with the
token of the seat, and nobody has two seats (`Service.Seated`).
-/
namespace Testplan

namespace Service

variable {v : Service} {o o' : Orchestrator} {as : List Attendant} {b : Bool} {token i : Nat}
  {l l' : List Waiter}

/-! ## Seats -/

/-- **Those who wait ask**, and each of them once. -/
structure Seated (token : Nat) (as : List Attendant) (l : List Waiter) : Prop where
  asks : ∀ w ∈ l, w.token = token ∧ as[w.who]? = some ⟨w.queue, .asking⟩
  once : (l.map Waiter.who).Nodup

theorem Seated.of_seats (h : Seated token as l)
    (hs : (l'.map Waiter.seat).Perm (l.map Waiter.seat)) : Seated token as l' := by
  constructor
  · intro w hw
    obtain ⟨u, hu, he⟩ := List.mem_map.mp (hs.mem_iff.mp (List.mem_map_of_mem hw))
    obtain ⟨hwho, hqueue, htoken⟩ : u.who = w.who ∧ u.queue = w.queue ∧ u.token = w.token := by
      simpa [Waiter.seat] using he
    rw [← hwho, ← hqueue, ← htoken]
    exact h.asks u hu
  · have hwho := hs.map Prod.fst
    rw [List.map_map, List.map_map] at hwho
    exact hwho.nodup_iff.mpr h.once

/-- Whoever does not wait may do something else. -/
theorem Seated.set (h : Seated token as l) (hi : i ∉ l.map Waiter.who) (y : Attendant) :
    Seated token (as.set i y) l := by
  refine ⟨fun w hw => ⟨(h.asks w hw).1, ?_⟩, h.once⟩
  have hne : i ≠ w.who := by
    rintro rfl
    exact hi (List.mem_map_of_mem hw)
  rw [List.getElem?_set_ne hne]
  exact (h.asks w hw).2

theorem Seated.not_mem (h : Seated token as l) {x : Attendant} (hx : as[i]? = some x)
    (hd : x.duty ≠ .asking) : i ∉ l.map Waiter.who := by
  intro hi
  obtain ⟨w, hw, rfl⟩ := List.mem_map.mp hi
  have hsame := (h.asks w hw).2
  rw [hx] at hsame
  exact hd (by rw [Option.some.inj hsame])

/-! ## A run that is underway -/

theorem set_self {x : Attendant} (hx : as[i]? = some x) : as.set i x = as := by
  obtain ⟨hlt, rfl⟩ := List.getElem?_eq_some_iff.mp hx
  exact List.set_getElem_self hlt

/-- **The run that began in `v` is underway**: those of `l` and those that are parked wait. -/
structure Underway (v : Service) (o : Orchestrator) (as : List Attendant) (b : Bool)
    (l : List Waiter) : Prop where
  run : Run v ⟨o, as, true, b, v.requests, v.dropped, v.stranded⟩
  seated : Seated o.hall.token as (l ++ o.hall.parked)

namespace Underway

/-- Time passes, the files of the host change, and those who wait change their places. -/
theorem pass (h : Underway v o as b l) (host : Host) (now : Time) {parked : List Waiter}
    (hs : ((l' ++ parked).map Waiter.seat).Perm ((l ++ o.hall.parked).map Waiter.seat)) :
    Underway v { o with host, hall := { o.hall with now, parked } } as b l' :=
  ⟨h.run.step (.pass host now parked nofun) rfl, h.seated.of_seats hs⟩

/-- A worker takes a step. -/
theorem set {x y : Attendant} (h : Underway v o as b l) (hx : as[i]? = some x)
    (hi : i ∉ (l ++ o.hall.parked).map Waiter.who)
    (hs : ∀ left right rs ds ss, Step ⟨o, left ++ x :: right, true, b, rs, ds, ss⟩
      ⟨o', left ++ y :: right, true, b, rs, ds, ss⟩)
    (hhall : o.hall.SameService o'.hall) : Underway v o' (as.set i y) b l := by
  have hlt := (List.getElem?_eq_some_iff.mp hx).1
  have hsplit (z : Attendant) : as.set i z = as.take i ++ z :: as.drop (i + 1) := by
    rw [List.set_eq_take_append_cons_drop, if_pos hlt]
  constructor
  · have hrun := h.run
    rw [← set_self hx, hsplit] at hrun
    rw [hsplit]
    exact hrun.step (hs _ _ _ _ _) rfl
  · rw [hhall.token]
    refine (h.seated.set hi y).of_seats ?_
    rw [List.map_append, List.map_append, hhall.seats]

end Underway

end Service

/-- Somebody whose wait is over. -/
def Attendant.told (a : Attendant) (job : Option Job) : Attendant :=
  { a with duty := match job with
    | none => .off
    | some j => .taken j }

namespace Service

variable {v : Service} {o : Orchestrator} {as : List Attendant} {b : Bool} {i : Nat}
  {l : List Waiter}

/-- The workers when a number of waits are over. -/
def answered (as : List Attendant) (outcomes : List (Nat × Option Job)) : List Attendant :=
  outcomes.foldl (fun as e => as.modify e.1 fun a => a.told e.2) as

theorem answered_append (as : List Attendant) (os ps : List (Nat × Option Job)) :
    answered as (os ++ ps) = answered (answered as os) ps := List.foldl_append

theorem answered_single {x : Attendant} (hx : as[i]? = some x) (job : Option Job) :
    answered as [(i, job)] = as.set i (x.told job) := by
  show as.modify i (fun a => a.told job) = _
  rw [List.modify_eq_set_getElem?, hx]
  rfl

/-- Answers to others do not matter to a worker. -/
theorem answered_set (y : Attendant) {os : List (Nat × Option Job)} (hi : i ∉ os.map Prod.fst) :
    answered (as.set i y) os = (answered as os).set i y := by
  induction os generalizing as with
  | nil => rfl
  | cons e rest ih =>
    rw [List.map_cons, List.mem_cons, not_or] at hi
    show answered ((as.set i y).modify e.1 _) rest = (answered (as.modify e.1 _) rest).set i y
    rw [← ih hi.2]
    congr 1
    refine List.ext_getElem? fun k => ?_
    simp only [List.getElem?_modify, List.getElem?_set, List.length_modify]
    by_cases hk : i = k
    · subst hk
      simp [Ne.symm hi.1]
    · simp [hk]

theorem getElem?_answered {os : List (Nat × Option Job)} (hi : i ∉ os.map Prod.fst) :
    (answered as os)[i]? = as[i]? := by
  induction os generalizing as with
  | nil => rfl
  | cons e rest ih =>
    rw [List.map_cons, List.mem_cons, not_or] at hi
    show (answered (as.modify e.1 _) rest)[i]? = _
    rw [ih hi.2, List.getElem?_modify]
    simp [Ne.symm hi.1]

namespace Underway

/-- **Somebody asks for a job** and waits if there is none. -/
theorem attend {n : QueueName} (h : Underway v o as b l) (hx : as[i]? = some ⟨n, .asking⟩)
    (hi : i ∉ (l ++ o.hall.parked).map Waiter.who) :
    Underway v { o with hall := (o.hall.attend i n o.hall.token).1 }
      (answered as ((o.hall.attend i n o.hall.token).2.map fun e => (i, e)).toList) b l := by
  rcases o.hall.attend_cases i n o.hall.token with
    ⟨ht, he⟩ | ⟨j, ht, he⟩ | ⟨deadline, ht, he⟩ <;> rw [he]
  · show Underway v _ (answered as [(i, none)]) b l
    rw [answered_single hx]
    exact h.set hx hi (fun _ _ _ _ _ => .leave ht) (o.hall.sameService_ask n _)
  · show Underway v _ (answered as [(i, some j)]) b l
    rw [answered_single hx]
    exact h.set hx hi (fun _ _ _ _ _ => .take ht) (o.hall.sameService_ask n _)
  · have hasked := h.set hx hi (fun _ _ _ _ _ => .wait ht) (o.hall.sameService_ask n _)
    rw [set_self hx] at hasked
    refine ⟨hasked.run.step (.pass _ _ _ nofun) rfl, ?_⟩
    -- the new seat is the seat of somebody who asks and has no other
    have hone : Seated o.hall.token as
        ({ who := i, queue := n, token := o.hall.token, deadline } :: (l ++ o.hall.parked)) := by
      refine ⟨List.forall_mem_cons.mpr ⟨⟨rfl, hx⟩, h.seated.asks⟩, ?_⟩
      exact List.nodup_cons.mpr ⟨hi, h.seated.once⟩
    refine hone.of_seats (List.Perm.map _ ?_)
    show (l ++ (o.hall.parked ++ [_])).Perm _
    rw [← List.append_assoc]
    exact List.perm_append_singleton _ _

/-- A number of those who wait ask again, one after the other. -/
theorem attendAll (h : Underway v o as b l) :
    Underway v { o with hall := (o.hall.attendAll l).1 } (answered as (o.hall.attendAll l).2) b
      [] := by
  induction l generalizing o as with
  | nil => exact h
  | cons w rest ih =>
    obtain ⟨htoken, hx⟩ := h.seated.asks w List.mem_cons_self
    obtain ⟨hi, honce⟩ := List.nodup_cons.mp h.seated.once
    have hrest : Underway v o as b rest :=
      ⟨h.run, fun u hu => h.seated.asks u (List.mem_cons_of_mem _ hu), honce⟩
    have hattended := hrest.attend hx hi
    rw [← htoken] at hattended
    have := ih hattended
    rwa [← answered_append] at this

/-- **All who can ask again do so.** -/
theorem settle (h : Underway v o as b []) :
    Underway v { o with hall := o.hall.settle.1 } (answered as o.hall.settle.2) b [] := by
  have hparted : Underway v { o with hall := { o.hall with
      parked := (o.hall.parked.partition o.hall.isRunnable).2 } } as b
      (o.hall.parked.partition o.hall.isRunnable).1 := by
    refine h.pass o.host o.hall.now (List.Perm.map _ ?_)
    rw [List.partition_eq_filter_filter]
    exact List.filter_append_perm _ _
  exact hparted.attendAll

end Underway

end Service

/-- Who asked again is one of those who did. -/
theorem QueueHall.fst_attendAll (h : QueueHall) (l : List Waiter) :
    ((h.attendAll l).2.map Prod.fst).Sublist (l.map Waiter.who) := by
  induction l generalizing h with
  | nil => exact .slnil
  | cons w rest ih =>
    have hrest := ih (h.attend w.who w.queue w.token).1
    show ((((h.attend w.who w.queue w.token).2.map fun o => (w.who, o)).toList ++ _).map
      Prod.fst).Sublist _
    cases (h.attend w.who w.queue w.token).2 with
    | none => exact hrest.cons _
    | some o => exact hrest.cons_cons _

/-- Each answer is for somebody who waited. -/
theorem QueueHall.fst_settle (h : QueueHall) :
    (h.settle.2.map Prod.fst).Sublist (h.parked.map Waiter.who) := by
  have hready : (h.parked.partition h.isRunnable).1.Sublist h.parked := by
    rw [List.partition_eq_filter_filter]
    exact List.filter_sublist
  exact (fst_attendAll _ _).trans (hready.map _)

/-! ## Turns -/

/-- What somebody of a service does who is this worker of a pool. -/
def Activity.duty : Activity → Duty
  | waiting => .asking
  | busy j .. => .begun j
  | stopped => .off
  | stranded j => .stranded j

/-- Who has left a pool has left the service. -/
theorem Activity.hasLeft_duty (a : Activity) : a.duty.hasLeft = a.hasLeft := by
  cases a <;> rfl

namespace WorkerPool

open Service

variable {p : WorkerPool} {v : Service} {i : Nat}

/-- All workers have left. -/
def isDeserted (p : WorkerPool) : Bool := p.workers.all fun w => w.activity.hasLeft

/-- The pool at other queues. -/
def withHall (p : WorkerPool) (hall : QueueHall) : WorkerPool :=
  { p with orchestrator := { p.orchestrator with hall } }

/-- The workers as those of a service. -/
def attendants (p : WorkerPool) : List Attendant :=
  p.workers.map fun w => { queue := w.queue, duty := w.activity.duty }

/-- **The pool follows the run that began in `v`.** -/
def Follows (p : WorkerPool) (v : Service) : Prop :=
  Underway v p.orchestrator p.attendants p.interrupted []

theorem attendants_assign (p : WorkerPool) (i : Nat) (n : QueueName) (a : Activity) :
    (p.assign i n a).attendants = p.attendants.set i ⟨n, a.duty⟩ := List.map_set

theorem getElem?_attendants {w : Worker} (hw : p.workers[i]? = some w) :
    p.attendants[i]? = some ⟨w.queue, w.activity.duty⟩ := by
  unfold attendants
  rw [List.getElem?_map, hw]
  rfl

/-- A worker learns whether there is a job, and others are yet to learn it. -/
theorem underway_answer {n : QueueName} {job : Option Job} (os : List (Nat × Option Job))
    (hlt : i < p.workers.length) (hi : i ∉ os.map Prod.fst)
    (h : Underway v p.orchestrator
      (answered (p.attendants.set i (Attendant.told ⟨n, .asking⟩ job)) os) p.interrupted []) :
    Underway v (p.answer i n job).orchestrator (answered (p.answer i n job).attendants os)
      (p.answer i n job).interrupted [] := by
  cases job with
  | none =>
    show Underway v _ (answered (p.assign i n .stopped).attendants os) _ []
    rw [attendants_assign]
    exact h
  | some j =>
    have hx : (answered (p.attendants.set i ⟨n, .taken j⟩) os)[i]? = some ⟨n, .taken j⟩ := by
      rw [getElem?_answered hi, List.getElem?_set_self]
      exact Nat.lt_of_lt_of_eq hlt (List.length_map _).symm
    have hstarted := h.set hx (h.seated.not_mem hx nofun) (fun _ _ _ _ _ => .start) (.refl _)
    rw [answered_set _ hi, List.set_set, ← answered_set _ hi] at hstarted
    have := hstarted.pass { p.orchestrator.host with
      files := ((p.orchestrator.start j).1.course (p.orchestrator.start j).2).files }
      p.now (.refl _)
    unfold answer
    rw [attendants_assign]
    exact this

theorem ask_eq (p : WorkerPool) (i : Nat) (n : QueueName) :
    p.ask i n = match (p.orchestrator.hall.attend i n p.orchestrator.hall.token).2 with
      | none => (p.withHall (p.orchestrator.hall.attend i n p.orchestrator.hall.token).1).assign i n
        .waiting
      | some job =>
        (p.withHall (p.orchestrator.hall.attend i n p.orchestrator.hall.token).1).answer i n job :=
  rfl

/-- A worker asks its queue for a job. -/
theorem follows_ask {n : QueueName} (hlt : i < p.workers.length)
    (h : Underway v p.orchestrator (p.attendants.set i ⟨n, .asking⟩) p.interrupted [])
    (hi : i ∉ p.orchestrator.hall.parked.map Waiter.who) : (p.ask i n).Follows v := by
  have hx : (p.attendants.set i ⟨n, .asking⟩)[i]? = some ⟨n, .asking⟩ :=
    List.getElem?_set_self (Nat.lt_of_lt_of_eq hlt (List.length_map _).symm)
  have hattended := h.attend hx hi
  rw [ask_eq]
  cases hout : (p.orchestrator.hall.attend i n p.orchestrator.hall.token).2 with
  | none =>
    rw [hout] at hattended
    unfold Follows
    dsimp only
    rw [attendants_assign]
    exact hattended
  | some job =>
    rw [hout] at hattended
    have hanswered : Underway v _ (answered _ [(i, job)]) _ [] := hattended
    rw [answered_single hx, List.set_set] at hanswered
    exact underway_answer (p := p.withHall _) [] hlt List.not_mem_nil hanswered

/-- Who asks affects no other worker, and nobody else is parked. -/
theorem ask_leaves (p : WorkerPool) (i : Nat) (n : QueueName) :
    (∃ w, (p.ask i n).workers = p.workers.set i w) ∧
      ∀ w ∈ (p.ask i n).orchestrator.hall.parked, w ∈ p.orchestrator.hall.parked ∨ w.who = i := by
  rw [ask_eq]
  rcases p.orchestrator.hall.attend_cases i n p.orchestrator.hall.token with
    ⟨-, he⟩ | ⟨j, -, he⟩ | ⟨deadline, -, he⟩ <;> rw [he]
  · exact ⟨⟨_, rfl⟩, fun w hw => .inl hw⟩
  · exact ⟨⟨_, rfl⟩, fun w hw => .inl hw⟩
  · refine ⟨⟨_, rfl⟩, fun w hw => ?_⟩
    exact (List.mem_append.mp hw).imp_right fun hw => by rw [List.mem_singleton.mp hw]

/-- The workers that have not asked yet ask, one after the other.  What each of them keeps
holds when all have asked. -/
theorem Follows.askAll {P : WorkerPool → Prop}
    (keep : ∀ {p : WorkerPool} {i : Nat} {n : QueueName}, i < p.workers.length →
      Underway v p.orchestrator (p.attendants.set i ⟨n, .asking⟩) p.interrupted [] →
      i ∉ p.orchestrator.hall.parked.map Waiter.who → P p → P (p.ask i n))
    {ws : List Worker} {k : Nat} (h : p.Follows v) (hp : P p) (hws : p.workers.drop k = ws)
    (hwaiting : ∀ w ∈ ws, w.activity = .waiting)
    (hearlier : ∀ w ∈ p.orchestrator.hall.parked, w.who < k) :
    ((ws.zipIdx k).foldl (fun p (w, i) => p.ask i w.queue) p).Follows v ∧
      P ((ws.zipIdx k).foldl (fun p (w, i) => p.ask i w.queue) p) := by
  induction ws generalizing p k with
  | nil => exact ⟨h, hp⟩
  | cons w rest ih =>
    have hw : p.workers[k]? = some w := by
      rw [← Nat.add_zero k, ← List.getElem?_drop, hws]
      rfl
    have hlt := (List.getElem?_eq_some_iff.mp hw).1
    have hx := getElem?_attendants hw
    rw [hwaiting w List.mem_cons_self] at hx
    have hself : Underway v p.orchestrator (p.attendants.set k ⟨w.queue, .asking⟩) p.interrupted
        [] := (set_self hx).symm ▸ h
    have hfree : k ∉ p.orchestrator.hall.parked.map Waiter.who := by
      intro hm
      obtain ⟨u, hu, he⟩ := List.mem_map.mp hm
      exact Nat.lt_irrefl k (he ▸ hearlier u hu)
    obtain ⟨⟨u, hworkers⟩, hparked⟩ := p.ask_leaves k w.queue
    refine ih (k := k + 1) (follows_ask hlt hself hfree) (keep hlt hself hfree hp) ?_
      (fun u hu => hwaiting u (List.mem_cons_of_mem _ hu)) ?_
    · rw [hworkers, List.drop_set_of_lt (Nat.lt_succ_self k), ← List.tail_drop, hws]
      rfl
    · intro u hu
      rcases hparked u hu with hu | rfl
      · exact Nat.lt_succ_of_lt (hearlier u hu)
      · exact Nat.lt_succ_self _

/-- An answer to nobody changes nothing. -/
theorem answered_of_absent {e : Nat × Option Job} (h : p.workers[e.1]? = none) :
    answered p.attendants [e] = p.attendants := by
  have hle : p.attendants.length ≤ e.1 := by
    rw [attendants, List.length_map]
    exact List.getElem?_eq_none_iff.mp h
  exact List.modify_eq_self hle

/-- The answers reach the workers, one after the other. -/
theorem follows_answers {os : List (Nat × Option Job)} (honce : (os.map Prod.fst).Nodup)
    (h : Underway v p.orchestrator (answered p.attendants os) p.interrupted []) :
    (os.foldl (fun p (e : Nat × Option Job) => match p.workers[e.1]? with
      | some w => p.answer e.1 w.queue e.2
      | none => p) p).Follows v := by
  induction os generalizing p with
  | nil => exact h
  | cons e rest ih =>
    obtain ⟨hi, honce⟩ := List.nodup_cons.mp honce
    have h : Underway v p.orchestrator (answered (answered p.attendants [e]) rest)
      p.interrupted [] := h
    rw [List.foldl_cons]
    refine ih honce ?_
    cases hw : p.workers[e.1]? with
    | none => rwa [answered_of_absent hw] at h
    | some w =>
      rw [answered_single (getElem?_attendants hw)] at h
      exact underway_answer rest (List.getElem?_eq_some_iff.mp hw).1 hi h

/-- All who wait and can ask again are answered. -/
theorem Follows.serve (h : p.Follows v) : p.serve.Follows v := by
  refine follows_answers (p := p.withHall p.orchestrator.hall.settle.1) ?_ h.settle
  exact p.orchestrator.hall.fst_settle.nodup h.seated.once

/-- A busy worker goes on. -/
theorem Follows.act (h : p.Follows v) {w : Worker} (hw : p.workers[i]? = some w) :
    (p.act i w).Follows v := by
  have hlt := (List.getElem?_eq_some_iff.mp hw).1
  have hx := getElem?_attendants hw
  unfold WorkerPool.act
  split
  · exact h
  · exact h
  · exact h
  · next j verdict due ha =>
    rw [ha] at hx
    have hi := h.seated.not_mem hx nofun
    have hsame := (p.orchestrator.sameService_finish w.queue j verdict).2
    dsimp only
    cases hs : p.orchestrator.strands j verdict with
    | true =>
      rw [if_pos rfl]
      unfold Follows
      rw [attendants_assign]
      exact h.set hx hi (fun _ _ _ _ _ => .strand hs) hsame
    | false =>
      rw [if_neg Bool.false_ne_true]
      have hfinished := h.set hx hi (fun _ _ _ _ _ => .finish hs) hsame
      refine follows_ask (p := { p with orchestrator := _ }) hlt hfinished ?_
      have hwho := congrArg (List.map Prod.fst) hsame.seats
      rw [List.map_map, List.map_map] at hwho
      exact fun hm => hi (hwho ▸ hm)
  · next j line rest verdict due ha =>
    rw [ha] at hx
    have hlogged := h.set hx (h.seated.not_mem hx nofun) (fun _ _ _ _ _ => .log line) (.refl _)
    unfold Follows
    dsimp only
    rw [attendants_assign]
    exact hlogged
  · next j ms rest verdict due ha =>
    rw [ha] at hx
    unfold Follows
    rw [attendants_assign]
    have hsame := set_self hx
    exact hsame.symm ▸ h

/-- The workers are stopped, by the monitor or by somebody else. -/
theorem Follows.stop (h : p.Follows v) {b : Bool}
    (hs : ∀ as rs ds ss, Service.Step ⟨p.orchestrator, as, true, p.interrupted, rs, ds, ss⟩
      ⟨p.stop.orchestrator, as, true, b, rs, ds, ss⟩) :
    Follows { p.stop with interrupted := b } v :=
  ⟨h.run.step (hs _ _ _ _) rfl, h.seated⟩

theorem Follows.advanceTo (h : p.Follows v) (t : Time) : (p.advanceTo t).Follows v := by
  have hlater : (p.withHall (p.orchestrator.hall.advance (t - p.now))).Follows v :=
    h.pass p.orchestrator.host _ (.refl _)
  unfold WorkerPool.advanceTo
  dsimp only
  split
  · exact hlater
  · split
    · exact hlater.stop fun _ _ _ _ => .interrupt
    · split
      · next hlooks =>
        refine hlater.stop fun _ _ _ _ => .look ?_
        simp only [Bool.and_eq_true] at hlooks
        exact hlooks.2
      · exact hlater

/-- **A turn of the pool is a number of steps of the service.** -/
theorem Follows.turn (h : p.Follows v) {q : WorkerPool} (hq : p.turn? = some q) : q.Follows v := by
  unfold turn? at hq
  dsimp only at hq
  split at hq
  · next w index hfind =>
    cases hq
    have hw := List.mem_of_find?_eq_some hfind
    exact h.act (List.mem_zipIdx_iff_getElem?.mp hw)
  · by_cases hready : (p.orchestrator.hall.parked.any p.orchestrator.hall.isRunnable) = true
    · rw [if_pos hready] at hq
      obtain rfl := Option.some.inj hq
      exact h.serve
    · rw [if_neg hready] at hq
      split at hq
      · cases hq
      · obtain ⟨t, -, rfl⟩ := Option.map_eq_some_iff.mp hq
        exact h.advanceTo t

theorem Follows.run (h : p.Follows v) (limit : Nat) : (p.run limit).Follows v := by
  induction limit generalizing p with
  | zero => exact h
  | succ limit ih =>
    unfold WorkerPool.run
    split
    · next q hq => exact ih (h.turn hq)
    · exact h

end WorkerPool

/-! ## Runs of an orchestrator -/

namespace Service

variable {v : Service}

/-- Between runs nobody works. -/
theorem Reachable.attendants_eq_nil (h : Reachable v) (hv : v.running = false) :
    v.attendants = [] := by
  induction h with
  | first => rfl
  | step _ hs ih =>
    cases hs with
    | submit | returns => rfl
    | administer | pass => exact ih hv
    | _ => cases hv

/-- Between runs nobody waits. -/
theorem Reachable.parked_eq_nil (h : Reachable v) (hd : v.Distinct) (hv : v.running = false) :
    v.orchestrator.hall.parked = [] := by
  induction h with
  | first => rfl
  | step _ hs ih =>
    have hdv := hs.distinct hd
    cases hs with
    | @submit o b rs ds ss s =>
      have hseats := (o.sameService_submit s hd).seats
      have hnobody : o.hall.parked = [] := ih hdv rfl
      rw [hnobody] at hseats
      exact List.map_eq_nil_iff.mp hseats
    | @returns o as b rs ds ss => cases b <;> rfl
    | administer => exact ih hdv hv
    | pass host now parked hp => exact hp hv
    | _ => cases hv

end Service

namespace Orchestrator

open Service

variable {v : Service}

/-- Every queue has a worker, and all of them wait at first. -/
theorem crew_spec (o : Orchestrator) :
    (∀ n, { queue := n } ∈ o.crew) ∧ ∀ w ∈ o.crew, w.activity = .waiting := by
  constructor
  · intro n
    refine List.mem_flatMap.mpr ⟨n, by cases n <;> decide, List.mem_replicate.mpr ⟨?_, rfl⟩⟩
    have hworkers : 1 ≤ (o.hall.queues.get n).settings.workers := Nat.le_max_right _ _
    omega
  · intro w hw
    obtain ⟨n, -, hw⟩ := List.mem_flatMap.mp hw
    rw [(List.mem_replicate.mp hw).2]

/-- The pool before anybody has asked for a job. -/
def assembled (o : Orchestrator) (interruption : Option Time) : WorkerPool where
  orchestrator := { o with hall := o.hall.renew }
  workers := o.crew
  beginning := o.hall.now
  interruption := interruption.map (o.hall.now + ·)

theorem follows_assembled (h : Reachable v) (hd : v.Distinct) (hv : v.running = false)
    (interruption : Option Time) : (v.orchestrator.assembled interruption).Follows v := by
  have hparked := h.parked_eq_nil hd hv
  obtain ⟨o, as, t, b, rs, ds, ss⟩ := v
  obtain rfl : t = false := hv
  obtain rfl : as = [] := h.attendants_eq_nil rfl
  have hparked : (o.assembled interruption).orchestrator.hall.parked = [] := hparked
  obtain ⟨hcrew, hwaiting⟩ := o.crew_spec
  have hattendants : (o.assembled interruption).attendants =
      (o.crew.map Worker.queue).map fun n => ({ queue := n } : Attendant) := by
    unfold WorkerPool.attendants
    rw [List.map_map]
    refine List.map_congr_left fun w hw => ?_
    rw [hwaiting w hw]
    rfl
  refine ⟨.begin ?_ rfl rfl, ?_⟩
  · rw [hattendants]
    exact .begin _ fun n => List.mem_map_of_mem (hcrew n)
  · rw [hparked]
    exact ⟨fun w hw => absurd hw List.not_mem_nil, .nil⟩

/-- The workers begin as those of a service do.  What holds as long as all wait, and is kept
by one who asks and by a stop, holds when they have begun. -/
theorem follows_workers {P : WorkerPool → Prop} (h : Reachable v) (hd : v.Distinct)
    (hv : v.running = false) (interruption : Option Time)
    (wait : ∀ p : WorkerPool, (∀ w ∈ p.workers, w.activity = .waiting) → P p)
    (keep : ∀ {p : WorkerPool} {i : Nat} {n : QueueName}, i < p.workers.length →
      Underway v p.orchestrator (p.attendants.set i ⟨n, .asking⟩) p.interrupted [] →
      i ∉ p.orchestrator.hall.parked.map Waiter.who → P p → P (p.ask i n))
    (stop : ∀ p : WorkerPool, P p → P p.stop) :
    (v.orchestrator.workers interruption).Follows v ∧ P (v.orchestrator.workers interruption) := by
  have hparked := h.parked_eq_nil hd hv
  have hassembled := follows_assembled h hd hv interruption
  -- an interruption at once comes before anybody asks
  obtain ⟨p, hp, hfollows, hcrew, hnobody⟩ : ∃ p : WorkerPool,
      (if interruption = some 0 then
        { (v.orchestrator.assembled interruption).stop with interrupted := true }
      else v.orchestrator.assembled interruption) = p ∧
      p.Follows v ∧ p.workers = v.orchestrator.crew ∧ p.orchestrator.hall.parked = [] := by
    refine ⟨_, rfl, ?_⟩
    split
    · exact ⟨hassembled.stop fun _ _ _ _ => .interrupt, rfl, hparked⟩
    · exact ⟨hassembled, rfl, hparked⟩
  have hwaiting := v.orchestrator.crew_spec.2
  have hasked := hfollows.askAll keep (k := 0) (wait p (hcrew ▸ hwaiting)) hcrew hwaiting
    fun w hw => absurd (hnobody ▸ hw) List.not_mem_nil
  -- the monitor looks for the first time
  have looked : ∀ q : WorkerPool, q.Follows v ∧ P q →
      (if q.orchestrator.hall.queues.allIdle then q.stop else q).Follows v ∧
        P (if q.orchestrator.hall.queues.allIdle then q.stop else q) := by
    intro q hq
    split
    · next hidle => exact ⟨hq.1.stop fun _ _ _ _ => .look hidle, stop q hq.2⟩
    · exact hq
  rw [← hp] at hasked
  exact looked _ hasked

/-- **A run until all queues are idle is a run of the service** that returns, once all
workers have left. -/
theorem exists_run (h : Reachable v) (hd : v.Distinct) (hv : v.running = false) (turns : Nat)
    (interruption : Option Time)
    (hleft : ((v.orchestrator.workers interruption).run turns).isDeserted = true) :
    ∃ w, Run v w ∧ (∀ a ∈ w.attendants, a.duty.hasLeft = true) ∧
      w.interrupted = ((v.orchestrator.workers interruption).run turns).interrupted ∧
      w.returned.orchestrator = v.orchestrator.runUntilIdle turns interruption := by
  let p := (v.orchestrator.workers interruption).run turns
  have hp : p.Follows v := (follows_workers (P := fun _ => True) h hd hv interruption
    (fun _ _ => trivial) (fun _ _ _ _ => trivial) fun _ _ => trivial).1.run turns
  refine ⟨_, Underway.run hp, fun a ha => ?_, rfl, rfl⟩
  obtain ⟨w, hw, rfl⟩ := List.mem_map.mp ha
  exact w.activity.hasLeft_duty.trans (List.all_eq_true.mp hleft w hw)

end Orchestrator

namespace Service

variable {v : Service}

/-- **What a run leaves undone.**  However the tasks take their steps: when all workers have
left, the run returns queues in which nothing waits and a board that shows the jobs that were
submitted, each once and in their order, without those that were dropped.  All is at rest
exactly if no attempt broke off, in this run or before: the jobs whose attempts broke off are
those that have not ended, and their queues stay active with them.  Such an attempt was at a
plan in the last version that there is.  A run that nobody interrupts returns only if none
broke off, and drops nothing; jobs that are dropped had not ended.  The pool of workers runs
as one of the services, and returns what it returns. -/
theorem Reachable.run_atRest_iff (h : Reachable v) (hd : v.Distinct) :
    (∀ w, Run v w → (∀ a ∈ w.attendants, a.duty.hasLeft = true) →
      (w.returned.orchestrator.AtRest (v.requests.map Prod.fst) (v.dropped ++ w.gone) ↔
        w.returned.stranded = []) ∧
      w.returned.orchestrator.LeftWith w.returned.stranded (v.requests.map Prod.fst)
        (v.dropped ++ w.gone) ∧
      (∀ a ∈ w.returned.stranded, a.job.plan.version.toNat + 1 = UInt32.size) ∧
      (w.interrupted = false → w.gone = [] ∧ w.returned.stranded = []) ∧
      ∀ id ∈ w.gone, Unended w.orchestrator id) ∧
    (v.running = false → ∀ turns interruption,
      ((v.orchestrator.workers interruption).run turns).isDeserted = true →
      ∃ w, Run v w ∧ (∀ a ∈ w.attendants, a.duty.hasLeft = true) ∧
        w.interrupted = ((v.orchestrator.workers interruption).run turns).interrupted ∧
        w.returned.orchestrator = v.orchestrator.runUntilIdle turns interruption) := by
  refine ⟨fun w hw hleft => ?_, Orchestrator.exists_run h hd⟩
  have hr := hw.reachable h
  have hdw := hw.distinct hd
  obtain ⟨hrequests, hdropped, -⟩ := hw.same_requests
  obtain ⟨hleftWith, hquiet⟩ := hr.leftWith_returned hdw hw.running hleft
  rw [hrequests, hdropped] at hleftWith
  refine ⟨hleftWith.atRest_iff, hleftWith, ?_, fun hi => ⟨?_, hquiet hi⟩,
    fun id hid => hr.unended_of_gone hdw hid⟩
  · exact (hr.step (step_returned hw.running hleft)).version_of_stranded
  · unfold gone
    rw [if_neg (Bool.eq_false_iff.mp hi)]

end Service

namespace Sample

/-- An adapter whose tests print something and fail. -/
def failingTests (steps : List RunnerStep) : Adapter where
  id := "failing"
  displayName := "Failing"
  render p := {
    files := [⟨"tests", ""⟩]
    manifest := { adapter := "failing", pages := [], count := p.cases.length }
    status := .complete
    failures := [] }
  runner := {
    id := "failing"
    install := fun h _ _ => .idle h
    run := fun h _ _ => { RunnerStage.idle h with steps, outcome := .ok 1 } }

/-- Nothing but an adapter is there. -/
def rehearsing (a : Adapter) : Orchestrator :=
  .ofConfiguration { workRoot := "work" } ⟨.insert .empty a.id a⟩ {} { name := uuid }

/-- One test runs and fails. -/
def oneFailure : Adapter := failingTests [.line "Running 1 test", .pause 20, .line "1 failed"]

/-- Nothing but the test is there. -/
def prepared : Orchestrator := rehearsing oneFailure

/-- A plan for the test. -/
def doomed : Submission := { submission .statement "email" with framework := oneFailure.id }

/-- The plan was submitted. -/
def rehearsed : Service where
  orchestrator := (prepared.submit doomed).1
  requests := prepared.requests doomed

/-- The job of the submission. -/
def doomedJob : Job :=
  (prepared.partsOf doomed.plan).1.newJob doomed {} .run doomed.plan

theorem distinct_rehearsed : rehearsed.Distinct := by
  obtain ⟨cs, hcs⟩ := prepared.performs_submit doomed
  exact distinct_uuid (hcs.steps [] [] []).name_eq (by decide +kernel)

end Sample

namespace Service

/-- The job of a submission has ended when the run returns. -/
theorem doomed_job_ended :
    Sample.rehearsed.Reachable ∧ Sample.rehearsed.Distinct ∧
      (Sample.rehearsed.orchestrator.runUntilIdle 20 none).AtRest [Sample.doomedJob.id] [] := by
  have hr : Sample.rehearsed.Reachable := .step (.first ..) (.submit Sample.doomed)
  have hd := Sample.distinct_rehearsed
  obtain ⟨hruns, hpool⟩ := hr.run_atRest_iff hd
  have hend : (((Sample.rehearsed.orchestrator.workers none).run 20).isDeserted,
      ((Sample.rehearsed.orchestrator.workers none).run 20).interrupted) = (true, false) := by
    decide +kernel
  obtain ⟨hdeserted, hquiet⟩ := Prod.mk.inj hend
  obtain ⟨w, hw, hleft, hinterrupted, hreturned⟩ := hpool rfl 20 none hdeserted
  obtain ⟨hrest, -, -, hnobody, -⟩ := hruns w hw hleft
  obtain ⟨hgone, hstranded⟩ := hnobody (hinterrupted.trans hquiet)
  have hrequests : Sample.rehearsed.requests.map Prod.fst = [Sample.doomedJob.id] := by
    decide +kernel
  rw [hreturned, hgone, hrequests] at hrest
  exact ⟨hr, hd, hrest.mpr hstranded⟩

end Service

namespace Sample

/-- Tests that do not find the field. -/
def fruitless : Orchestrator :=
  rehearsing (failingTests [.line "Error: locator.fill: Timeout 30000ms exceeded",
    .line "waiting for getByLabel('Email')"])

/-- The plan has the last version that there is. -/
def lastVersion : Submission where
  plan := { plan .statement "label=Email" with id := ⟨uuid 1000, 4294967295, none⟩ }
  framework := "failing"
  discovery := some (discovery "email")

/-- The plan in its last version was submitted. -/
def unrevisable : Service where
  orchestrator := (fruitless.submit lastVersion).1
  requests := fruitless.requests lastVersion

theorem distinct_unrevisable : unrevisable.Distinct := by
  obtain ⟨cs, hcs⟩ := fruitless.performs_submit lastVersion
  exact distinct_uuid (hcs.steps [] [] []).name_eq (by decide +kernel)

end Sample

namespace Service

/-- The correction of a plan in its last version breaks off: the run that is interrupted
returns its job as one that runs, and the queue is active with it. -/
theorem unrevised_job_left_running :
    Sample.unrevisable.Reachable ∧ Sample.unrevisable.Distinct ∧
      ((Sample.unrevisable.orchestrator.workers (some 200)).run 20).isDeserted = true ∧
      ∃ j, (Sample.unrevisable.orchestrator.runUntilIdle 20 (some 200)).board.toList = [j] ∧
        j.status = .running ∧
        ((Sample.unrevisable.orchestrator.runUntilIdle 20 (some 200)).queue .run).active =
          [j.id] := by
  have hend : (((Sample.unrevisable.orchestrator.workers (some 200)).run 20).isDeserted,
      (Sample.unrevisable.orchestrator.runUntilIdle 20 (some 200)).board.toList.map fun j =>
        (j.status, decide (((Sample.unrevisable.orchestrator.runUntilIdle 20
          (some 200)).queue .run).active = [j.id]))) = (true, [(.running, true)]) := by
    decide +kernel
  obtain ⟨hdeserted, hleft⟩ := Prod.mk.inj hend
  obtain ⟨j, hj, he⟩ := List.map_eq_singleton_iff.mp hleft
  obtain ⟨hrunning, hactive⟩ := Prod.mk.inj he
  exact ⟨.step (.first ..) (.submit Sample.lastVersion), Sample.distinct_unrevisable, hdeserted,
    j, hj, hrunning, of_decide_eq_true hactive⟩

end Service

end Testplan
