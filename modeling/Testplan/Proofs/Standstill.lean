import Testplan.Proofs.Announcements
import Testplan.Proofs.BoardCustody
/-!
# A run leaves nothing half done

When a run returns and no attempt has broken off, all jobs on the board have ended, all
queues are idle, and the board shows every job that was submitted, but for those that were
dropped because of an interruption (`Orchestrator.AtRest`).  A job whose attempt broke off
is what a run leaves undone: the board shows it as not ended and its queue stays active with
it (`Orchestrator.LeftWith`).  However the tasks take their steps, this holds whenever a run
returns (`Service.Reachable.leftWith_returned`).

There are two reasons for which workers leave (`Service.Sound`).  If they were interrupted,
the standstill drops whatever still waits, be it in a queue whose workers had left before.
If they were not, the monitor stopped them, and from the moment at which it found all
queues idle no worker has a job and no queue gets one; so no attempt has broken off.
-/
namespace Testplan

/-! ## Workers and active jobs -/

namespace Shift

variable {w : Shift}

/-- Where all is idle nobody works. -/
theorem Reachable.assignments_eq_nil (h : Reachable w) (hd : w.Distinct)
    (hidle : ∀ n, (w.orchestrator.queue n).isIdle = true) : w.assignments = [] := by
  refine List.eq_nil_iff_forall_not_mem.mpr fun a ha => ?_
  have hin := (h.mem_active_iff hd).mpr ⟨a, ha, rfl, rfl⟩
  rw [((JobQueue.isIdle_iff _).mp (hidle a.queue)).2] at hin
  cases hin

end Shift

/-- Of a job that waits no end is told. -/
theorem Story.isFinish_of_waiting {n : QueueName} {es : List JobEvent} (h : Story (.waiting n) es) :
    ∀ e ∈ es, e.isFinish = false := by
  have attempt (n : QueueName) (lines : List String) :
      ∀ e ∈ n.attemptEvents lines, e.isFinish = false := by
    intro e he
    have h0 := List.countP_eq_zero.mp (JobEvent.countP_attemptEvents n lines).2.2 e he
    simpa using h0
  intro e he
  cases h with
  | waiting =>
    rw [List.mem_singleton.mp he]
    rfl
  | waitingAgain hn lines plan changes =>
    rcases List.mem_append.mp he with he | he
    · exact attempt _ lines e he
    · simp only [List.mem_cons, List.not_mem_nil, or_false] at he
      rcases he with rfl | rfl <;> rfl

/-! ## The state of a service -/

/-- **Nothing is half done.**  All jobs on the board have ended, all queues are idle, and
each job that was submitted is on the board, once and in its order, unless it was
dropped. -/
structure Orchestrator.AtRest (o : Orchestrator) (submitted dropped : List JobId) : Prop where
  ended : ∀ j ∈ o.board.toList, j.status.isTerminal = true
  idle : ∀ n, (o.queue n).isIdle = true
  listed : o.board.toList.map Job.id = submitted.filter (· ∉ dropped)
  once : (o.board.toList.map Job.id).Nodup

/-- **Nothing is half done but what broke off.**  The board shows each job that was
submitted, once and in its order, unless it was dropped; the jobs on it have ended, except
for those whose attempts broke off, and these are still active in their queues. -/
structure Orchestrator.LeftWith (o : Orchestrator) (stranded : List Assignment)
    (submitted dropped : List JobId) : Prop where
  ended_iff : ∀ j ∈ o.board.toList, j.status.isTerminal = true ↔ ∀ a ∈ stranded, a.job.id ≠ j.id
  shown : ∀ a ∈ stranded, ∃ j ∈ o.board.toList, j.id = a.job.id ∧ j.queue = a.queue
  contents : ∀ n, (o.queue n).contents = []
  active_iff : ∀ n id,
    id ∈ (o.queue n).active ↔ ∃ a ∈ stranded, a.queue = n ∧ a.job.id = id
  listed : o.board.toList.map Job.id = submitted.filter (· ∉ dropped)
  once : (o.board.toList.map Job.id).Nodup

/-- All is at rest exactly if no attempt broke off. -/
theorem Orchestrator.LeftWith.atRest_iff {o : Orchestrator} {stranded : List Assignment}
    {submitted dropped : List JobId} (h : o.LeftWith stranded submitted dropped) :
    o.AtRest submitted dropped ↔ stranded = [] := by
  constructor
  · intro hrest
    refine List.eq_nil_iff_forall_not_mem.mpr fun a ha => ?_
    obtain ⟨j, hj, hid, -⟩ := h.shown a ha
    exact (h.ended_iff j hj).mp (hrest.ended j hj) a ha hid.symm
  · rintro rfl
    refine ⟨fun j hj => (h.ended_iff j hj).mpr fun _ ha => absurd ha List.not_mem_nil,
      fun n => ?_, h.listed, h.once⟩
    refine (JobQueue.isIdle_iff _).mpr ⟨h.contents n, ?_⟩
    refine List.eq_nil_iff_forall_not_mem.mpr fun id hid => ?_
    obtain ⟨a, ha, -⟩ := (h.active_iff n id).mp hid
    cases ha

namespace Service

/-- **Why workers leave**, and what the board shows. -/
structure Sound (v : Service) : Prop where
  opened : ∀ n, (v.orchestrator.queue n).closed = false
  /-- No token is cancelled before it is in use. -/
  tokens : ∀ t ∈ v.orchestrator.hall.cancelled, t ≤ v.orchestrator.hall.token
  off : ∀ a ∈ v.attendants, a.duty = .off → v.isStopping
  crew : v.running = true → ∀ n, ∃ a ∈ v.attendants, a.queue = n
  /-- The monitor stops the workers only when there is nothing left to do. -/
  idle : v.running = true → v.interrupted = false → v.isStopping →
    ∀ n, (v.orchestrator.queue n).isIdle = true
  shown : v.shift.Shown v.dropped

theorem Sound.first (config : Configuration) (adapters : AdapterRegistry) (host : Host)
    (ids : IdSource) : Sound { orchestrator := .ofConfiguration config adapters host ids } where
  opened n := by cases n <;> rfl
  tokens _ ht := absurd ht List.not_mem_nil
  off _ ha := absurd ha List.not_mem_nil
  crew h := nomatch h
  idle h := nomatch h
  shown := .first config adapters host ids

variable {v w : Service}

/-- A step that leaves the service as it is. -/
theorem Sound.of_same (h : v.Sound)
    (hsame : v.orchestrator.hall.SameService w.orchestrator.hall)
    (hoff : ∀ a ∈ w.attendants, a.duty = .off → v.isStopping)
    (hcrew : w.running = true → ∀ n, ∃ a ∈ w.attendants, a.queue = n)
    (hidle : w.running = true → w.interrupted = false → v.isStopping →
      ∀ n, (w.orchestrator.queue n).isIdle = true)
    (hshown : w.shift.Shown w.dropped) : w.Sound := by
  have hstopping : w.isStopping ↔ v.isStopping := by
    rw [isStopping, hsame.token, hsame.cancelled]
    rfl
  refine ⟨fun n => (hsame.closed n).trans (h.opened n), ?_, ?_, hcrew, ?_, hshown⟩
  · rw [hsame.token, hsame.cancelled]
    exact h.tokens
  · exact fun a ha hd => hstopping.mpr (hoff a ha hd)
  · exact fun hr hi hs => hidle hr hi (hstopping.mp hs)

/-- A worker who has a job is not stopped by the monitor. -/
theorem Sound.not_stopping_of_busy (h : v.Sound) (hr : v.shift.Reachable) (hd : v.Distinct)
    (hrun : v.running = true) (hi : v.interrupted = false)
    (hbusy : assignments v.attendants ≠ []) : ¬ v.isStopping :=
  fun hs => hbusy (List.append_eq_nil_iff.mp (hr.assignments_eq_nil hd (h.idle hrun hi hs))).1

theorem Step.distinct (hs : Step v w) (hw : w.Distinct) : v.Distinct := by
  cases hs with
  | @submit o b rs ds ss s =>
    obtain ⟨cs, hcs⟩ := o.performs_submit s
    exact (hcs.steps [] [] []).distinct hw
  | @finish o l r b rs ds ss n j verdict | @strand o l r b rs ds ss n j verdict =>
    have hids := (o.sameService_finish n j verdict).1
    unfold Distinct at hw ⊢
    rwa [hids] at hw
  | @returns o as b rs ds ss hleft => cases b <;> exact hw
  | _ => exact hw

/-- A worker leaves an open queue only if it is told to stop. -/
theorem cancelled_of_ended {h : QueueHall} {n : QueueName} {token : Nat}
    (hopen : (h.queues.get n).closed = false) (ht : (h.ask n token).2 = .ended) :
    token ∈ h.cancelled := by
  have ht : ((h.queues.get n).next h.now (token ∈ h.cancelled)).2 = .ended := ht
  rcases (h.queues.get n).next_cases h.now (token ∈ h.cancelled) with
    ⟨hc, -⟩ | ⟨-, -, ⟨-, hn⟩ | ⟨j, rest, -, -, hn⟩⟩
  · rw [hopen] at hc
    simpa using hc
  · rw [hn] at ht
    cases ht
  · rw [hn] at ht
    cases ht

/-- An idle queue stays idle when somebody asks in vain. -/
theorem isIdle_ask {o : Orchestrator} {n : QueueName} {token : Nat}
    (ht : ∀ j, (o.hall.ask n token).2 ≠ .job j) {m : QueueName}
    (h : (o.queue m).isIdle = true) :
    ({ o with hall := (o.hall.ask n token).1 }.queue m).isIdle = true := by
  show ((o.serve (.ask n token)).queue m).isIdle = true
  by_cases hm : m = n
  · subst hm
    obtain ⟨hcontents, hactive⟩ := Orchestrator.contents_ask ht
    obtain ⟨hc, ha⟩ := (JobQueue.isIdle_iff _).mp h
    rw [hc] at hcontents
    exact (JobQueue.isIdle_iff _).mpr ⟨hcontents.eq_nil, hactive.trans ha⟩
  · rw [o.queue_ask, if_neg hm]
    exact h

section

variable {o o' : Orchestrator} {as : List Attendant} {b b' t : Bool}
  {rs rs' : List (JobId × Submission)} {ds ds' : List JobId} {ss : List Assignment}

/-- A worker that takes a step stays at its queue. -/
theorem exists_queue_of_worker {l r : List Attendant} {x y : Attendant} {n : QueueName}
    (h : ∃ a ∈ l ++ x :: r, a.queue = n) (hqueue : y.queue = x.queue) :
    ∃ a ∈ l ++ y :: r, a.queue = n := by
  obtain ⟨a, ha, rfl⟩ := h
  rcases List.mem_append.mp ha with ha | ha
  · exact ⟨a, by simp [ha], rfl⟩
  · rcases List.mem_cons.mp ha with rfl | ha
    · exact ⟨y, by simp, hqueue⟩
    · exact ⟨a, by simp [ha], rfl⟩

/-- A worker's step, by which the worker does not leave. -/
theorem Sound.of_worker {l r : List Attendant} {x y : Attendant}
    (h : Sound ⟨o, l ++ x :: r, true, b, rs, ds, ss⟩) (hy : y.duty ≠ .off)
    (hqueue : y.queue = x.queue) (hsame : o.hall.SameService o'.hall)
    (hidle : b = false → isStopping ⟨o, l ++ x :: r, true, b, rs, ds, ss⟩ →
      ∀ n, (o'.queue n).isIdle = true)
    (hshown : Shift.Shown ⟨o', assignments (l ++ y :: r) ++ ss, rs⟩ ds) :
    Sound ⟨o', l ++ y :: r, true, b, rs, ds, ss⟩ := by
  refine h.of_same hsame (fun a ha hoff => ?_)
    (fun hrun n => exists_queue_of_worker (h.crew hrun n) hqueue) (fun _ => hidle) hshown
  -- who has left is one of the others
  rcases List.mem_append.mp ha with ha | ha
  · exact h.off a (List.mem_append_left _ ha) hoff
  · rcases List.mem_cons.mp ha with rfl | ha
    · exact absurd hoff hy
    · exact h.off a (List.mem_append_right _ (List.mem_cons_of_mem _ ha)) hoff

/-- A service between two runs. -/
theorem Sound.between (h : Sound ⟨o, as, t, b, rs, ds, ss⟩) {ss' : List Assignment}
    (htoken : o'.hall.token = o.hall.token) (hcancelled : o'.hall.cancelled = o.hall.cancelled)
    (hclosed : ∀ n, (o'.queue n).closed = (o.queue n).closed)
    (hshown : Shift.Shown ⟨o', ss', rs'⟩ ds') : Sound ⟨o', [], false, b, rs', ds', ss'⟩ where
  opened n := (hclosed n).trans (h.opened n)
  tokens := by
    rw [htoken, hcancelled]
    exact h.tokens
  off _ ha := absurd ha List.not_mem_nil
  crew hrun := Bool.noConfusion hrun
  idle hrun := Bool.noConfusion hrun
  shown := hshown

/-- The workers are told to stop. -/
theorem Sound.cancel (h : Sound ⟨o, as, true, b, rs, ds, ss⟩)
    (hidle : b' = false → ∀ n, (o.queue n).isIdle = true) :
    Sound ⟨{ o with hall := o.hall.cancel }, as, true, b', rs, ds, ss⟩ := by
  refine ⟨h.opened, fun token htoken => ?_, fun _ _ _ => List.mem_cons_self, h.crew,
    fun _ hi _ => hidle hi, h.shown.same_jobs rfl rfl fun _ => .refl _⟩
  rcases List.mem_cons.mp htoken with rfl | htoken
  · exact Nat.le_refl _
  · exact h.tokens token htoken

/-- After a run that was interrupted, what waited has been dropped. -/
theorem Sound.returned (h : Sound ⟨o, as, true, b, rs, ds, ss⟩)
    (hfree : ∀ a ∈ assignments as ++ ss, ∀ n, ∀ j ∈ (o.queue n).contents, j.id ≠ a.job.id) :
    Sound (returned ⟨o, as, true, b, rs, ds, ss⟩) := by
  have hshown : Shift.Shown ⟨{ o with hall := { o.hall with parked := [] } },
      assignments as ++ ss, rs⟩ ds := h.shown.same_jobs rfl rfl fun _ => .refl _
  cases b with
  | false =>
    refine h.between rfl rfl (fun _ => rfl) ?_
    show Shift.Shown ⟨{ o with hall := { o.hall with parked := [] } }, assignments as ++ ss, rs⟩
      (ds ++ [])
    rw [List.append_nil]
    exact hshown
  | true =>
    refine h.between rfl rfl (fun n => ?_) (hshown.halt hfree)
    cases n <;> rfl

/-- Queues are paused, resumed and cleaned. -/
theorem Sound.administer (h : Sound ⟨o, as, t, b, rs, ds, ss⟩) (n : QueueName)
    {a : Administration} (ha : a.keepsJobs = true) :
    Sound ⟨{ o with hall := o.hall.modify n fun q => a.apply o.hall.now q }, as, t, b, rs, ds,
      ss⟩ := by
  have hkeeps (q : JobQueue) : (a.apply o.hall.now q).closed = q.closed ∧
      (a.apply o.hall.now q).contents = q.contents := by
    cases a <;> first | exact ⟨rfl, rfl⟩ | cases ha
  have hcontents (m : QueueName) : ((o.serve (.administer n a)).queue m).contents =
      (o.queue m).contents := by
    rw [o.queue_administer]
    split
    · next hm => rw [(hkeeps _).2, hm]
    · rfl
  have hactive (m : QueueName) : ((o.serve (.administer n a)).queue m).active =
      (o.queue m).active := by
    rw [o.queue_administer]
    split
    · next hm => rw [a.active_apply, hm]
    · rfl
  refine h.of_same (o.hall.sameService_set (hkeeps _).1) h.off h.crew (fun hrun hi hstop m => ?_)
    (h.shown.same_jobs rfl rfl fun m => .of_eq (hcontents m))
  obtain ⟨hc, hnone⟩ := (JobQueue.isIdle_iff _).mp (h.idle hrun hi hstop m)
  exact (JobQueue.isIdle_iff _).mpr ⟨(hcontents m).trans hc, (hactive m).trans hnone⟩

end

theorem Sound.step (h : v.Sound) (hr : Reachable v) (hd : w.Distinct) (hs : Step v w) :
    w.Sound := by
  have hvd := hs.distinct hd
  have hshift := hr.shift
  obtain ⟨hproper, hwaits⟩ := hshift.orderly
  have hshown := h.shown
  unfold Service.shift at hshift hshown hproper
  -- a worker with a job was not stopped by the monitor, so what it does is of no concern there
  have hbusy := h.not_stopping_of_busy hr.shift hvd
  cases hs with
  | @submit o b rs ds ss s =>
    have hsame := o.sameService_submit s hd
    exact h.between hsame.token hsame.cancelled hsame.closed (hshown.submit s hd)
  | @begin o b rs ds ss crew hc =>
    refine ⟨h.opened, fun t ht => Nat.le_succ_of_le (h.tokens t ht), ?_, ?_, ?_, ?_⟩
    · intro a ha hoff
      obtain ⟨n, -, rfl⟩ := List.mem_map.mp ha
      cases hoff
    · exact fun _ n => ⟨{ queue := n }, List.mem_map_of_mem (hc n), rfl⟩
    · exact fun _ _ hs => absurd (h.tokens _ hs) (Nat.not_succ_le_self _)
    · unfold Service.shift
      rw [assignments_crew]
      exact hshown.same_jobs rfl rfl fun _ => .refl _
  | @take o l r b rs ds ss n j ht =>
    refine h.of_worker (by simp) rfl (o.hall.sameService_ask n _) ?_ ?_
    · intro hi hstop m
      have hin := Orchestrator.mem_contents_of_take ht
      rw [((JobQueue.isIdle_iff _).mp (h.idle rfl hi hstop n)).1] at hin
      cases hin
    · simp only [assignments_split, Attendant.assignment?, Option.toList_none, Option.toList_some,
        List.append_nil, List.append_assoc] at hshown ⊢
      exact hshown.take ht (hwaits n j (Orchestrator.mem_contents_of_take ht))
  | @wait o l r b rs ds ss n deadline ht =>
    have hno : ∀ j, (o.hall.ask n o.hall.token).2 ≠ .job j := fun j hj => by
      rw [ht] at hj
      cases hj
    exact h.of_same (o.hall.sameService_ask n _) h.off h.crew
      (fun hrun hi hstop m => isIdle_ask hno (h.idle hrun hi hstop m)) (hshown.miss hno)
  | @leave o l r b rs ds ss n ht =>
    have hno : ∀ j, (o.hall.ask n o.hall.token).2 ≠ .job j := fun j hj => by
      rw [ht] at hj
      cases hj
    refine h.of_same (o.hall.sameService_ask n _)
      (fun _ _ _ => cancelled_of_ended (h.opened n) ht)
      (fun hrun m => exists_queue_of_worker (h.crew hrun m) rfl)
      (fun hrun hi hstop m => isIdle_ask hno (h.idle hrun hi hstop m)) ?_
    unfold Service.shift
    simp only [assignments_split, Attendant.assignment?, Option.toList_none] at hshown ⊢
    exact hshown.miss hno
  | @start o l r b rs ds ss n j =>
    refine h.of_worker (by simp) rfl (.refl _) ?_ ?_
    · exact fun hi hstop => absurd hstop (hbusy rfl hi (by
        simp [assignments_split, Attendant.assignment?]))
    · simp only [assignments_split, Attendant.assignment?, Option.toList_some,
        List.append_assoc] at hshown hshift hproper ⊢
      exact hshown.start (hshift.alone hvd) (hproper (.taken n j) (by simp))
  | @log o l r b rs ds ss n j line =>
    refine h.of_worker (by simp) rfl (.refl _) ?_ ?_
    · exact fun hi hstop => absurd hstop (hbusy rfl hi (by
        simp [assignments_split, Attendant.assignment?]))
    · simp only [assignments_split, Attendant.assignment?, Option.toList_some,
        List.append_assoc] at hshown ⊢
      exact hshown.log line
  | @finish o l r b rs ds ss n j verdict hstays =>
    refine h.of_worker (by simp) rfl (o.finish_leaves n hstays).2.1 ?_ ?_
    · exact fun hi hstop => absurd hstop (hbusy rfl hi (by
        simp [assignments_split, Attendant.assignment?]))
    · simp only [assignments_split, Attendant.assignment?, Option.toList_none, Option.toList_some,
        List.append_nil, List.append_assoc] at hshown hshift hproper ⊢
      exact hshown.finish (hshift.alone hvd) (hproper (.begun n j) (by simp)) hstays
  | @strand o l r b rs ds ss n j verdict hstrands =>
    refine h.of_worker (by simp) rfl (o.sameService_finish n j verdict).2 ?_ ?_
    · exact fun hi hstop => absurd hstop (hbusy rfl hi (by
        simp [assignments_split, Attendant.assignment?]))
    · simp only [assignments_split, Attendant.assignment?, Option.toList_some,
        List.append_assoc] at hshown ⊢
      exact hshown.strand hstrands
  | @look o as b rs ds ss hi => exact h.cancel fun _ => (QueueSet.allIdle_iff _).mp hi
  | interrupt => exact h.cancel fun hi => Bool.noConfusion hi
  | returns => exact h.returned fun a ha => hshift.not_waiting hvd ha
  | administer n a ha => exact h.administer n ha
  | pass host now parked =>
    exact ⟨h.opened, h.tokens, h.off, h.crew, h.idle,
      hshown.same_jobs rfl rfl fun _ => .refl _⟩

theorem Reachable.sound (h : Reachable v) (hd : v.Distinct) : v.Sound := by
  induction h with
  | first config adapters host ids => exact .first config adapters host ids
  | step hv hs ih => exact (ih (hs.distinct hd)).step hv hd hs

/-! ## When a run returns -/

/-- When all have left they were told to stop: an attempt may have broken off, but none does
in the queue for healing. -/
theorem Sound.isStopping_of_hasLeft (h : v.Sound) (hr : Reachable v) (hrun : v.running = true)
    (hleft : ∀ a ∈ v.attendants, a.duty.hasLeft = true) : v.isStopping := by
  obtain ⟨a, ha, hqueue⟩ := h.crew hrun .healing
  refine h.off a ha ?_
  have hproper := hr.shift.orderly.1
  have hgone := hleft a ha
  obtain ⟨n, duty⟩ := a
  obtain rfl : n = .healing := hqueue
  cases duty with
  | off => rfl
  | stranded j =>
    have hmem : .stranded .healing j ∈ v.shift.assignments :=
      List.mem_append_left _ (List.mem_filterMap.mpr ⟨_, ha, rfl⟩)
    exact absurd rfl (Job.MayHeal.ne_healing (hproper _ hmem))
  | asking | taken | begun => cases hgone

/-- Where nobody is at work and nothing waits, what broke off is all that is left. -/
theorem Sound.leftWith (h : v.Sound) (hr : Reachable v) (hd : v.Distinct)
    (hnone : v.attendants = []) (hcontents : ∀ n, (v.orchestrator.queue n).contents = []) :
    v.orchestrator.LeftWith v.stranded (v.requests.map Prod.fst) v.dropped := by
  have hassigned : v.shift.assignments = v.stranded := by
    show assignments v.attendants ++ v.stranded = v.stranded
    rw [hnone]
    rfl
  have hids : v.orchestrator.board.toList.map Job.id = v.orchestrator.board.ids :=
    JobBoard.map_id_toList h.shown.own
  have hworking : ∀ a ∈ v.stranded, ∃ j, v.orchestrator.board.get? a.job.id = some j ∧
      j.queue = a.queue ∧ j.status.isTerminal = false :=
    fun a ha => h.shown.working a (hassigned ▸ ha)
  have hactive (n : QueueName) (id : JobId) : id ∈ (v.orchestrator.queue n).active ↔
      ∃ a ∈ v.stranded, a.queue = n ∧ a.job.id = id := by
    rw [← hassigned]
    exact hr.shift.mem_active_iff hd
  refine ⟨fun j hj => ⟨fun hend a ha hid => ?_, fun hother => ?_⟩, fun a ha => ?_, hcontents,
    hactive, ?_, ?_⟩
  · -- a job with a worker is shown as not ended
    obtain ⟨id, hget⟩ := JobBoard.get?_of_mem_toList hj
    obtain ⟨i, hi, -, hrunning⟩ := hworking a ha
    rw [hid, h.shown.own id j hget, hget] at hi
    cases hi
    rw [hend] at hrunning
    cases hrunning
  · obtain ⟨id, hid⟩ := JobBoard.get?_of_mem_toList hj
    refine (h.shown.held id j hid).resolve_right ?_
    rintro (⟨n, hn⟩ | ⟨a, ha, he⟩)
    · exact absurd (hcontents n ▸ hn) List.not_mem_nil
    · exact hother a (hassigned ▸ ha) (he.trans (h.shown.own id j hid).symm)
  · obtain ⟨j, hj, hqueue, -⟩ := hworking a ha
    exact ⟨j, JobBoard.mem_toList hj, h.shown.own _ j hj, hqueue⟩
  · rw [hids]
    exact h.shown.listed
  · rw [hids]
    exact v.orchestrator.board.nodup_ids

theorem step_returned (hrun : v.running = true)
    (hleft : ∀ a ∈ v.attendants, a.duty.hasLeft = true) : Step v v.returned := by
  obtain ⟨o, as, _, b, rs, ds, ss⟩ := v
  obtain rfl := hrun
  exact .returns hleft

/-- **When all workers have left, the run leaves nothing half done but what broke off.**  If
nobody interrupted it, nothing broke off, in this run or before. -/
theorem Reachable.leftWith_returned (h : Reachable v) (hd : v.Distinct) (hrun : v.running = true)
    (hleft : ∀ a ∈ v.attendants, a.duty.hasLeft = true) :
    v.returned.orchestrator.LeftWith v.returned.stranded (v.requests.map Prod.fst)
        (v.dropped ++ v.gone) ∧
      (v.interrupted = false → v.returned.stranded = []) := by
  have hr : Reachable v.returned := h.step (step_returned hrun hleft)
  have hd' : v.returned.Distinct := by
    unfold Distinct returned
    split <;> exact hd
  have hs := h.sound hd
  -- the monitor stopped the workers when it found nothing to do
  have hidle (hi : v.interrupted = false) := hs.idle hrun hi (hs.isStopping_of_hasLeft h hrun hleft)
  refine ⟨(hr.sound hd').leftWith hr hd' rfl fun n => ?_, fun hi => ?_⟩
  · unfold returned
    split
    · exact Orchestrator.contents_halt _ n
    · next hi => exact ((JobQueue.isIdle_iff _).mp (hidle (Bool.eq_false_iff.mpr hi) n)).1
  · exact h.shift.assignments_eq_nil hd (hidle hi)

/-- The attempts that broke off in a service were at plans in the last version that there
is. -/
theorem Reachable.version_of_stranded (h : Reachable v) :
    ∀ a ∈ v.stranded, a.job.plan.version.toNat + 1 = UInt32.size := by
  induction h with
  | first => exact fun _ ha => absurd ha List.not_mem_nil
  | step hv hs ih =>
    cases hs with
    | @returns o as b rs ds ss hleft =>
      intro a ha
      rcases List.mem_append.mp ha with ha | ha
      · obtain ⟨⟨n, duty⟩, hc, hassigned⟩ := List.mem_filterMap.mp ha
        have hgone := hleft _ hc
        cases duty with
        | stranded j =>
          cases hassigned
          exact hv.shift.version_of_stranded (List.mem_append_left _ ha)
        | off => cases hassigned
        | asking | taken | begun => cases hgone
      · exact ih a ha
    | _ => exact ih

/-- **A job that is dropped had not ended**, neither on the board nor in what was told of it. -/
structure Unended (o : Orchestrator) (id : JobId) : Prop where
  shown : ∃ j, o.board.get? id = some j ∧ j.status.isTerminal = false
  told : ∀ e ∈ o.history id, e.isFinish = false

theorem Reachable.unended_of_gone (h : Reachable v) (hd : v.Distinct) {id : JobId}
    (hid : id ∈ v.gone) : Unended v.orchestrator id := by
  unfold gone at hid
  split at hid
  · obtain ⟨n, j, hj, rfl⟩ := (v.orchestrator.hall.mem_gone_iff id).mp hid
    obtain ⟨-, hwaits⟩ := h.shift.orderly
    refine ⟨⟨j, (h.sound hd).shown.waiting n j hj, ?_⟩, ?_⟩
    · rw [(hwaits n j hj).2]
      rfl
    · exact ((h.shift.told hd).contents n j hj).story.isFinish_of_waiting
  · cases hid

end Service

end Testplan
