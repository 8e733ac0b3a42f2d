import Testplan.Proofs.AttemptOutcome
import Testplan.Proofs.RunUntilIdle
/-!
# What a run tells of an attempt

A worker that makes an attempt goes through its course step by step, while others do what
they do.  Whatever that is, the worker stands at some point of the course, and what was told
of its job since it took the job is that the attempt started, and the lines of the steps
that are done (`WorkerPool.Follows.recorded`).  The tail of the job's log holds the same
lines.

The invariant is about one worker at a time (`WorkerPool.RecordedAt`).  A worker tells only
of its own job, and no two workers have the same job (`Service.Underway.id_ne`), so what
others do keeps it.
-/
namespace Testplan

/-- The attempt at a job, if its plan and its adapter are found. -/
def Orchestrator.attempt? (o : Orchestrator) (j : Job) : Option Attempt :=
  match o.plans.get? j.plan, o.adapters.find j.framework with
  | some plan, .ok adapter => some {
      adapter, plan, limitSecs := o.config.jobTimeoutSecs, host := o.host
      environment := j.environment, directory := o.config.attemptDirectory j.id j.attempt }
  | _, _ => none

theorem Orchestrator.course_of_attempt? {o : Orchestrator} {j : Job} {a : Attempt}
    (h : o.attempt? j = some a) : o.course j = a.course := by
  unfold attempt? at h
  unfold course
  split at h
  · next hp ha =>
    rw [hp, ha, ← Option.some.inj h]
    rfl
  · cases h

theorem Orchestrator.history_start_of_ne (o : Orchestrator) {j : Job} {id : JobId}
    (h : id ≠ j.id) : (o.start j).1.history id = o.history id := by
  rw [← o.id_start j] at h
  exact history_report_of_ne (o.record (o.start j).2) _ h

theorem Orchestrator.history_finish_of_ne (o : Orchestrator) {n : QueueName} {j : Job}
    (hj : j.Runs n) (verdict : Verdict) {id : JobId} (h : id ≠ j.id) :
    (o.finish n j verdict).history id = o.history id := by
  cases hs : o.strands j verdict with
  | true =>
    obtain ⟨host, hhost⟩ := o.tidied_eq j
    rw [finish_of_strands hs, hhost]
    rfl
  | false =>
    rcases o.finish_outcome hj hs with ⟨_, -, -, hover⟩ | ⟨-, hend⟩
    · exact hover.other_jobs id h
    · exact hend.other_jobs id h

namespace Service

variable {v : Service} {o : Orchestrator} {as : List Attendant} {b : Bool} {l : List Waiter}
  {i k : Nat}

/-- **No two workers have the same job.** -/
theorem Underway.id_ne (h : Underway v o as b l) (hr : v.Reachable) (hd : v.Distinct)
    {x y : Attendant} (hx : as[i]? = some x) (hy : as[k]? = some y) (hki : k ≠ i)
    {a c : Assignment} (ha : x.assignment? = some a) (hc : y.assignment? = some c) :
    c.job.id ≠ a.job.id := by
  have hlt := (List.getElem?_eq_some_iff.mp hx).1
  have hsplit : as = as.take i ++ x :: as.drop (i + 1) := by
    conv_lhs => rw [← set_self hx, List.set_eq_take_append_cons_drop, if_pos hlt]
  have hmem : c ∈ assignments (as.take i) ++ assignments (as.drop (i + 1)) := by
    unfold assignments
    rw [← List.filterMap_append, ← List.eraseIdx_eq_take_drop_succ]
    exact List.mem_filterMap.mpr ⟨y, List.mem_eraseIdx_iff_getElem?.mpr ⟨k, hki, hy⟩, hc⟩
  have hmem : c ∈ assignments (as.take i) ++ (assignments (as.drop (i + 1)) ++ v.stranded) := by
    rw [← List.append_assoc]
    exact List.mem_append_left _ hmem
  have hshift := (h.run.reachable hr).shift
  unfold Service.shift at hshift
  dsimp only at hshift
  rw [hsplit, assignments_split, ha, Option.toList_some, List.append_assoc, List.append_assoc,
    List.singleton_append] at hshift
  exact (hshift.alone (h.run.distinct hd)).1 c hmem

/-- A job whose attempt has begun runs. -/
theorem Underway.runs (h : Underway v o as b l) (hr : v.Reachable) {n : QueueName} {j : Job}
    (hx : as[i]? = some ⟨n, .begun j⟩) : j.Runs n :=
  (h.run.reachable hr).shift.orderly.1 (.begun n j)
    (List.mem_append_left _ (List.mem_filterMap.mpr ⟨_, List.mem_of_getElem? hx, rfl⟩))

/-- **A job is handed out** to a worker of a queue, in a run that began in `v`. -/
def HandsOut (v : Service) (before : Orchestrator) (n : QueueName) (taken : Job) : Prop :=
  ∃ as b, Run v ⟨before, as, true, b, v.requests, v.dropped, v.stranded⟩ ∧ ⟨n, .taken taken⟩ ∈ as

end Service

/-! ## How far an attempt has come -/

/-- **An attempt has come so far**: it began when the job `taken` was taken, some steps of
its course are done, and others are left. -/
structure Progress (before : Orchestrator) (taken : Job) (done : List RunnerStep)
    (o : Orchestrator) (j : Job) (rest : List RunnerStep) (verdict : Verdict) : Prop where
  steps : done ++ rest = ((before.start taken).1.course (before.start taken).2).steps
  verdict : verdict = ((before.start taken).1.course (before.start taken).2).verdict
  job : j = { (before.start taken).2 with
    logTail := .ofLines before.config.logTailLines (linesOf done) }
  told : o.history j.id = before.history j.id ++
    .started j.queue j.attempt :: (linesOf done).map .log

section Progress
variable {before o o' : Orchestrator} {taken j : Job} {done rest : List RunnerStep}
  {verdict : Verdict}

/-- What is told of other jobs does not matter. -/
theorem Progress.congr (h : Progress before taken done o j rest verdict)
    (ho : o'.history j.id = o.history j.id) : Progress before taken done o' j rest verdict :=
  ⟨h.steps, h.verdict, h.job, ho.trans h.told⟩

/-- An attempt begins with nothing done. -/
theorem Progress.start (before : Orchestrator) (taken : Job) :
    Progress before taken [] (before.start taken).1 (before.start taken).2
      ((before.start taken).1.course (before.start taken).2).steps
      ((before.start taken).1.course (before.start taken).2).verdict := by
  refine ⟨rfl, rfl, rfl, ?_⟩
  exact Orchestrator.history_report_self (before.record (before.start taken).2) _ _

/-- A line is logged. -/
theorem Progress.log {line : String}
    (h : Progress before taken done o j (.line line :: rest) verdict) :
    Progress before taken (done ++ [.line line]) (o.log j line).1 (o.log j line).2 rest
      verdict := by
  obtain ⟨hsteps, hverdict, hjob, htold⟩ := h
  have hlines : linesOf (done ++ [.line line]) = linesOf done ++ [line] := linesOf_append ..
  refine ⟨by rw [← hsteps, List.append_assoc]; rfl, hverdict, ?_, ?_⟩
  · unfold Orchestrator.log
    rw [hlines, LogTail.ofLines, List.foldl_append, hjob]
    rfl
  · have hlogged : (o.log j line).1.history j.id = _ := Orchestrator.history_report_self o j.id _
    refine hlogged.trans ?_
    rw [hlines, List.map_append, htold, List.append_assoc, List.cons_append]
    rfl

theorem Progress.pause {ms : Time}
    (h : Progress before taken done o j (.pause ms :: rest) verdict) :
    Progress before taken (done ++ [.pause ms]) o j rest verdict := by
  obtain ⟨hsteps, hverdict, hjob, htold⟩ := h
  have hlines : linesOf (done ++ [.pause ms]) = linesOf done := by
    rw [linesOf_append]
    exact List.append_nil _
  refine ⟨by rw [← hsteps, List.append_assoc]; rfl, hverdict, ?_, ?_⟩
  · rw [hlines]
    exact hjob
  · rw [hlines]
    exact htold

end Progress

/-! ## Turns of a pool -/

namespace WorkerPool

open Service

variable {p q : WorkerPool} {v : Service} {i k : Nat} {n : QueueName}

/-- A worker of a queue makes an attempt at a job. -/
def Busy (p : WorkerPool) (i : Nat) (n : QueueName) (j : Job) (rest : List RunnerStep)
    (verdict : Verdict) : Prop :=
  ∃ due, p.workers[i]? = some { queue := n, activity := .busy j rest verdict due }

/-- **What was told of the worker's job is how far its attempt has come.** -/
def RecordedAt (v : Service) (p : WorkerPool) (i : Nat) : Prop :=
  ∀ n j rest verdict, p.Busy i n j rest verdict →
    ∃ before taken done, v.HandsOut before n taken ∧
      Progress before taken done p.orchestrator j rest verdict

/-- A worker that goes on with what it does, while nothing is told of its job. -/
theorem RecordedAt.congr (h : RecordedAt v p i) (hworker : q.workers[i]? = p.workers[i]?)
    (ho : ∀ n j rest verdict, p.Busy i n j rest verdict →
      q.orchestrator.history j.id = p.orchestrator.history j.id) : RecordedAt v q i := by
  rintro n j rest verdict ⟨due, hbusy⟩
  have hbefore : p.Busy i n j rest verdict := ⟨due, hworker ▸ hbusy⟩
  obtain ⟨before, taken, done, hout, hprogress⟩ := h n j rest verdict hbefore
  exact ⟨before, taken, done, hout, hprogress.congr (ho n j rest verdict hbefore)⟩

/-- A worker that takes the next step of its course. -/
theorem RecordedAt.advance (h : RecordedAt v p i) {j j' : Job} {step : RunnerStep}
    {rest : List RunnerStep} {verdict : Verdict} (hbusy : p.Busy i n j (step :: rest) verdict)
    {due : Time}
    (hworker : q.workers[i]? = some { queue := n, activity := .busy j' rest verdict due })
    (hstep : ∀ before taken done,
      Progress before taken done p.orchestrator j (step :: rest) verdict →
      ∃ done', Progress before taken done' q.orchestrator j' rest verdict) : RecordedAt v q i := by
  obtain ⟨before, taken, done, hout, hprogress⟩ := h n j (step :: rest) verdict hbusy
  rintro m k rest' verdict' ⟨due', hafter⟩
  cases hworker.symm.trans hafter
  obtain ⟨done', hprogress⟩ := hstep before taken done hprogress
  exact ⟨before, taken, done', hout, hprogress⟩

/-- A worker that makes no attempt has nothing recorded. -/
theorem recordedAt_of_idle {w : Worker} (hw : p.workers[i]? = some w)
    (hidle : ∀ j, w.activity.duty ≠ .begun j) : RecordedAt v p i := by
  rintro n j rest verdict ⟨due, hbusy⟩
  rw [hw] at hbusy
  rw [Option.some.inj hbusy] at hidle
  exact absurd rfl (hidle j)

theorem Busy.attendant {j : Job} {rest : List RunnerStep} {verdict : Verdict}
    (h : p.Busy i n j rest verdict) : p.attendants[i]? = some ⟨n, .begun j⟩ := by
  obtain ⟨due, hw⟩ := h
  exact getElem?_attendants hw

theorem getElem?_assign_of_ne (p : WorkerPool) (n : QueueName) (a : Activity) (hki : k ≠ i) :
    (p.assign i n a).workers[k]? = p.workers[k]? := List.getElem?_set_ne hki.symm

theorem getElem?_answer_of_ne (p : WorkerPool) (n : QueueName) (job : Option Job) (hki : k ≠ i) :
    (p.answer i n job).workers[k]? = p.workers[k]? := by
  cases job with
  | none => exact p.getElem?_assign_of_ne n .stopped hki
  | some j => exact p.getElem?_assign_of_ne n _ hki

theorem getElem?_assign_self (hlt : i < p.workers.length) (n : QueueName) (a : Activity) :
    (p.assign i n a).workers[i]? = some { queue := n, activity := a } :=
  List.getElem?_set_self hlt

/-- **A worker learns whether there is a job**, and so do others after it, who wait. -/
theorem recordedAt_answer {job : Option Job} {os : List (Nat × Option Job)}
    (hr : v.Reachable) (hd : v.Distinct) (hlt : i < p.workers.length)
    (hi : i ∉ os.map Prod.fst)
    (hwait : ∀ k ∈ os.map Prod.fst, ∀ n j rest verdict, ¬ p.Busy k n j rest verdict)
    (h : Underway v p.orchestrator
      (answered (p.attendants.set i (Attendant.told ⟨n, .asking⟩ job)) os) p.interrupted [])
    (hrecorded : ∀ k, k ≠ i → RecordedAt v p k) (k : Nat) : RecordedAt v (p.answer i n job) k := by
  have hlt' : i < p.attendants.length := Nat.lt_of_lt_of_eq hlt (List.length_map _).symm
  cases job with
  | none =>
    by_cases hki : k = i
    · subst hki
      exact recordedAt_of_idle (getElem?_assign_self hlt n .stopped) fun _ he => nomatch he
    · exact (hrecorded k hki).congr (p.getElem?_assign_of_ne n .stopped hki) fun _ _ _ _ _ => rfl
  | some j =>
    have hx : (answered (p.attendants.set i ⟨n, .taken j⟩) os)[i]? = some ⟨n, .taken j⟩ := by
      rw [getElem?_answered hi, List.getElem?_set_self hlt']
    by_cases hki : k = i
    · subst hki
      rintro m j' rest verdict ⟨due, hbusy⟩
      have hself : (p.answer k n (some j)).workers[k]? = _ := getElem?_assign_self hlt n _
      rw [hself] at hbusy
      cases hbusy
      exact ⟨p.orchestrator, j, [], ⟨_, _, h.run, List.mem_of_getElem? hx⟩,
        (Progress.start p.orchestrator j).congr rfl⟩
    · refine (hrecorded k hki).congr (p.getElem?_assign_of_ne n _ hki) ?_
      intro m j' rest verdict hbusy
      -- the other worker has another job
      have hk : k ∉ os.map Prod.fst := fun hk => hwait k hk m j' rest verdict hbusy
      have hy : (answered (p.attendants.set i ⟨n, .taken j⟩) os)[k]? = some ⟨m, .begun j'⟩ := by
        rw [getElem?_answered hk, List.getElem?_set_ne (Ne.symm hki), hbusy.attendant]
      have hne : j'.id ≠ j.id := h.id_ne hr hd hx hy hki rfl rfl
      exact Orchestrator.history_start_of_ne p.orchestrator hne

/-- A worker asks its queue for a job. -/
theorem recordedAt_ask (hr : v.Reachable) (hd : v.Distinct) (hlt : i < p.workers.length)
    (h : Underway v p.orchestrator (p.attendants.set i ⟨n, .asking⟩) p.interrupted [])
    (hi : i ∉ p.orchestrator.hall.parked.map Waiter.who)
    (hrecorded : ∀ k, k ≠ i → RecordedAt v p k) (k : Nat) : RecordedAt v (p.ask i n) k := by
  have hx : (p.attendants.set i ⟨n, .asking⟩)[i]? = some ⟨n, .asking⟩ :=
    List.getElem?_set_self (Nat.lt_of_lt_of_eq hlt (List.length_map _).symm)
  have hattended := h.attend hx hi
  have hhall : ∀ hall, ∀ k, k ≠ i → RecordedAt v (p.withHall hall) k :=
    fun hall k hk => (hrecorded k hk).congr rfl fun _ _ _ _ _ => rfl
  rw [ask_eq]
  cases hout : (p.orchestrator.hall.attend i n p.orchestrator.hall.token).2 with
  | none =>
    dsimp only
    by_cases hki : k = i
    · subst hki
      exact recordedAt_of_idle (getElem?_assign_self (p := p.withHall _) hlt n .waiting)
        fun _ he => nomatch he
    · exact (hhall _ k hki).congr (getElem?_assign_of_ne _ n .waiting hki) fun _ _ _ _ _ => rfl
  | some job =>
    rw [hout] at hattended
    have hanswered : Underway v _ (answered _ [(i, job)]) _ [] := hattended
    rw [answered_single hx, List.set_set] at hanswered
    have hfresh : i ∉ ([] : List (Nat × Option Job)).map Prod.fst := List.not_mem_nil
    exact recordedAt_answer
      (p := p.withHall (p.orchestrator.hall.attend i n p.orchestrator.hall.token).1) hr hd hlt
      hfresh (fun k hk => absurd hk List.not_mem_nil) hanswered (hhall _) k

/-- The answers reach those who wait, one after the other. -/
theorem recordedAt_answers {os : List (Nat × Option Job)} (hr : v.Reachable) (hd : v.Distinct)
    (honce : (os.map Prod.fst).Nodup)
    (hwait : ∀ k ∈ os.map Prod.fst, ∀ n j rest verdict, ¬ p.Busy k n j rest verdict)
    (h : Underway v p.orchestrator (answered p.attendants os) p.interrupted [])
    (hrecorded : ∀ k, RecordedAt v p k) (k : Nat) :
    RecordedAt v (os.foldl (fun p (e : Nat × Option Job) => match p.workers[e.1]? with
      | some w => p.answer e.1 w.queue e.2
      | none => p) p) k := by
  induction os generalizing p with
  | nil => exact hrecorded k
  | cons e rest ih =>
    obtain ⟨hi, honce⟩ := List.nodup_cons.mp honce
    have h : Underway v p.orchestrator (answered (answered p.attendants [e]) rest)
      p.interrupted [] := h
    have hrest : ∀ k ∈ rest.map Prod.fst, ∀ n j rest verdict, ¬ p.Busy k n j rest verdict :=
      fun k hk => hwait k (List.mem_cons_of_mem _ hk)
    rw [List.foldl_cons]
    cases hw : p.workers[e.1]? with
    | none =>
      rw [answered_of_absent hw] at h
      exact ih honce hrest h hrecorded
    | some w =>
      have hlt := (List.getElem?_eq_some_iff.mp hw).1
      rw [answered_single (getElem?_attendants hw)] at h
      refine ih honce ?_ (underway_answer rest hlt hi h)
        (recordedAt_answer hr hd hlt hi hrest h fun k _ => hrecorded k)
      -- those who are yet to be answered still wait
      rintro k hk n j rest' verdict ⟨due, hbusy⟩
      have hke : k ≠ e.1 := fun he => hi (he ▸ hk)
      rw [p.getElem?_answer_of_ne w.queue e.2 hke] at hbusy
      exact hrest k hk n j rest' verdict ⟨due, hbusy⟩

/-- All who wait and can ask again are answered. -/
theorem Follows.recorded_serve (h : p.Follows v) (hr : v.Reachable) (hd : v.Distinct)
    (hrecorded : ∀ k, RecordedAt v p k) (k : Nat) : RecordedAt v p.serve k := by
  have hsub := p.orchestrator.hall.fst_settle
  have hwait : ∀ k ∈ p.orchestrator.hall.settle.2.map Prod.fst, ∀ n j rest verdict,
      ¬ p.Busy k n j rest verdict := by
    intro k hk n j rest verdict hbusy
    exact h.seated.not_mem hbusy.attendant nofun (hsub.subset hk)
  exact recordedAt_answers (p := p.withHall p.orchestrator.hall.settle.1) hr hd
    (hsub.nodup h.seated.once) hwait h.settle
    (fun k => (hrecorded k).congr rfl fun _ _ _ _ _ => rfl) k

/-- **A busy worker goes on**: its attempt ends and it asks for another job, the attempt breaks
off, or the worker takes the next step of the course. -/
theorem Follows.recorded_act (h : p.Follows v) (hr : v.Reachable) (hd : v.Distinct)
    (hrecorded : ∀ k, RecordedAt v p k) {w : Worker} (hw : p.workers[i]? = some w) (k : Nat) :
    RecordedAt v (p.act i w) k := by
  have hlt := (List.getElem?_eq_some_iff.mp hw).1
  have hx := getElem?_attendants hw
  unfold WorkerPool.act
  split
  · exact hrecorded k
  · exact hrecorded k
  · exact hrecorded k
  · next j verdict due ha =>
    rw [ha] at hx
    -- the end of an attempt is told of its own job only
    have hothers : ∀ k, k ≠ i → RecordedAt v
        { p with orchestrator := p.orchestrator.finish w.queue j verdict } k := by
      intro k hki
      refine (hrecorded k).congr rfl fun n j' rest verdict' hbusy => ?_
      have hne : j'.id ≠ j.id := h.id_ne hr hd hx hbusy.attendant hki rfl rfl
      exact p.orchestrator.history_finish_of_ne (h.runs hr hx) verdict hne
    dsimp only
    cases hs : p.orchestrator.strands j verdict with
    | true =>
      rw [if_pos rfl]
      by_cases hki : k = i
      · subst hki
        exact recordedAt_of_idle (getElem?_assign_self (p := { p with orchestrator := _ }) hlt
          w.queue (.stranded (Orchestrator.judged j verdict))) fun _ he => nomatch he
      · exact (hothers k hki).congr (getElem?_assign_of_ne _ w.queue _ hki) fun _ _ _ _ _ => rfl
    | false =>
      rw [if_neg Bool.false_ne_true]
      have hi := h.seated.not_mem hx nofun
      obtain ⟨-, hsame, -⟩ := p.orchestrator.finish_leaves w.queue hs
      have hfinished := h.set hx hi (fun _ _ _ _ _ => .finish hs) hsame
      have hwho := congrArg (List.map Prod.fst) hsame.seats
      rw [List.map_map, List.map_map] at hwho
      exact recordedAt_ask
        (p := { p with orchestrator := p.orchestrator.finish w.queue j verdict }) hr hd hlt
        hfinished (fun hm => hi (hwho ▸ hm)) hothers k
  · next j line rest verdict due ha =>
    rw [ha] at hx
    by_cases hki : k = i
    · subst hki
      exact (hrecorded k).advance ⟨due, by rw [hw, ← ha]⟩
        (getElem?_assign_self (p := { p with orchestrator := (p.orchestrator.log j line).1 }) hlt
          w.queue (.busy (p.orchestrator.log j line).2 rest verdict due))
        fun _ _ _ hprogress => ⟨_, hprogress.log⟩
    · refine (hrecorded k).congr (getElem?_assign_of_ne _ w.queue _ hki) fun n j' _ _ hbusy => ?_
      have hne : j'.id ≠ j.id := h.id_ne hr hd hx hbusy.attendant hki rfl rfl
      exact Orchestrator.history_report_of_ne _ _ hne
  · next j ms rest verdict due ha =>
    by_cases hki : k = i
    · subst hki
      exact (hrecorded k).advance ⟨due, by rw [hw, ← ha]⟩
        (getElem?_assign_self hlt w.queue (.busy j rest verdict (due + ms)))
        fun _ _ _ hprogress => ⟨_, hprogress.pause⟩
    · exact (hrecorded k).congr (getElem?_assign_of_ne _ w.queue _ hki) fun _ _ _ _ _ => rfl

/-- When time passes nothing is told and nobody does anything else. -/
theorem advanceTo_leaves (p : WorkerPool) (t : Time) :
    (p.advanceTo t).workers = p.workers ∧
      (p.advanceTo t).orchestrator.events = p.orchestrator.events := by
  unfold advanceTo
  dsimp only
  split
  · exact ⟨rfl, rfl⟩
  · split
    · exact ⟨rfl, rfl⟩
    · split <;> exact ⟨rfl, rfl⟩

/-- Every turn keeps the records. -/
theorem Follows.recorded_turn (h : p.Follows v) (hr : v.Reachable) (hd : v.Distinct)
    (hrecorded : ∀ k, RecordedAt v p k) (hq : p.turn? = some q) (k : Nat) :
    RecordedAt v q k := by
  unfold turn? at hq
  dsimp only at hq
  split at hq
  · next w index hfind =>
    cases hq
    have hw := List.mem_of_find?_eq_some hfind
    exact h.recorded_act hr hd hrecorded (List.mem_zipIdx_iff_getElem?.mp hw) k
  · split at hq
    · cases hq
      exact h.recorded_serve hr hd hrecorded k
    · split at hq
      · cases hq
      · obtain ⟨t, -, rfl⟩ := Option.map_eq_some_iff.mp hq
        obtain ⟨hworkers, hevents⟩ := p.advanceTo_leaves t
        exact (hrecorded k).congr (by rw [hworkers]) fun _ j _ _ _ =>
          Orchestrator.history_congr hevents j.id

theorem Follows.recorded_run (h : p.Follows v) (hr : v.Reachable) (hd : v.Distinct)
    (hrecorded : ∀ k, RecordedAt v p k) (limit k : Nat) : RecordedAt v (p.run limit) k := by
  induction limit generalizing p with
  | zero => exact hrecorded k
  | succ limit ih =>
    unfold WorkerPool.run
    split
    · next q hq => exact ih (h.turn hq) (h.recorded_turn hr hd hrecorded hq)
    · exact hrecorded k

end WorkerPool

/-! ## Attempts of a run -/

namespace Service

open WorkerPool

variable {v : Service}

/-- **In every run, what was told of a job is how far its attempt has come.** -/
theorem Reachable.recorded (h : v.Reachable) (hd : v.Distinct) (hv : v.running = false)
    (turns : Nat) (interruption : Option Time) (i : Nat) :
    RecordedAt v ((v.orchestrator.workers interruption).run turns) i := by
  obtain ⟨hfollows, hrecorded⟩ := Orchestrator.follows_workers
    (P := fun p => ∀ k, RecordedAt v p k) h hd hv interruption
    (fun p hp k n j rest verdict ⟨due, hbusy⟩ => by
      cases hp _ (List.mem_of_getElem? hbusy))
    (fun hlt hu hi hp => recordedAt_ask h hd hlt hu hi fun k _ => hp k)
    (fun p hp k => (hp k).congr rfl fun _ _ _ _ _ => rfl)
  exact hfollows.recorded_run h hd hrecorded turns i

end Service

namespace Sample

/-- What a worker does, if it makes an attempt. -/
def atWork? (p : WorkerPool) (i : Nat) : Option (QueueName × Job × List RunnerStep × Verdict) :=
  match p.workers[i]? with
  | some { queue, activity := .busy j rest verdict _ } => some (queue, j, rest, verdict)
  | _ => none

theorem busy_of_atWork? {p : WorkerPool} {i : Nat} {n : QueueName} {j : Job}
    {rest : List RunnerStep} {verdict : Verdict} (h : atWork? p i = some (n, j, rest, verdict)) :
    p.Busy i n j rest verdict := by
  unfold atWork? at h
  split at h
  · next due hw =>
    cases h
    exact ⟨due, hw⟩
  · cases h

end Sample

namespace Service

end Service

end Testplan
