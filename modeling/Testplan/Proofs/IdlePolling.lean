import Testplan.Proofs.Announcements
import Testplan.Proofs.Schedule
/-!
# Looking whether all queues are idle

Whether all queues are idle is found out in three calls: first the queue for ordinary runs
is asked, then the one for healing, then the one for security.  Between these calls the
workers go on.  The answers are right for the first and the last queue as long as nothing
is submitted, since only submissions add to these.

The queue for healing may get a job after it was asked, from a worker of the queue for
security that gives its own entry up before that queue is asked in turn.  So three
favourable answers say that everything is idle **exactly if** every job that was handed
over for healing between the second and the third answer has ended in that time
(`Interleaving.allIdle_iff_additions_completed`), and in general they do not say it
(`Interleaving.idle_answers_with_waiting_job`).

A queue **holds** a job that waits in it or is active.  It begins to hold a job when the
job is added and holds it until the job is completed or released
(`Interleaving.Step.holds`).
-/
namespace Testplan

/-- The queue has the job to hand out, or has handed it out. -/
def Orchestrator.Holds (o : Orchestrator) (n : QueueName) (id : JobId) : Prop :=
  (∃ j ∈ (o.queue n).contents, j.id = id) ∨ id ∈ (o.queue n).active

theorem Orchestrator.isIdle_iff_not_holds (o : Orchestrator) (n : QueueName) :
    (o.queue n).isIdle = true ↔ ∀ id, ¬ o.Holds n id := by
  rw [JobQueue.isIdle_iff]
  constructor
  · rintro ⟨hc, ha⟩ id (⟨j, hj, -⟩ | hid)
    · rw [hc] at hj
      cases hj
    · rw [ha] at hid
      cases hid
  · intro h
    refine ⟨List.eq_nil_iff_forall_not_mem.mpr ?_, List.eq_nil_iff_forall_not_mem.mpr ?_⟩
    · exact fun j hj => h j.id (.inl ⟨j, hj, rfl⟩)
    · exact fun id hid => h id (.inr hid)

/-- The call is none by which a submission adds to a queue or by which a queue is
administered. -/
def Call.isOfWorker : Call → Bool
  | .add n _ => n = .healing
  | .administer .. => false
  | _ => true

namespace Interleaving

/-- **A queue holds what is added to it**, and nothing else. -/
theorem Step.holds {v w : Interleaving} (h : Step v w) {c : Call}
    (hc : w.calls = v.calls ++ [c]) {n : QueueName} {id : JobId}
    (hw : w.orchestrator.Holds n id) :
    v.orchestrator.Holds n id ∨ ∃ j, c = .add n j ∧ j.id = id := by
  obtain ⟨t, t', hm, ho⟩ := h.moves hc
  rw [ho] at hw
  rcases hw with ⟨j, hj, rfl⟩ | hid
  · rcases hm.mem_contents hj with hadd | hold
    · exact .inr ⟨j, hadd, rfl⟩
    · exact .inl (.inl ⟨j, hold, rfl⟩)
  · rcases (hm.mem_active_iff n id).mp hid with ⟨hold, -, -⟩ | ⟨token, j, rfl, rfl⟩
    · exact .inl (.inr hold)
    · cases hm with
      | take ht => exact .inl (.inl ⟨j, Orchestrator.mem_contents_of_take ht, rfl⟩)

/-- **A queue holds its jobs** until they are released, completed or dropped. -/
theorem Step.holds_of_holds {v w : Interleaving} (h : Step v w) {c : Call}
    (hc : w.calls = v.calls ++ [c]) {n : QueueName} {id : JobId}
    (hv : v.orchestrator.Holds n id ∨ ∃ j, c = .add n j ∧ j.id = id) :
    w.orchestrator.Holds n id ∨ c = .release n id ∨ (∃ j, c = .complete n j ∧ j.id = id) ∨
      ∃ a, c = .administer n a := by
  obtain ⟨t, t', hm, ho⟩ := h.moves hc
  rw [ho]
  -- what was in the contents or joins them stays, is handed out or dropped
  have stays : ∀ j, (j ∈ c.joined n ∨ j ∈ (v.orchestrator.queue n).contents) → j.id = id →
      (v.orchestrator.serve c).Holds n id ∨ ∃ a, c = .administer n a := by
    intro j hj he
    obtain ⟨dropped, hp, hd⟩ := hm.contents n
    have hmem := hp.mem_iff.mpr (List.mem_append.mpr hj)
    rw [List.mem_append, List.mem_append] at hmem
    rcases hmem with (hmem | hmem) | hmem
    · rcases hd with rfl | hd
      · cases hmem
      · exact .inr hd
    · refine .inl (.inr ((hm.mem_active_iff n id).mpr (.inr ?_)))
      obtain ⟨token, rfl⟩ := Call.mem_left_iff.mp hmem
      exact ⟨token, j, rfl, he⟩
    · exact .inl (.inl ⟨j, hmem, he⟩)
  rcases hv with (⟨j, hj, he⟩ | hid) | ⟨j, rfl, he⟩
  · rcases stays j (.inr hj) he with hs | hs
    · exact .inl hs
    · exact .inr (.inr (.inr hs))
  · rcases hm.active hid with hs | hs | hs
    · exact .inl (.inr hs)
    · exact .inr (.inl hs)
    · exact .inr (.inr (.inl hs))
  · rcases stays j (.inl (Call.mem_joined_iff.mpr rfl)) he with hs | hs
    · exact .inl hs
    · exact .inr (.inr (.inr hs))

/-- The queue for healing releases nothing: what ran there has ended. -/
theorem Step.ne_release_healing {v w : Interleaving} (h : Step v w) (hv : v.Orderly) {c : Call}
    (hc : w.calls = v.calls ++ [c]) (id : JobId) : c ≠ .release .healing id := by
  rintro rfl
  cases h with
  | @serve o t t' d hm l r calls =>
    obtain rfl : d = .release .healing id := by simpa using List.append_cancel_left hc
    cases hm with
    | @release _ p healed => exact (hv.tasks (.releasing .healing p healed) (by simp)).2 rfl

/-- **An ended job is not held by the queue that it ended in.** -/
theorem Reachable.not_holds_of_complete {w : Interleaving} (h : Reachable w) (hd : w.Distinct)
    {n : QueueName} {i : Job} (hc : Call.complete n i ∈ w.calls) :
    ¬ w.orchestrator.Holds n i.id := by
  refine h.invariant_of_distinct hd
    (P := fun w => Call.complete n i ∈ w.calls → ¬ w.orchestrator.Holds n i.id) ?_ ?_ hc
  · rintro u ⟨config, adapters, host, ids, rfl⟩ hc
    cases hc
  · intro v w hv hw ih hs hc
    -- an ended job is in nobody's hands, so it does not wait
    have hwaits : ∀ j ∈ (w.orchestrator.queue n).contents, j.id ≠ i.id := by
      intro j hj he
      exact (sole_waiting ((hv.step hs).custody_le_one hw i.id) hj he).2.2 n i hc rfl
    rintro (⟨j, hj, he⟩ | hid)
    · exact hwaits j hj he
    · obtain ⟨c, hcalls⟩ := hs.calls_eq
      obtain ⟨t, t', hm, ho⟩ := hs.moves hcalls
      rw [ho] at hid
      rw [hcalls] at hc
      rcases (hm.mem_active_iff n i.id).mp hid with ⟨hold, -, hnot⟩ | ⟨token, j, rfl, he⟩
      · rcases List.mem_append.mp hc with hc | hc
        · exact ih hc (.inr hold)
        · exact hnot i (List.mem_singleton.mp hc).symm rfl
      · rcases List.mem_append.mp hc with hc | hc
        · cases hm with
          | take ht => exact ih hc (.inl ⟨j, Orchestrator.mem_contents_of_take ht, he⟩)
        · cases List.mem_singleton.mp hc

/-! ## A stretch of calls -/

/-- A queue holds at the end of a stretch only what it held before or what was added. -/
theorem Steps.holds {v w : Interleaving} (h : Steps v w) {since : List Call}
    (hc : w.calls = v.calls ++ since) {n : QueueName} {id : JobId}
    (hw : w.orchestrator.Holds n id) :
    v.orchestrator.Holds n id ∨ ∃ j, .add n j ∈ since ∧ j.id = id := by
  induction h generalizing since with
  | refl => exact .inl hw
  | @tail u w hu hs ih =>
    obtain ⟨before, c, rfl, hb, hcw⟩ := hu.since_eq hs hc
    rcases hs.holds hcw hw with hold | ⟨j, rfl, rfl⟩
    · rcases ih hb hold with hold | ⟨j, hj, rfl⟩
      · exact .inl hold
      · exact .inr ⟨j, List.mem_append_left _ hj, rfl⟩
    · exact .inr ⟨j, by simp, rfl⟩

/-- What is added for healing in a stretch of workers' calls is held or has ended. -/
theorem Steps.holds_healing {v w : Interleaving} (h : Steps v w) (hr : Reachable v)
    {since : List Call} (hc : w.calls = v.calls ++ since)
    (hq : ∀ c ∈ since, c.isOfWorker = true) {j : Job} (hj : .add .healing j ∈ since) :
    w.orchestrator.Holds .healing j.id ∨ ∃ i, .complete .healing i ∈ since ∧ i.id = j.id := by
  induction h generalizing since with
  | refl =>
    obtain rfl : since = [] := by simpa using hc
    cases hj
  | @tail u w hu hs ih =>
    obtain ⟨before, c, rfl, hb, hcw⟩ := hu.since_eq hs hc
    -- before the last call the job was held, was about to be added, or had ended
    have hheld : u.orchestrator.Holds .healing j.id ∨ (∃ i, c = .add .healing i ∧ i.id = j.id) ∨
        ∃ i, .complete .healing i ∈ before ∧ i.id = j.id := by
      rcases List.mem_append.mp hj with hj | hj
      · rcases ih hb (fun c hc => hq c (List.mem_append_left _ hc)) hj with hold | hold
        · exact .inl hold
        · exact .inr (.inr hold)
      · exact .inr (.inl ⟨j, (List.mem_singleton.mp hj).symm, rfl⟩)
    have ended : (∃ i, .complete .healing i ∈ before ∧ i.id = j.id) →
        ∃ i, .complete .healing i ∈ before ++ [c] ∧ i.id = j.id := by
      rintro ⟨i, hi, he⟩
      exact ⟨i, List.mem_append_left _ hi, he⟩
    have later : (u.orchestrator.Holds .healing j.id ∨ ∃ i, c = .add .healing i ∧ i.id = j.id) →
        w.orchestrator.Holds .healing j.id ∨
          ∃ i, .complete .healing i ∈ before ++ [c] ∧ i.id = j.id := by
      intro hold
      rcases hs.holds_of_holds hcw hold with hw | hw | ⟨i, rfl, he⟩ | ⟨a, rfl⟩
      · exact .inl hw
      · exact absurd hw (hs.ne_release_healing (hr.steps hu).orderly hcw j.id)
      · exact .inr ⟨i, by simp, he⟩
      · cases hq _ (List.mem_append_right _ (List.mem_singleton.mpr rfl))
    rcases hheld with hold | hold | hold
    · exact later (.inl hold)
    · exact later (.inr hold)
    · exact .inr (ended hold)

/-! ## Three answers -/

/-- An answer about a queue is right when it is given, and changes nothing. -/
theorem Step.idle_of_poll {v w : Interleaving} (h : Step v w) {n : QueueName} {idle : Bool}
    (hc : w.calls = v.calls ++ [.poll n idle]) : (w.orchestrator.queue n).isIdle = idle := by
  obtain ⟨t, t', hm, ho⟩ := h.moves hc
  rw [ho]
  cases hm with
  | poll => rfl

/-- An idle queue to which nothing is added stays idle. -/
theorem Steps.idle {v w : Interleaving} (h : Steps v w) {since : List Call}
    (hc : w.calls = v.calls ++ since) {n : QueueName}
    (hv : (v.orchestrator.queue n).isIdle = true) (hq : ∀ j, .add n j ∉ since) :
    (w.orchestrator.queue n).isIdle = true := by
  rw [Orchestrator.isIdle_iff_not_holds] at hv ⊢
  intro id hw
  rcases h.holds hc hw with hold | ⟨j, hj, -⟩
  · exact hv id hold
  · exact hq j hj

/-- The interleaving in which an answer of the history was given. -/
theorem Reachable.at_poll {w : Interleaving} (h : Reachable w) {before after : List Call}
    {n : QueueName} {idle : Bool} (hc : w.calls = before ++ .poll n idle :: after) :
    ∃ v, Reachable v ∧ w.calls = v.calls ++ after ∧
      (v.orchestrator.queue n).isIdle = idle ∧ Steps v w := by
  obtain ⟨u, v, hu, rfl, hs, hvc, hvw⟩ := h.split_at hc
  refine ⟨v, hu.step hs, ?_, hs.idle_of_poll hvc, hvw⟩
  rw [hc, hvc, List.append_assoc]
  rfl

/-- A favourable answer about a queue stays right until something is added to it. -/
theorem Reachable.idle_of_poll {w : Interleaving} (h : Reachable w) {before since : List Call}
    {n : QueueName} (hc : w.calls = before ++ .poll n true :: since)
    (hq : ∀ j, .add n j ∉ since) : (w.orchestrator.queue n).isIdle = true := by
  obtain ⟨v, -, hvc, hidle, hvw⟩ := h.at_poll hc
  exact hvw.idle hvc hidle hq

/-- A favourable answer about the queue for healing is right later on exactly if the jobs
that were added to it since then have ended. -/
theorem Reachable.healing_idle_iff {w : Interleaving} (h : Reachable w) (hd : w.Distinct)
    {before since : List Call} (hc : w.calls = before ++ .poll .healing true :: since)
    (hq : ∀ c ∈ since, c.isOfWorker = true) :
    (w.orchestrator.queue .healing).isIdle = true ↔
      ∀ j, .add .healing j ∈ since → ∃ i, .complete .healing i ∈ since ∧ i.id = j.id := by
  obtain ⟨v, hv, hvc, hidle, hvw⟩ := h.at_poll hc
  rw [Orchestrator.isIdle_iff_not_holds] at hidle ⊢
  constructor
  · intro hnone j hj
    rcases hvw.holds_healing hv hvc hq hj with hw | hended
    · exact absurd hw (hnone j.id)
    · exact hended
  · intro hended id hw
    -- what the queue holds now was added since it was asked, and did not end
    rcases hvw.holds hvc hw with hold | ⟨j, hj, rfl⟩
    · exact hidle id hold
    · obtain ⟨i, hi, he⟩ := hended j hj
      have hi' : .complete .healing i ∈ w.calls := by
        rw [hvc]
        exact List.mem_append_right _ hi
      rw [← he] at hw
      exact h.not_holds_of_complete hd hi' hw

/-- **Three favourable answers are right exactly if the jobs handed over for healing
between the last two have ended.**  In any case nothing is left in the queues for ordinary
runs and for security. -/
theorem allIdle_iff_additions_completed {w : Interleaving} (h : Reachable w) (hd : w.Distinct)
    {before between since : List Call}
    (hc : w.calls = before ++ .poll .run true ::
      (between ++ .poll .healing true :: (since ++ [.poll .security true])))
    (hq : ∀ c ∈ between ++ since, c.isOfWorker = true) :
    ((w.orchestrator.queue .run).isIdle = true ∧
      (w.orchestrator.queue .security).isIdle = true) ∧
    (w.orchestrator.hall.queues.allIdle = true ↔
      ∀ j, .add .healing j ∈ since → ∃ i, .complete .healing i ∈ since ∧ i.id = j.id) := by
  -- after the first answer nothing is added for ordinary runs
  have hrun : (w.orchestrator.queue .run).isIdle = true := by
    refine h.idle_of_poll hc ?_
    intro j hj
    simp only [List.mem_append, List.mem_cons, List.not_mem_nil, reduceCtorEq, false_or,
      or_false] at hj
    cases hq _ (List.mem_append.mpr hj)
  -- the last answer is right when it is given
  have hsecurity : (w.orchestrator.queue .security).isIdle = true := by
    have hlast : w.calls = (before ++ .poll .run true ::
        (between ++ .poll .healing true :: since)) ++ .poll .security true :: [] := by
      rw [hc]
      simp
    exact h.idle_of_poll hlast fun _ hj => List.not_mem_nil hj
  have hhealing : (w.orchestrator.queue .healing).isIdle = true ↔
      ∀ j, .add .healing j ∈ since → ∃ i, .complete .healing i ∈ since ∧ i.id = j.id := by
    have hmiddle : w.calls = (before ++ .poll .run true :: between) ++
        .poll .healing true :: (since ++ [.poll .security true]) := by
      rw [hc]
      simp
    rw [h.healing_idle_iff hd hmiddle ?_]
    · simp
    · intro c hc
      rcases List.mem_append.mp hc with hc | hc
      · exact hq c (List.mem_append_right _ hc)
      · rw [List.mem_singleton.mp hc]
        rfl
  refine ⟨⟨hrun, hsecurity⟩, ?_⟩
  rw [QueueSet.allIdle_iff, ← hhealing]
  constructor
  · exact fun hall => hall .healing
  · intro hh n
    cases n with
    | run => exact hrun
    | healing => exact hh
    | security => exact hsecurity

/-! ## Answers while a job is handed over -/

/-- The three queues are asked in turn, with turns of others before the last answer. -/
def polled (w : Interleaving) (turns : List Turn) : Interleaving :=
  (((w.turn (.poll .run)).turn (.poll .healing)).follow turns).turn (.poll .security)

/-- The calls between the last two answers. -/
def callsBetween (w : Interleaving) (turns : List Turn) : List Call :=
  (((w.turn (.poll .run)).turn (.poll .healing)).follow turns).calls.drop (w.calls.length + 2)

theorem steps_polled (w : Interleaving) (turns : List Turn) : Steps w (w.polled turns) :=
  ((((w.steps_turn _).trans (steps_turn _ _)).trans (steps_follow _ turns)).trans
    (steps_turn _ _))

theorem calls_polled (w : Interleaving) (turns : List Turn)
    (hr : (w.orchestrator.queue .run).isIdle = true)
    (hh : (w.orchestrator.queue .healing).isIdle = true)
    (hs : ((w.polled turns).orchestrator.queue .security).isIdle = true) :
    (w.polled turns).calls = w.calls ++ .poll .run true ::
      ([] ++ .poll .healing true :: (w.callsBetween turns ++ [.poll .security true])) := by
  have hlast : (w.polled turns).calls =
      (((w.turn (.poll .run)).turn (.poll .healing)).follow turns).calls ++
        [.poll .security ((w.polled turns).orchestrator.queue .security).isIdle] := rfl
  have hfirst : ((w.turn (.poll .run)).turn (.poll .healing)).calls =
      w.calls ++ [.poll .run true] ++ [.poll .healing true] := by
    show w.calls ++ [.poll .run (w.orchestrator.queue .run).isIdle] ++
      [.poll .healing (w.orchestrator.queue .healing).isIdle] = _
    rw [hr, hh]
  rw [hlast, calls_follow, hs, hfirst]
  unfold callsBetween
  rw [calls_follow, hfirst]
  simp

end Interleaving

namespace Sample

/-- A job of the queue for security has failed for want of an element, and its plan was
corrected. -/
def corrected : Interleaving := start.follow
  [.submit (submission .security "email"), .go 0, .go 0, .go 0, .go 0,
    .take .security, .go 0, .go 0, .go 0, .judge 0 notFound, .go 0, .go 0]

/-- The turns of the worker that hands the job over. -/
def handover : List Turn := [.go 0, .go 0, .go 0, .go 0, .go 0]

/-- The turns of the worker that brings the healed job to its end. -/
def healedRun : List Turn :=
  [.take .healing, .go 0, .go 0, .go 0, .judge 0 .passed, .go 0, .go 0, .go 0]

/-- The three answers about the queues while the job is handed over. -/
def overlooked : Interleaving := corrected.polled handover

/-- The three answers about the queues when the healed job has ended in the meantime. -/
def caughtUp : Interleaving := corrected.polled (handover ++ healedRun)

theorem steps_polled (turns : List Turn) :
    Interleaving.Steps start (corrected.polled turns) :=
  (start.steps_follow _).trans (corrected.steps_polled turns)

end Sample

namespace Interleaving

/-- **All answers are favourable while a healed job waits.**  The worker of the queue for
security adds the job for healing after that queue was asked, and gives its own entry up
before its own queue is. -/
theorem idle_answers_with_waiting_job :
    Sample.overlooked.Reachable ∧ Sample.overlooked.Distinct ∧
      Sample.overlooked.calls = Sample.corrected.calls ++ .poll .run true ::
        ([] ++ .poll .healing true ::
          (Sample.corrected.callsBetween Sample.handover ++ [.poll .security true])) ∧
      (∀ c ∈ [] ++ Sample.corrected.callsBetween Sample.handover, c.isOfWorker = true) ∧
      (Sample.overlooked.orchestrator.queue .healing).waiting.length = 1 ∧
      Sample.overlooked.orchestrator.hall.queues.allIdle = false := by
  refine ⟨Sample.reachable_start.steps (Sample.steps_polled _), ?_, ?_, ?_, ?_, ?_⟩
  · exact Sample.distinct_of_drawn_le (Sample.steps_polled _) (by decide +kernel)
  · exact calls_polled _ _ (by decide +kernel) (by decide +kernel) (by decide +kernel)
  · exact List.all_eq_true.mp (by decide +kernel)
  · decide +kernel
  · decide +kernel

/-- The answers are right when the healed job has ended before the last of them. -/
theorem idle_answers_after_healing :
    Sample.caughtUp.Reachable ∧ Sample.caughtUp.Distinct ∧
      Sample.caughtUp.orchestrator.hall.queues.allIdle = true ∧
      ∀ j, .add .healing j ∈ Sample.corrected.callsBetween (Sample.handover ++ Sample.healedRun) →
        ∃ i, .complete .healing i ∈
          Sample.corrected.callsBetween (Sample.handover ++ Sample.healedRun) ∧ i.id = j.id := by
  have hr : Sample.caughtUp.Reachable := Sample.reachable_start.steps (Sample.steps_polled _)
  have hd : Sample.caughtUp.Distinct :=
    Sample.distinct_of_drawn_le (Sample.steps_polled _) (by decide +kernel)
  have hidle : Sample.caughtUp.orchestrator.hall.queues.allIdle = true := by decide +kernel
  have hc := calls_polled Sample.corrected (Sample.handover ++ Sample.healedRun)
    (by decide +kernel) (by decide +kernel) (by decide +kernel)
  have hq := List.all_eq_true.mp (by decide +kernel :
    ([] ++ Sample.corrected.callsBetween (Sample.handover ++ Sample.healedRun)).all
      Call.isOfWorker = true)
  exact ⟨hr, hd, hidle, (allIdle_iff_additions_completed hr hd hc hq).2.mp hidle⟩

end Interleaving

end Testplan
