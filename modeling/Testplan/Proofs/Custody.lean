import Testplan.Proofs.Placement
/-!
# Who has a job

At every moment a job that has not ended is in the hands of at most one party: it waits in
one queue, or one routine has it, be it the submission that made it or the worker that
took it.  An ended job is in nobody's hands.  The **custody** of an identifier counts the
hands and the ends (`Interleaving.custody`), and in every interleaving whose identifiers
differ it is at most one (`Interleaving.Reachable.custody_le_one`): a call passes a job on
but never copies it, and a new job gets an identifier that nobody has.
-/
namespace Testplan

/-! ## Identifiers that are in use -/

namespace Routine

/-- The job that a routine attends to. -/
def job? : Routine → Option Job
  | submitting _ => none
  | adding _ j | listing _ j | announcing _ j => some j
  | opening _ j | starting _ j | fetching _ j | working _ j => some j
  | correcting _ j | storing _ j _ | handing _ j _ => some j
  | releasing _ _ j | relisting _ j | telling _ j | requeueing j => some j
  | concluding _ j | finishing _ j | completing _ j => some j

/-- The job that a routine has in its hands: it is in no queue. -/
def owned? : Routine → Option Job
  | adding _ j => some j
  | opening _ j | starting _ j | fetching _ j | working _ j => some j
  | correcting _ j | storing _ j _ | handing _ j _ => some j
  | concluding _ j | finishing _ j | completing _ j => some j
  | submitting _ | listing .. | announcing .. => none
  | releasing .. | relisting .. | telling .. | requeueing _ => none

/-- A routine attends to the job that it has. -/
theorem job?_of_owned? {t : Routine} {j : Job} (h : t.owned? = some j) : t.job? = some j := by
  cases t <;> first | exact h | cases h

end Routine

/-- The job that a call is about. -/
def Call.subject? : Call → Option JobId
  | create _ _ j | add _ j | take _ _ j | fetch j _ | judge j _ | consult j | correct j _
  | complete _ j | record j => some j.id
  | refuse _ id | release _ id | send id _ => some id
  | accept _ | ask .. | poll .. | administer .. | remove _ | surroundings .. => none

/-- The job that a routine attends to, if there is a routine. -/
def Routine.subject? (t : Option Routine) : Option JobId := t.bind fun x => x.job?.map Job.id

theorem Intake.subject?_routine? (r : Intake) : Routine.subject? r.routine? = none := by
  unfold routine?
  split <;> rfl

theorem Orchestrator.id_requeue {j healed : Job} {r : PlanRef}
    (h : j.requeueForHealing? r = some healed) : healed.id = j.id := by
  obtain ⟨-, rfl⟩ := (Job.requeueForHealing?_eq_some_iff j r healed).mp h
  rfl

/-- **A call is about the job of its routine**, and the routine goes on with that job;
only a job that is made or taken is new to it. -/
theorem Moves.subject {o : Orchestrator} {t t' : Option Routine} {c : Call} {id : JobId}
    (h : Moves o t c t') (hid : c.subject? = some id ∨ Routine.subject? t' = some id) :
    Routine.subject? t = some id ∨
      (∃ n token j, c = .take n token j ∧ j ∈ (o.queue n).contents ∧ j.id = id) ∨
      (∃ s part j, c = .create s part j ∧ id.uuid = o.ids.draw.1) := by
  have last : ∀ {i : Option JobId} {r : Intake},
      (i = some id ∨ Routine.subject? r.routine? = some id) → i = some id := by
    intro i r h
    rcases h with h | h
    · exact h
    · rw [r.subject?_routine?] at h
      cases h
  have renamed : ∀ {i j : Job}, i.id = j.id → some i.id = some id → some j.id = some id :=
    fun he h => he ▸ h
  cases h with
  | accept => exact nomatch last hid
  | create =>
    refine .inr (.inr ⟨_, _, _, rfl, ?_⟩)
    rcases hid with h | h <;> exact congrArg JobId.uuid (Option.some.inj h).symm
  | @take n token j ht =>
    refine .inr (.inl ⟨n, token, j, rfl, Orchestrator.mem_contents_of_take ht, ?_⟩)
    rcases hid with h | h <;> exact Option.some.inj h
  | announce => exact .inl (last hid)
  | decline | requeue | complete => exact .inl (hid.elim (fun h => h) nofun)
  | @openAttempt n j => exact .inl (hid.elim (renamed (o.id_start j)) (renamed (o.id_start j)))
  | @fail n j v _ => exact .inl (hid.elim (fun h => h) (renamed (Orchestrator.id_judged j v)))
  | @settle n j v _ => exact .inl (hid.elim (fun h => h) (renamed (Orchestrator.id_judged j v)))
  | @despair n j e _ =>
    exact .inl (hid.elim (fun h => h) (renamed (Orchestrator.id_withRemark j e)))
  | @hand n j h healed hall hj _ =>
    have same := Orchestrator.id_requeue hj
    exact .inl (hid.elim (renamed same) (renamed same))
  | miss | poll | administer | remove | surroundings => exact hid.elim nofun nofun
  -- the call and the routine after it are about the same job
  | _ => exact .inl (hid.elim (fun h => h) fun h => h)

namespace Interleaving

/-- All identifiers of jobs that are in use were drawn. -/
structure Known (w : Interleaving) : Prop where
  tasks : ∀ t ∈ w.tasks, ∀ id, Routine.subject? (some t) = some id →
    w.orchestrator.ids.HasDrawn id.uuid
  contents : ∀ n, ∀ j ∈ (w.orchestrator.queue n).contents,
    w.orchestrator.ids.HasDrawn j.id.uuid
  calls : ∀ c ∈ w.calls, ∀ id, c.subject? = some id → w.orchestrator.ids.HasDrawn id.uuid

theorem Known.step {v w : Interleaving} (h : v.Known) (hs : Step v w) : w.Known := by
  cases hs with
  | @serve o t t' c hm l r calls =>
    obtain ⟨htasks, hcontents, hcalls⟩ := h
    -- what the call and its routine are about was drawn before or is drawn now
    have fresh : ∀ id, c.subject? = some id ∨ Routine.subject? t' = some id →
        (o.serve c).ids.HasDrawn id.uuid := by
      intro id hid
      rcases hm.subject hid with ht | ⟨n, token, j, -, hj, rfl⟩ | ⟨s, part, j, rfl, hu⟩
      · cases t with
        | none => cases ht
        | some x => exact Orchestrator.hasDrawn_serve (htasks x (by simp) id ht) c
      · exact Orchestrator.hasDrawn_serve (hcontents n j hj) c
      · exact ⟨o.ids.drawn, Nat.lt_succ_self _, hu.symm⟩
    refine ⟨?_, ?_, ?_⟩
    · intro x hx id hid
      rcases mem_tasks_iff.mp hx with hx | hx
      · exact fresh id (.inr (hx ▸ hid))
      · exact Orchestrator.hasDrawn_serve (htasks x (mem_tasks_iff.mpr (.inr hx)) id hid) c
    · intro n j hj
      rcases hm.mem_contents hj with rfl | hold
      · exact fresh j.id (.inl rfl)
      · exact Orchestrator.hasDrawn_serve (hcontents n j hold) c
    · intro d hd id hid
      rcases List.mem_append.mp hd with hd | hd
      · exact Orchestrator.hasDrawn_serve (hcalls d hd id hid) c
      · obtain rfl := List.mem_singleton.mp hd
        exact fresh id (.inl hid)

theorem Reachable.known {w : Interleaving} (h : Reachable w) : w.Known := by
  refine h.invariant ?_ fun v w _ hv hs => hv.step hs
  rintro u ⟨config, adapters, host, ids, rfl⟩
  refine ⟨(fun _ ht => nomatch ht), ?_, (fun _ hc => nomatch hc)⟩
  intro n j hj
  cases n <;> cases hj

end Interleaving

/-! ## Custody -/

/-- The routine has the job with an identifier. -/
def Routine.owns (id : JobId) (t : Routine) : Bool := t.owned?.any fun j => j.id = id

theorem Routine.owns_iff {id : JobId} {t : Routine} :
    t.owns id = true ↔ ∃ j, t.owned? = some j ∧ j.id = id := by
  simp [owns, Option.any_eq_true]

namespace Call

/-- A job with an identifier is made. -/
def creates (id : JobId) : Call → Bool
  | create _ _ j => j.id = id
  | _ => false

/-- A queue gets a job with an identifier. -/
def adds (id : JobId) : Call → Bool
  | add _ j => j.id = id
  | _ => false

/-- A queue hands out a job with an identifier. -/
def takes (id : JobId) : Call → Bool
  | take _ _ j => j.id = id
  | _ => false

/-- A job with an identifier ends. -/
def completes (id : JobId) : Call → Bool
  | complete _ j => j.id = id
  | _ => false

end Call

/-- How often a job with an identifier waits in a queue. -/
def Orchestrator.waiting (o : Orchestrator) (id : JobId) (n : QueueName) : Nat :=
  (o.queue n).contents.countP fun j => j.id = id

/-- How often a job with an identifier waits in any of the queues. -/
def Orchestrator.waitingAnywhere (o : Orchestrator) (id : JobId) : Nat :=
  o.waiting id .run + o.waiting id .healing + o.waiting id .security

/-- What waits after a call waited before it or was added, and was not taken. -/
theorem Moves.waiting {o : Orchestrator} {t t' : Option Routine} {c : Call}
    (h : Moves o t c t') (id : JobId) :
    (o.serve c).waitingAnywhere id + [c].countP (Call.takes id) ≤
      o.waitingAnywhere id + [c].countP (Call.adds id) := by
  -- what holds of the contents of each queue holds of the number of jobs in them
  have one : ∀ n, (o.serve c).waiting id n + (c.left n).countP (fun j => j.id = id) ≤
      o.waiting id n + (c.joined n).countP (fun j => j.id = id) := by
    intro n
    obtain ⟨dropped, hp, -⟩ := h.contents n
    have := hp.countP_eq fun j => decide (j.id = id)
    simp only [List.countP_append] at this
    unfold Orchestrator.waiting
    omega
  have hr := one .run
  have hh := one .healing
  have hs := one .security
  unfold Orchestrator.waitingAnywhere
  cases c with
  | add n j =>
    cases n <;> by_cases hj : j.id = id <;>
      simp [Call.left, Call.joined, Call.takes, Call.adds, hj] at hr hh hs ⊢ <;> omega
  | take n token j =>
    cases n <;> by_cases hj : j.id = id <;>
      simp [Call.left, Call.joined, Call.takes, Call.adds, hj] at hr hh hs ⊢ <;> omega
  | _ =>
    simp only [Call.left, Call.joined, List.countP_nil, Nat.add_zero] at hr hh hs
    simp only [Call.takes, Call.adds, List.countP_cons, List.countP_nil, Bool.false_eq_true,
      if_false]
    omega

/-- A routine has what it had, made or took, less what it added or completed. -/
theorem Moves.owns {o : Orchestrator} {t t' : Option Routine} {c : Call} (h : Moves o t c t')
    (id : JobId) :
    t'.toList.countP (Routine.owns id) + [c].countP (Call.adds id) +
        [c].countP (Call.completes id) ≤
      t.toList.countP (Routine.owns id) + [c].countP (Call.takes id) +
        [c].countP (Call.creates id) := by
  have nothing : ∀ r : Intake, r.routine?.toList.countP (Routine.owns id) = 0 := by
    intro r
    unfold Intake.routine?
    split <;> rfl
  cases h with
  | accept => simp [nothing, Call.adds, Call.completes]
  | announce => simp [nothing, Call.adds, Call.completes]
  | hand hj _ =>
    simp [Routine.owns, Routine.owned?, Call.adds, Call.completes, Call.takes, Call.creates,
      Orchestrator.id_requeue hj]
  | log =>
    simp [Routine.owns, Routine.owned?, Call.adds, Call.completes, Call.takes, Call.creates,
      Orchestrator.log]
  | _ =>
    simp [Routine.owns, Routine.owned?, Call.adds, Call.completes, Call.takes, Call.creates]

namespace Interleaving

/-- **In how many hands a job is**, in queues and with routines, and how often it ended. -/
def custody (w : Interleaving) (id : JobId) : Nat :=
  w.orchestrator.waitingAnywhere id + w.tasks.countP (Routine.owns id) +
    w.calls.countP (Call.completes id)

/-- A call passes jobs on and copies none; only making a job adds a hand. -/
theorem Step.custody {v w : Interleaving} (h : Step v w) {c : Call}
    (hc : w.calls = v.calls ++ [c]) (id : JobId) :
    w.custody id ≤ v.custody id + [c].countP (Call.creates id) := by
  cases h with
  | @serve o t t' d hm l r calls =>
    obtain rfl : d = c := by simpa using List.append_cancel_left hc
    have hw := hm.waiting id
    have ho := hm.owns id
    unfold Interleaving.custody
    simp only [List.countP_append]
    omega

/-- The job that a routine has was drawn. -/
theorem Known.hasDrawn_of_owns {w : Interleaving} (h : w.Known) {t : Routine} (ht : t ∈ w.tasks)
    {id : JobId} (ho : t.owns id = true) : w.orchestrator.ids.HasDrawn id.uuid := by
  obtain ⟨j, hj, rfl⟩ := Routine.owns_iff.mp ho
  refine h.tasks t ht j.id ?_
  show t.job?.map Job.id = some j.id
  rw [Routine.job?_of_owned? hj]
  rfl

/-- Whoever is in somebody's hands was drawn. -/
theorem Known.hasDrawn_of_custody {w : Interleaving} (h : w.Known) {id : JobId}
    (hid : 0 < w.custody id) : w.orchestrator.ids.HasDrawn id.uuid := by
  have waits : ∀ n, 0 < w.orchestrator.waiting id n → w.orchestrator.ids.HasDrawn id.uuid := by
    intro n hn
    obtain ⟨j, hj, he⟩ := List.countP_pos_iff.mp hn
    have := h.contents n j hj
    rwa [of_decide_eq_true he] at this
  unfold custody Orchestrator.waitingAnywhere at hid
  by_cases hr : 0 < w.orchestrator.waiting id .run
  · exact waits _ hr
  by_cases hh : 0 < w.orchestrator.waiting id .healing
  · exact waits _ hh
  by_cases hs : 0 < w.orchestrator.waiting id .security
  · exact waits _ hs
  by_cases ht : 0 < w.tasks.countP (Routine.owns id)
  · obtain ⟨t, hmem, ho⟩ := List.countP_pos_iff.mp ht
    exact h.hasDrawn_of_owns hmem ho
  · have hc : 0 < w.calls.countP (Call.completes id) := by omega
    obtain ⟨c, hc, he⟩ := List.countP_pos_iff.mp hc
    cases c with
    | complete n j => exact h.calls _ hc id (congrArg some (of_decide_eq_true he))
    | _ => cases he

/-- A new job gets an identifier that was not drawn before. -/
theorem Step.not_hasDrawn_of_creates {v w : Interleaving} (h : Step v w) {c : Call}
    (hc : w.calls = v.calls ++ [c]) (hd : w.Distinct) {id : JobId} (hid : c.creates id = true) :
    ¬ v.orchestrator.ids.HasDrawn id.uuid := by
  cases h with
  | @serve o t t' d hm l r calls =>
    obtain rfl : d = c := by simpa using List.append_cancel_left hc
    cases hm with
    | create =>
      obtain rfl := of_decide_eq_true hid
      exact IdSource.not_hasDrawn_draw hd
    | _ => cases hid

/-- **No job is in two hands**, and none that ended is in anybody's. -/
theorem Reachable.custody_le_one {w : Interleaving} (h : Reachable w) (hd : w.Distinct)
    (id : JobId) : w.custody id ≤ 1 := by
  refine h.invariant_of_distinct hd (P := fun w => w.custody id ≤ 1) ?_ ?_
  · rintro u ⟨config, adapters, host, ids, rfl⟩
    exact Nat.zero_le 1
  · intro v w hv hdw ih hs
    obtain ⟨c, hc⟩ := hs.calls_eq
    have hle := hs.custody hc id
    by_cases hcr : c.creates id = true
    · -- a new job has an identifier that was not drawn before, so nobody has it yet
      have h0 : v.custody id = 0 := by
        rcases Nat.eq_zero_or_pos (v.custody id) with h0 | hp
        · exact h0
        · exact absurd (hv.known.hasDrawn_of_custody hp) (hs.not_hasDrawn_of_creates hc hdw hcr)
      simp only [List.countP_singleton, hcr, if_true, h0] at hle
      omega
    · simp only [List.countP_singleton, hcr] at hle
      simp at hle
      omega

/-- A routine that has a job is alone with it. -/
theorem sole_owner {w : Interleaving} {id : JobId} (h : w.custody id ≤ 1) {l r : List Routine}
    {x : Routine} (ht : w.tasks = l ++ (some x).toList ++ r) (hx : x.owns id = true) :
    (∀ y ∈ l ++ r, ¬ y.owns id = true) ∧
      (∀ n, ∀ j ∈ (w.orchestrator.queue n).contents, j.id ≠ id) ∧
      ∀ n j, Call.complete n j ∈ w.calls → j.id ≠ id := by
  -- one of the hands is the one of the routine, which leaves none to all others
  have hself : (some x).toList.countP (Routine.owns id) = 1 := by simp [hx]
  unfold custody at h
  rw [ht, List.countP_append, List.countP_append, hself] at h
  refine ⟨?_, ?_, ?_⟩
  · have h0 : (l ++ r).countP (Routine.owns id) = 0 := by
      rw [List.countP_append]
      omega
    exact List.countP_eq_zero.mp h0
  · intro n j hj he
    have hw : w.orchestrator.waiting id n = 0 := by
      unfold Orchestrator.waitingAnywhere at h
      cases n <;> omega
    exact List.countP_eq_zero.mp hw j hj (decide_eq_true he)
  · intro n j hj he
    have hc : w.calls.countP (Call.completes id) = 0 := by omega
    exact List.countP_eq_zero.mp hc _ hj (decide_eq_true he)

/-- A job that waits in a queue is with no routine and has not ended. -/
theorem sole_waiting {w : Interleaving} {id : JobId} (h : w.custody id ≤ 1) {n : QueueName}
    {j : Job} (hj : j ∈ (w.orchestrator.queue n).contents) (he : j.id = id) :
    (∀ y ∈ w.tasks, ¬ y.owns id = true) ∧
      (∀ m, m ≠ n → ∀ i ∈ (w.orchestrator.queue m).contents, i.id ≠ id) ∧
      ∀ n j, Call.complete n j ∈ w.calls → j.id ≠ id := by
  have hself : 0 < w.orchestrator.waiting id n :=
    List.countP_pos_iff.mpr ⟨j, hj, decide_eq_true he⟩
  unfold custody Orchestrator.waitingAnywhere at h
  refine ⟨?_, ?_, ?_⟩
  · have ht : w.tasks.countP (Routine.owns id) = 0 := by cases n <;> omega
    exact List.countP_eq_zero.mp ht
  · intro m hm i hi hie
    have hw : w.orchestrator.waiting id m = 0 := by
      cases n <;> cases m <;> first | exact absurd rfl hm | omega
    exact List.countP_eq_zero.mp hw i hi (decide_eq_true hie)
  · intro m i hi hie
    have hc : w.calls.countP (Call.completes id) = 0 := by cases n <;> omega
    exact List.countP_eq_zero.mp hc _ hi (decide_eq_true hie)

end Interleaving

end Testplan
