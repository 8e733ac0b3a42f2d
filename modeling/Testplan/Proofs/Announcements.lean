import Testplan.Proofs.Custody
/-!
# Announcing that a job was queued

Whoever adds a job to a queue **announces** it afterwards: the board gets the job with the
state that it was added in.  Until then the announcement is outstanding.  Every addition
is announced at most once (`Interleaving.Reachable.balance`), and a job is added at most
once for each of its attempts (`Interleaving.Reachable.additions_le_one`), since whoever
has a job at an attempt has it after all its additions.  This is the bound of a `Gauge`:
what some calls note about a job stays below a number that does not fall as the job is
passed on (`Gauge.bounds`).

A worker that has a job, or that still has to give it up, keeps it among the active jobs
of its queue (`Interleaving.Reachable.seated`).
-/
namespace Testplan

namespace Call

/-- A queue gets a job at an attempt. -/
def queues (id : JobId) (attempt : Nat) : Call → Bool
  | add _ j => j.id = id && j.attempt = attempt
  | _ => false

/-- A job at an attempt is put on the board as queued. -/
def lists (id : JobId) (attempt : Nat) : Call → Bool
  | record j => j.id = id && j.attempt = attempt && j.status = .queued
  | _ => false

end Call

namespace Routine

/-- The job that was added to a queue and is to be put on the board. -/
def announced? : Routine → Option Job
  | listing _ j | releasing _ _ j | relisting _ j => some j
  | _ => none

/-- The routine has yet to announce a job at an attempt. -/
def announces (id : JobId) (attempt : Nat) (t : Routine) : Bool :=
  t.announced?.any fun j => j.id = id && j.attempt = attempt

/-- For how many attempts the job of a routine may have been added to a queue. -/
def limit : Routine → Nat
  | adding .. => 0
  | opening _ j | starting _ j | fetching _ j | working _ j => j.attempt + 1
  | correcting _ j | storing _ j _ | handing _ j _ => j.attempt + 1
  | concluding _ j | finishing _ j | completing _ j => j.attempt + 1
  | submitting _ | listing .. | announcing .. => 0
  | releasing .. | relisting .. | telling .. | requeueing _ => 0

/-- A number above the stages that the job of a routine may have had on the board
(`Job.stage`). -/
def reach : Routine → Nat
  | adding .. => 0
  | opening _ j => 2 * j.attempt + 1
  | starting _ j | fetching _ j | working _ j => 2 * j.attempt + 2
  | correcting _ j | storing _ j _ | handing _ j _ | concluding _ j => 2 * j.attempt + 2
  | finishing .. | completing .. => 5
  | submitting _ | listing .. | announcing .. => 0
  | releasing .. | relisting .. | telling .. | requeueing _ => 0

end Routine

/-! ## Every addition is announced once -/

/-- An addition makes an announcement outstanding, and putting the job on the board as
queued settles it. -/
theorem Moves.announces {o : Orchestrator} {t t' : Option Routine} {c : Call}
    (h : Moves o t c t') (ht : ∀ x, t = some x → x.Proper) (id : JobId) (a : Nat) :
    t'.toList.countP (Routine.announces id a) + [c].countP (Call.lists id a) =
      t.toList.countP (Routine.announces id a) + [c].countP (Call.queues id a) := by
  have nothing : ∀ r : Intake, r.routine?.toList.countP (Routine.announces id a) = 0 := by
    intro r
    unfold Intake.routine?
    split <;> rfl
  cases h with
  | accept => simp [nothing, Call.lists, Call.queues]
  | announce => simp [nothing, Call.lists, Call.queues, Routine.announces, Routine.announced?]
  | @list r j =>
    obtain ⟨-, ⟨-, hs⟩, -⟩ := ht _ rfl
    simp [Call.lists, Call.queues, Routine.announces, Routine.announced?, hs]
  | @relist h healed =>
    obtain ⟨-, hs⟩ := ht _ rfl
    simp [Call.lists, Call.queues, Routine.announces, Routine.announced?, hs]
  | @openAttempt n j =>
    have hs := (o.runs_start (ht _ rfl)).2
    simp [Call.lists, Call.queues, Routine.announces, Routine.announced?, hs]
  | @conclude n j =>
    obtain ⟨-, hs⟩ := ht _ rfl
    -- an ended job is not listed as queued
    have hq : j.status ≠ .queued := by
      intro he
      rw [he] at hs
      cases hs
    simp [Call.lists, Call.queues, Routine.announces, Routine.announced?, hq]
  | _ => simp [Call.lists, Call.queues, Routine.announces, Routine.announced?]

namespace Interleaving

/-- **Every addition is announced, once**: it is outstanding or on the board. -/
theorem Reachable.balance {w : Interleaving} (h : Reachable w) (id : JobId) (a : Nat) :
    w.tasks.countP (Routine.announces id a) + w.calls.countP (Call.lists id a) =
      w.calls.countP (Call.queues id a) := by
  refine h.invariant (P := fun w => w.tasks.countP (Routine.announces id a) +
    w.calls.countP (Call.lists id a) = w.calls.countP (Call.queues id a)) ?_ ?_
  · rintro u ⟨config, adapters, host, ids, rfl⟩
    rfl
  · intro v w hv ih hs
    cases hs with
    | @serve o t t' c hm l r calls =>
      have hb := hm.announces hv.orderly.proper id a
      simp only [List.countP_append] at ih ⊢
      omega

end Interleaving

/-! ## Passing a job on -/

/-- A routine has a job from before the call, from a queue, or as a new one, and its
numbers do not fall. -/
theorem Moves.owner {o : Orchestrator} {t t' : Option Routine} {c : Call} {id : JobId}
    {y : Routine} (h : Moves o t c t') (ht : ∀ x, t = some x → x.Proper) (hy : t' = some y)
    (ho : y.owns id = true) :
    (∃ x, t = some x ∧ x.owns id = true ∧ x.limit ≤ y.limit ∧ x.reach ≤ y.reach) ∨
      (∃ n, ∃ j ∈ (o.queue n).contents, j.id = id ∧ y.limit = j.attempt + 1 ∧
        y.reach = 2 * j.attempt + 1) ∨
      c.creates id = true := by
  cases h with
  | accept | announce =>
    obtain rfl := Intake.eq_submitting hy
    cases ho
  | create =>
    obtain rfl := Option.some.inj hy
    exact .inr (.inr ho)
  | @take n token j hj =>
    obtain rfl := Option.some.inj hy
    exact .inr (.inl ⟨n, j, Orchestrator.mem_contents_of_take hj, of_decide_eq_true ho, rfl, rfl⟩)
  | decline | requeue | complete | miss | poll | administer | remove | surroundings => cases hy
  | add | list | hand | release | relist | tell =>
    obtain rfl := Option.some.inj hy
    cases ho
  | log =>
    obtain rfl := Option.some.inj hy
    exact .inl ⟨_, rfl, ho, Nat.le_refl _, Nat.le_refl _⟩
  | @conclude n j =>
    obtain rfl := Option.some.inj hy
    obtain ⟨hb, -⟩ : j.Ended n := ht _ rfl
    -- nothing follows the end of a job, so any attempt may have been its last
    refine .inl ⟨_, rfl, ho, Nat.le_refl _, ?_⟩
    have := n.attempt_le_one
    have := hb.attempt
    show 2 * j.attempt + 2 ≤ 5
    omega
  -- the other calls keep the job and its attempt
  | _ =>
    obtain rfl := Option.some.inj hy
    refine .inl ⟨_, rfl, ?_, ?_, ?_⟩
    · simpa [Routine.owns, Routine.owned?] using ho
    · simp [Routine.limit]
    · simp [Routine.reach]

/-- The routine that adds a job has it until then, and its numbers allow for the
addition. -/
theorem Moves.owner_of_add {o : Orchestrator} {t t' : Option Routine} {n : QueueName} {j : Job}
    (h : Moves o t (.add n j) t') :
    (∃ x, t = some x ∧ x.owns j.id = true ∧ x.limit ≤ j.attempt ∧ x.reach ≤ 2 * j.attempt) ∧
      ∀ y, t' = some y → ¬ y.owns j.id = true := by
  cases h with
  | @add r _ _ ha =>
    refine ⟨⟨_, rfl, decide_eq_true rfl, Nat.zero_le _, Nat.zero_le _⟩, ?_⟩
    intro y hy
    obtain rfl := Option.some.inj hy
    exact nofun
  | @hand n i h _ _ hj ha =>
    obtain ⟨-, rfl⟩ := (Job.requeueForHealing?_eq_some_iff i _ j).mp hj
    refine ⟨⟨_, rfl, decide_eq_true rfl, Nat.le_refl _, Nat.le_refl _⟩, ?_⟩
    intro y hy
    obtain rfl := Option.some.inj hy
    exact nofun

/-- **A gauge** marks jobs with numbers in some calls, and gives a number to every hand
that a job may be in, a routine or a queue.  The numbers of the hands that a job passes
through do not fall. -/
structure Gauge where
  mark : Call → Option (JobId × Nat)
  level : Routine → Nat
  waiting : Job → Nat
  subject_of_mark : ∀ {c id s}, mark c = some (id, s) → c.subject? = some id
  level_le : ∀ {x y : Routine}, x.limit ≤ y.limit → x.reach ≤ y.reach → level x ≤ level y
  waiting_le : ∀ {j : Job} {y : Routine}, y.limit = j.attempt + 1 →
    y.reach = 2 * j.attempt + 1 → waiting j ≤ level y
  level_le_waiting : ∀ {x : Routine} {j : Job}, x.limit ≤ j.attempt →
    x.reach ≤ 2 * j.attempt → level x ≤ waiting j

namespace Gauge
open Interleaving

/-- All hands of a job are above a mark. -/
def Above (w : Interleaving) (g : Gauge) (id : JobId) (s : Nat) : Prop :=
  (∀ t ∈ w.tasks, t.owns id = true → s < g.level t) ∧
    ∀ n, ∀ j ∈ (w.orchestrator.queue n).contents, j.id = id → s < g.waiting j

/-- **All marks are below the hands of their jobs.** -/
def Bounds (g : Gauge) (w : Interleaving) : Prop :=
  ∀ c ∈ w.calls, ∀ id s, g.mark c = some (id, s) → Above w g id s

/-- A mark that was below the hands of its job stays below them. -/
theorem Above.step {g : Gauge} {v w : Interleaving} {id : JobId} {s : Nat} (h : Above v g id s)
    (ho : v.Orderly) (hd : v.orchestrator.ids.HasDrawn id.uuid) (hw : w.Distinct)
    (hs : Interleaving.Step v w) : Above w g id s := by
  obtain ⟨c, hc⟩ := hs.calls_eq
  have hfresh : c.creates id = true → ¬ v.orchestrator.ids.HasDrawn id.uuid :=
    hs.not_hasDrawn_of_creates hc hw
  cases hs with
  | @serve o t t' d hm l r calls =>
    obtain rfl : d = c := by simpa using List.append_cancel_left hc
    obtain ⟨htasks, hcontents⟩ := h
    refine ⟨?_, ?_⟩
    · intro y hy hown
      rcases mem_tasks_iff.mp hy with hy | hy
      · rcases hm.owner ho.proper hy hown with
          ⟨x, hx, hxo, hl, hr⟩ | ⟨n, j, hj, he, hl, hr⟩ | hcr
        · exact Nat.lt_of_lt_of_le (htasks x (by simp [hx]) hxo) (g.level_le hl hr)
        · exact Nat.lt_of_lt_of_le (hcontents n j hj he) (g.waiting_le hl hr)
        · exact absurd hd (hfresh hcr)
      · exact htasks y (mem_tasks_iff.mpr (.inr hy)) hown
    · intro n j hj he
      rcases hm.mem_contents hj with rfl | hold
      · obtain ⟨⟨x, hx, hxo, hl, hr⟩, -⟩ := hm.owner_of_add
        exact Nat.lt_of_lt_of_le (htasks x (by simp [hx]) (he ▸ hxo)) (g.level_le_waiting hl hr)
      · exact hcontents n j hold he

/-- A call of the routine that has a job puts the job into hands above a mark, if the
routine is above it afterwards and so is the queue that gets the job. -/
theorem above_of_owner {g : Gauge} {o : Orchestrator} {x : Routine} {t' : Option Routine}
    {c : Call} {id : JobId} {s : Nat} {l r : List Routine} {calls : List Call}
    (hm : Moves o (some x) c t')
    (hcv : Interleaving.custody ⟨o, l ++ (some x).toList ++ r, calls⟩ id ≤ 1)
    (hx : x.owns id = true) (hy : ∀ y, t' = some y → y.owns id = true → s < g.level y)
    (hj : ∀ n j, c = .add n j → s < g.waiting j) :
    Above ⟨o.serve c, l ++ t'.toList ++ r, calls ++ [c]⟩ g id s := by
  obtain ⟨halone, hnowhere, -⟩ := sole_owner hcv rfl hx
  refine ⟨?_, ?_⟩
  · intro y hymem hown
    rcases mem_tasks_iff.mp hymem with ht | hother
    · exact hy y ht hown
    · exact absurd hown (halone y hother)
  · intro n j hjmem he
    rcases hm.mem_contents hjmem with hadd | hold
    · exact hj n j hadd
    · exact absurd he (hnowhere n j hold)

/-- **The marks of a gauge stay below the hands of their jobs**, if each is below them when
it is made. -/
theorem bounds {g : Gauge} {w : Interleaving} (h : Reachable w) (hd : w.Distinct)
    (new : ∀ {v w : Interleaving} {c : Call} {id : JobId} {s : Nat}, Reachable v → w.Distinct →
      Interleaving.Step v w → w.calls = v.calls ++ [c] → g.mark c = some (id, s) → Above w g id s) :
    g.Bounds w := by
  refine h.invariant_of_distinct hd ?_ ?_
  · rintro u ⟨config, adapters, host, ids, rfl⟩ c hc
    cases hc
  · intro v w hv hw ih hs c hc id s hm
    obtain ⟨d, hd⟩ := hs.calls_eq
    rw [hd] at hc
    rcases List.mem_append.mp hc with hold | hnew
    · exact (ih c hold id s hm).step hv.orderly (hv.known.calls c hold id (g.subject_of_mark hm))
        hw hs
    · obtain rfl := List.mem_singleton.mp hnew
      exact new hv hw hs hd hm

/-- The attempts for which jobs were added to queues. -/
def additions : Gauge where
  mark
    | .add _ j => some (j.id, j.attempt)
    | _ => none
  level := Routine.limit
  waiting j := j.attempt + 1
  subject_of_mark := by
    intro c id s h
    cases c with
    | add n j =>
      cases h
      rfl
    | _ => cases h
  level_le hl _ := hl
  waiting_le hl _ := Nat.le_of_eq hl.symm
  level_le_waiting hl _ := Nat.le_succ_of_le hl

end Gauge

/-! ## A job is added once for each attempt -/

namespace Interleaving

/-- **Whoever has a job has it after its additions**: a job that was added at an attempt
is nowhere at an earlier attempt. -/
theorem Reachable.bounds_additions {w : Interleaving} (h : Reachable w) (hd : w.Distinct) :
    Gauge.additions.Bounds w := by
  refine Gauge.bounds h hd ?_
  intro v w c id s hv hw hs hc hm
  cases c with
  | add n j =>
    obtain ⟨rfl, rfl⟩ := Prod.mk.inj (Option.some.inj hm)
    have hcv := hv.custody_le_one (hs.distinct hw) j.id
    cases hs with
    | @serve o t t' d hm l r calls =>
      obtain rfl : d = .add n j := by simpa using List.append_cancel_left hc
      -- the routine that adds the job gives it away
      obtain ⟨⟨x, rfl, hxo, -⟩, hgone⟩ := hm.owner_of_add
      refine Gauge.above_of_owner hm hcv hxo (fun y hy hown => absurd hown (hgone y hy)) ?_
      intro m i hi
      obtain ⟨-, rfl⟩ := Call.add.inj hi
      exact Nat.lt_succ_self _
  | _ => cases hm

/-- A job that was added at an attempt is with no routine at an earlier attempt. -/
theorem Reachable.attempt_lt_limit {w : Interleaving} (h : Reachable w) (hd : w.Distinct)
    {n : QueueName} {j : Job} (hj : Call.add n j ∈ w.calls) {t : Routine} (ht : t ∈ w.tasks)
    (ho : t.owns j.id = true) : j.attempt < t.limit :=
  (h.bounds_additions hd _ hj j.id j.attempt rfl).1 t ht ho

/-- **A job is added at most once for each of its attempts.** -/
theorem Reachable.additions_le_one {w : Interleaving} (h : Reachable w) (hd : w.Distinct)
    (id : JobId) (a : Nat) : w.calls.countP (Call.queues id a) ≤ 1 := by
  refine h.invariant_of_distinct hd (P := fun w => w.calls.countP (Call.queues id a) ≤ 1) ?_ ?_
  · rintro u ⟨config, adapters, host, ids, rfl⟩
    exact Nat.zero_le 1
  · intro v w hv hw ih hs
    have hvd := hs.distinct hw
    cases hs with
    | @serve o t t' c hm l r calls =>
      rw [List.countP_append, List.countP_singleton]
      by_cases hc : c.queues id a = true
      · -- the routine that adds the job now has not added it before
        have h0 : calls.countP (Call.queues id a) = 0 := by
          refine List.countP_eq_zero.mpr ?_
          intro d hd hq
          cases c with
          | add n j =>
            cases d with
            | add m i =>
              obtain ⟨⟨x, rfl, hxo, hle, -⟩, -⟩ := hm.owner_of_add
              simp only [Call.queues, Bool.and_eq_true, decide_eq_true_eq] at hc hq
              rw [hc.1, ← hq.1] at hxo
              have := hv.attempt_lt_limit hvd hd (t := x) (by simp) hxo
              omega
            | _ => cases hq
          | _ => cases hc
        simp only [h0, hc, if_true]
        omega
      · rw [if_neg hc]
        exact ih

theorem countP_announces_pos {w : Interleaving} {t : Routine} {j : Job} (ht : t ∈ w.tasks)
    (hj : t.announced? = some j) : 0 < w.tasks.countP (Routine.announces j.id j.attempt) :=
  List.countP_pos_iff.mpr ⟨t, ht, by simp [Routine.announces, hj]⟩

/-- A job that is yet to be announced is not on the board as queued at its attempt. -/
theorem Reachable.unlisted_of_announced {w : Interleaving} (h : Reachable w) (hd : w.Distinct)
    {t : Routine} {j : Job} (ht : t ∈ w.tasks) (hj : t.announced? = some j) :
    w.calls.countP (Call.lists j.id j.attempt) = 0 := by
  have hpos := countP_announces_pos ht hj
  have hbalance := h.balance j.id j.attempt
  have honce := h.additions_le_one hd j.id j.attempt
  omega

/-- What is announced was added. -/
theorem Reachable.added_of_announces {w : Interleaving} (h : Reachable w) {id : JobId} {a : Nat}
    (ht : 0 < w.tasks.countP (Routine.announces id a)) :
    ∃ n j, Call.add n j ∈ w.calls ∧ j.id = id ∧ j.attempt = a := by
  -- whatever is outstanding is part of the balance of additions
  have hb := h.balance id a
  have hq : 0 < w.calls.countP (Call.queues id a) := by omega
  obtain ⟨c, hc, hcq⟩ := List.countP_pos_iff.mp hq
  cases c with
  | add n j =>
    simp only [Call.queues, Bool.and_eq_true, decide_eq_true_eq] at hcq
    exact ⟨n, j, hc, hcq.1, hcq.2⟩
  | _ => cases hcq

end Interleaving

/-! ## Workers keep their jobs active -/

namespace Routine

/-- The entry among the active jobs of a queue that a routine has to take away. -/
def seat? : Routine → Option (QueueName × JobId)
  | opening n j | starting n j | fetching n j | working n j => some (n, j.id)
  | correcting n j | storing n j _ | handing n j _ => some (n, j.id)
  | concluding n j | finishing n j | completing n j => some (n, j.id)
  | releasing n _ healed => some (n, healed.id)
  | _ => none

/-- Who has a seat has the job there, or is about to give it up. -/
theorem cases_of_seat? {t : Routine} {n : QueueName} {id : JobId} (h : t.seat? = some (n, id))
    (hp : t.Proper) :
    (t.owns id = true ∧ t.limit = n.attempt + 1) ∨
      (n ≠ .healing ∧ t.announces id 1 = true) := by
  have seated : ∀ {m : QueueName} {j : Job}, some (m, j.id) = some (n, id) → j.BelongsTo m →
      j.id = id ∧ j.attempt + 1 = n.attempt + 1 := by
    intro m j he hb
    obtain ⟨rfl, rfl⟩ := Prod.mk.inj (Option.some.inj he)
    exact ⟨rfl, by rw [hb.attempt]⟩
  cases t with
  | releasing m h healed =>
    obtain ⟨⟨hb, -⟩, hm⟩ := hp
    obtain ⟨rfl, rfl⟩ := Prod.mk.inj (Option.some.inj h)
    exact .inr ⟨hm, by simp [announces, announced?, hb.attempt, QueueName.attempt]⟩
  | submitting | adding | listing | announcing | relisting | telling | requeueing => cases h
  | _ =>
    obtain ⟨he, ha⟩ := seated h hp.1
    exact .inl ⟨decide_eq_true he, ha⟩

end Routine

/-- **What is active** was active before and is neither released nor completed by the
call, or it is taken by the call. -/
theorem Moves.mem_active_iff {o : Orchestrator} {t t' : Option Routine} {c : Call}
    (h : Moves o t c t') (n : QueueName) (id : JobId) :
    id ∈ ((o.serve c).queue n).active ↔
      (id ∈ (o.queue n).active ∧ c ≠ .release n id ∧ ∀ j, c = .complete n j → j.id ≠ id) ∨
        ∃ token j, c = .take n token j ∧ j.id = id := by
  have added : ∀ {m : QueueName} {j : Job} {hall : QueueHall}, o.hall.add? m j = some hall →
      ((o.serve (.add m j)).queue n).active = (o.queue n).active := by
    intro m j hall ha
    obtain ⟨q, hq, hs⟩ := o.queue_add ha
    rw [hs n]
    split
    · next hm =>
      subst hm
      exact (JobQueue.active_of_add? hq).1
    · rfl
  cases h with
  | add ha => simp [added ha]
  | hand hj ha => simp [added ha]
  | @take m token j ht =>
    by_cases hm : n = m
    · subst hm
      rw [(Orchestrator.contents_take ht).2 id]
      constructor
      · rintro (rfl | hid)
        · exact .inr ⟨token, j, rfl, rfl⟩
        · exact .inl ⟨hid, by simp, by simp⟩
      · rintro (⟨hid, -, -⟩ | ⟨_, _, hc, rfl⟩)
        · exact .inr hid
        · cases hc
          exact .inl rfl
    · rw [o.queue_take, if_neg hm]
      simp [Ne.symm hm]
  | @miss m token ht =>
    by_cases hm : n = m
    · subst hm
      simp [(Orchestrator.contents_ask ht).2]
    · rw [o.queue_ask, if_neg hm]
      simp
  | @release m h healed =>
    by_cases hm : n = m
    · subst hm
      rw [o.queue_release, if_pos rfl, JobQueue.mem_active_release]
      simp [eq_comm]
    · rw [o.queue_release, if_neg hm]
      simp [Ne.symm hm]
  | @complete m j =>
    by_cases hm : n = m
    · subst hm
      rw [o.queue_complete, if_pos rfl, JobQueue.mem_active_complete]
      simp [eq_comm]
    · rw [o.queue_complete, if_neg hm]
      simp [Ne.symm hm]
  | @administer m a =>
    have ha : ((o.serve (.administer m a)).queue n).active = (o.queue n).active := by
      rw [o.queue_administer]
      split
      · next hm => rw [Administration.active_apply, hm]
      · rfl
    simp [ha]
  -- the other calls are to other parties
  | _ =>
    rw [o.queue_serve _ n trivial]
    simp

/-- A job stops being active only when it is released or completed. -/
theorem Moves.active {o : Orchestrator} {t t' : Option Routine} {c : Call} {n : QueueName}
    {id : JobId} (h : Moves o t c t') (hid : id ∈ (o.queue n).active) :
    id ∈ ((o.serve c).queue n).active ∨ c = .release n id ∨
      ∃ j, c = .complete n j ∧ j.id = id := by
  by_cases hr : c = .release n id
  · exact .inr (.inl hr)
  · by_cases hc : ∃ j, c = .complete n j ∧ j.id = id
    · exact .inr (.inr hc)
    · exact .inl ((h.mem_active_iff n id).mpr (.inl ⟨hid, hr, fun j hj he => hc ⟨j, hj, he⟩⟩))

/-- A routine has a seat from before the call, or takes it with the job. -/
theorem Moves.seat {o : Orchestrator} {t t' : Option Routine} {c : Call} {n : QueueName}
    {id : JobId} {y : Routine} (h : Moves o t c t') (hy : t' = some y)
    (hs : y.seat? = some (n, id)) :
    (∃ x, t = some x ∧ x.seat? = some (n, id)) ∨ id ∈ ((o.serve c).queue n).active := by
  cases h with
  | accept | announce =>
    obtain rfl := Intake.eq_submitting hy
    cases hs
  | @take m token j ht =>
    obtain rfl := Option.some.inj hy
    obtain ⟨rfl, rfl⟩ := Prod.mk.inj (Option.some.inj hs)
    exact .inr (((Orchestrator.contents_take ht).2 j.id).mpr (.inl rfl))
  | decline | requeue | complete | miss | poll | administer | remove | surroundings => cases hy
  | create | add | list | release | relist | tell =>
    obtain rfl := Option.some.inj hy
    cases hs
  | hand hj _ =>
    obtain rfl := Option.some.inj hy
    refine .inl ⟨_, rfl, ?_⟩
    simpa [Routine.seat?, Orchestrator.id_requeue hj] using hs
  | openAttempt | fail | settle | despair =>
    obtain rfl := Option.some.inj hy
    refine .inl ⟨_, rfl, ?_⟩
    simpa [Routine.seat?] using hs
  -- the other calls keep the job in its seat
  | _ =>
    obtain rfl := Option.some.inj hy
    exact .inl ⟨_, rfl, hs⟩

namespace Interleaving

/-- **A worker keeps its job active**: every entry that a routine has to take away is
there. -/
def Seated (w : Interleaving) : Prop :=
  ∀ t ∈ w.tasks, ∀ n id, t.seat? = some (n, id) → id ∈ (w.orchestrator.queue n).active

/-- Two routines do not share a seat when one of them takes the entry away. -/
theorem Reachable.not_seat_of_leaving {w : Interleaving} (h : Reachable w) (hd : w.Distinct)
    {l r : List Routine} {x : Routine} (ht : w.tasks = l ++ (some x).toList ++ r)
    {n : QueueName} {id : JobId} (hx : x.seat? = some (n, id)) {y : Routine}
    (hy : y ∈ l ++ r) : y.seat? ≠ some (n, id) := by
  intro hs
  have hxm : x ∈ w.tasks := ht ▸ mem_tasks_iff.mpr (.inl rfl)
  have hym : y ∈ w.tasks := ht ▸ mem_tasks_iff.mpr (.inr hy)
  -- a job that is about to be given up was added for healing, and nobody has it at an
  -- earlier attempt
  have late : ∀ {z u : Routine}, z ∈ w.tasks → u ∈ w.tasks → n ≠ .healing →
      z.announces id 1 = true → u.owns id = true → u.limit = n.attempt + 1 → False := by
    intro z u hz hu hn hza huo hul
    have hpos : 0 < w.tasks.countP (Routine.announces id 1) :=
      List.countP_pos_iff.mpr ⟨z, hz, hza⟩
    obtain ⟨m, j, hj, rfl, ha⟩ := h.added_of_announces hpos
    have := h.attempt_lt_limit hd hj hu huo
    have := (QueueName.attempt_eq_zero_iff n).mpr hn
    omega
  rcases Routine.cases_of_seat? hx (h.orderly.tasks x hxm) with ⟨hxo, hxl⟩ | ⟨hn, hxa⟩
  · rcases Routine.cases_of_seat? hs (h.orderly.tasks y hym) with ⟨hyo, -⟩ | ⟨hn, hya⟩
    · exact (sole_owner (h.custody_le_one hd id) ht hxo).1 y hy hyo
    · exact late hym hxm hn hya hxo hxl
  · rcases Routine.cases_of_seat? hs (h.orderly.tasks y hym) with ⟨hyo, hyl⟩ | ⟨-, hya⟩
    · exact late hxm hym hn hxa hyo hyl
    · -- the job was added for healing once, so it is announced once
      have hb := h.balance id 1
      have h1 := h.additions_le_one hd id 1
      have hself : (some x).toList.countP (Routine.announces id 1) = 1 := by simp [hxa]
      rw [ht, List.countP_append, List.countP_append, hself] at hb
      have hpos : 0 < (l ++ r).countP (Routine.announces id 1) :=
        List.countP_pos_iff.mpr ⟨y, hy, hya⟩
      rw [List.countP_append] at hpos
      omega

theorem Reachable.seated {w : Interleaving} (h : Reachable w) (hd : w.Distinct) : w.Seated := by
  refine h.invariant_of_distinct hd ?_ ?_
  · rintro u ⟨config, adapters, host, ids, rfl⟩
    exact fun _ ht => nomatch ht
  · intro v w hv hw ih hs
    have hvd := hs.distinct hw
    cases hs with
    | @serve o t t' c hm l r calls =>
      intro y hmem n id hys
      rcases mem_tasks_iff.mp hmem with hy | hy
      · rcases hm.seat hy hys with ⟨x, hx, hxs⟩ | hin
        · rcases hm.active (ih x (by simp [hx]) n id hxs) with hin | rfl | ⟨j, rfl, rfl⟩
          · exact hin
          · cases hm with
            | release =>
              obtain rfl := Option.some.inj hy
              cases hys
          · cases hm with
            | complete => cases hy
        · exact hin
      · -- the routine that takes an entry away is alone with it
        rcases hm.active (ih y (mem_tasks_iff.mpr (.inr hy)) n id hys) with
          hin | rfl | ⟨j, rfl, rfl⟩
        · exact hin
        · cases hm with
          | release => exact absurd hys (hv.not_seat_of_leaving hvd rfl rfl hy)
        · cases hm with
          | complete => exact absurd hys (hv.not_seat_of_leaving hvd rfl rfl hy)

end Interleaving

/-- A routine keeps its seat until it takes the entry away. -/
theorem Moves.keeps_seat {o : Orchestrator} {t' : Option Routine} {c : Call} {n : QueueName}
    {id : JobId} {x : Routine} (h : Moves o (some x) c t') (hs : x.seat? = some (n, id)) :
    (∃ y, t' = some y ∧ y.seat? = some (n, id)) ∨ c = .release n id ∨
      ∃ j, c = .complete n j ∧ j.id = id := by
  cases h with
  | release =>
    obtain ⟨rfl, rfl⟩ := Prod.mk.inj (Option.some.inj hs)
    exact .inr (.inl rfl)
  | complete =>
    obtain ⟨rfl, rfl⟩ := Prod.mk.inj (Option.some.inj hs)
    exact .inr (.inr ⟨_, rfl, rfl⟩)
  | hand hj _ =>
    refine .inl ⟨_, rfl, ?_⟩
    simpa [Routine.seat?, Orchestrator.id_requeue hj] using hs
  | create | add | decline | list | announce | relist | tell | requeue => cases hs
  | openAttempt | fail | settle | despair =>
    refine .inl ⟨_, rfl, ?_⟩
    simpa [Routine.seat?] using hs
  -- the other calls keep the job in its seat
  | _ => exact .inl ⟨_, rfl, hs⟩

namespace Interleaving

/-- **What is active is attended to**: every active job is one that a routine has a seat
for. -/
theorem Reachable.attended {w : Interleaving} (h : Reachable w) :
    ∀ n, ∀ id ∈ (w.orchestrator.queue n).active, ∃ t ∈ w.tasks, t.seat? = some (n, id) := by
  refine h.invariant (P := fun w => ∀ n, ∀ id ∈ (w.orchestrator.queue n).active,
    ∃ t ∈ w.tasks, t.seat? = some (n, id)) ?_ fun v w _ hv hs => ?_
  · rintro u ⟨config, adapters, host, ids, rfl⟩ n id hid
    cases n <;> cases hid
  · cases hs with
    | @serve o t t' c hm l r calls =>
      intro n id hid
      rcases (hm.mem_active_iff n id).mp hid with ⟨hold, hrelease, hcomplete⟩ | ⟨token, j, rfl, rfl⟩
      · obtain ⟨x, hx, hseat⟩ := hv n id hold
        rcases mem_tasks_iff.mp hx with rfl | hx
        · rcases hm.keeps_seat hseat with ⟨y, rfl, hy⟩ | hc | ⟨j, hc, hj⟩
          · exact ⟨y, mem_tasks_iff.mpr (.inl rfl), hy⟩
          · exact absurd hc hrelease
          · exact absurd hj (hcomplete j hc)
        · exact ⟨x, mem_tasks_iff.mpr (.inr hx), hseat⟩
      · cases hm with
        | take => exact ⟨.opening n j, mem_tasks_iff.mpr (.inl rfl), rfl⟩

end Interleaving

end Testplan
