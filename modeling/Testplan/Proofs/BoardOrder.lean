import Testplan.Proofs.Announcements
import Testplan.Proofs.Records
import Testplan.Proofs.Schedule
/-!
# The board and the order of time

The life of a job has **stages**: queued and running at its first attempt, queued and
running at its second, and its end.  Whoever has a job puts it on the board at a later
stage than all before (`Gauge.recordings`).  But whoever adds a job to a queue announces
it only afterwards, and by then a worker may have taken the job and may even have brought
it to its end.

So what the board shows of a job **advances exactly if** no job is announced as queued
after it was put on the board as running at the same attempt
(`Interleaving.board_advances_iff`).  Otherwise an ended job may be shown as queued for good
(`Interleaving.ended_job_shown_as_queued`).
-/
namespace Testplan

/-- **How far a job has come.** -/
def Job.stage (j : Job) : Nat :=
  match j.status with
  | .created | .queued => 2 * j.attempt
  | .running => 2 * j.attempt + 1
  | .succeeded | .failed _ => 4

theorem Job.Waits.stage_eq {j : Job} {n : QueueName} (h : j.Waits n) :
    j.stage = 2 * j.attempt := by
  unfold stage
  rw [h.2]

theorem Job.Runs.stage_eq {j : Job} {n : QueueName} (h : j.Runs n) :
    j.stage = 2 * j.attempt + 1 := by
  unfold stage
  rw [h.2]

theorem Job.Ended.stage_eq {j : Job} {n : QueueName} (h : j.Ended n) : j.stage = 4 := by
  have ht := h.2
  unfold stage
  cases hs : j.status with
  | succeeded | failed _ => rfl
  | created | queued | running =>
    rw [hs] at ht
    cases ht

/-- The routines that put a job on the board. -/
theorem Moves.cases_of_record {o : Orchestrator} {t t' : Option Routine} {j : Job}
    (h : Moves o t (.record j) t') (ht : ∀ x, t = some x → x.Proper) :
    (∃ x n, t = some x ∧ x.announced? = some j ∧ j.Waits n) ∨
      (∃ i n, t = some (.opening n i) ∧ i.id = j.id ∧ i.attempt = j.attempt ∧ j.Runs n ∧
        t' = some (.starting n j)) ∨
      ∃ n, t = some (.concluding n j) ∧ j.Ended n ∧ t' = some (.finishing n j) := by
  cases h with
  | list => exact .inl ⟨_, _, rfl, rfl, (ht _ rfl).2.1⟩
  | relist => exact .inl ⟨_, _, rfl, rfl, ht _ rfl⟩
  | @openAttempt n i =>
    exact .inr (.inl ⟨i, n, rfl, (o.id_start i).symm, (o.attempt_start i).symm,
      o.runs_start (ht _ rfl), rfl⟩)
  | conclude => exact .inr (.inr ⟨_, rfl, ht _ rfl, rfl⟩)

/-- The stages at which jobs were put on the board. -/
def Gauge.recordings : Gauge where
  mark
    | .record j => some (j.id, j.stage)
    | _ => none
  level := Routine.reach
  waiting j := 2 * j.attempt + 1
  subject_of_mark := by
    intro c id s h
    cases c with
    | record j =>
      cases h
      rfl
    | _ => cases h
  level_le _ hr := hr
  waiting_le _ hr := Nat.le_of_eq hr.symm
  level_le_waiting _ hr := Nat.le_succ_of_le hr

/-- Who may have a job at more attempts has reached further with it. -/
theorem Routine.two_mul_limit_le {t : Routine} (h : t.Proper) : 2 * t.limit ≤ t.reach + 1 := by
  cases t with
  | finishing n j | completing n j =>
    obtain ⟨hb, -⟩ := h
    have := n.attempt_le_one
    have := hb.attempt
    simp only [limit, reach]
    omega
  | _ =>
    simp only [limit, reach]
    omega

namespace Interleaving

/-- A job that was added is above its stage wherever it is. -/
theorem Reachable.above_of_add {w : Interleaving} (h : Reachable w) (hd : w.Distinct)
    {n : QueueName} {j : Job} (hj : Call.add n j ∈ w.calls) :
    Gauge.Above w .recordings j.id (2 * j.attempt) := by
  obtain ⟨htasks, hcontents⟩ := h.bounds_additions hd _ hj j.id j.attempt rfl
  refine ⟨?_, ?_⟩
  · intro t ht ho
    have := htasks t ht ho
    have := Routine.two_mul_limit_le (h.orderly.tasks t ht)
    simp only [Gauge.additions, Gauge.recordings] at *
    omega
  · intro m i hi he
    have := hcontents m i hi he
    simp only [Gauge.additions, Gauge.recordings] at *
    omega

/-- **Whoever has a job is further than the board.** -/
theorem Reachable.bounds_recordings {w : Interleaving} (h : Reachable w) (hd : w.Distinct) :
    Gauge.recordings.Bounds w := by
  refine Gauge.bounds h hd ?_
  intro v w c id s hv hw hs hc hm
  cases c with
  | record j =>
    obtain ⟨rfl, rfl⟩ := Prod.mk.inj (Option.some.inj hm)
    have hcv := hv.custody_le_one (hs.distinct hw)
    have hw' := hv.step hs
    cases hs with
    | @serve o t t' d hm l r calls =>
      obtain rfl : d = .record j := by simpa using List.append_cancel_left hc
      have hnoadd : ∀ m i, Call.record j = .add m i →
          j.stage < Gauge.recordings.waiting i := by
        intro m i h
        cases h
      rcases hm.cases_of_record hv.orderly.proper with
        ⟨x, n, rfl, hx, hwaits⟩ | ⟨i, n, rfl, hid, -, hruns, rfl⟩ | ⟨n, rfl, hended, rfl⟩
      · -- what is announced was added, and its hands have been above its stage since then
        obtain ⟨m, i, hi, hid, ha⟩ :=
          hv.added_of_announces (countP_announces_pos (t := x) (by simp) hx)
        have := hw'.above_of_add hw (List.mem_append_left _ hi)
        rwa [hid, ha, ← hwaits.stage_eq] at this
      · refine Gauge.above_of_owner hm (hcv j.id) (decide_eq_true hid) ?_ hnoadd
        intro y hy _
        obtain rfl := Option.some.inj hy
        rw [hruns.stage_eq]
        exact Nat.lt_succ_self _
      · refine Gauge.above_of_owner hm (hcv j.id) (decide_eq_true rfl) ?_ hnoadd
        intro y hy _
        obtain rfl := Option.some.inj hy
        rw [hended.stage_eq]
        exact Nat.lt_succ_self _
  | _ => cases hm

/-! ## What precedes a state on the board -/

/-- The job was put on the board as running at each of its first attempts. -/
def Began (calls : List Call) (id : JobId) (attempts : Nat) : Prop :=
  ∀ a, a < attempts → ∃ j, Call.record j ∈ calls ∧ j.id = id ∧ j.status = .running ∧ j.attempt = a

theorem Began.mono {calls calls' : List Call} {id : JobId} {a b : Nat} (h : Began calls id b)
    (hc : ∀ c ∈ calls, c ∈ calls') (hab : a ≤ b) : Began calls' id a := by
  intro k hk
  obtain ⟨j, hj, he⟩ := h k (by omega)
  exact ⟨j, hc _ hj, he⟩

end Interleaving

/-- How often the job of a routine was put on the board as running. -/
def Routine.begun : Routine → Nat
  | opening _ j => j.attempt
  | starting _ j | fetching _ j | working _ j => j.attempt + 1
  | correcting _ j | storing _ j _ | handing _ j _ => j.attempt + 1
  | concluding _ j | finishing _ j | completing _ j => j.attempt + 1
  | _ => 0

/-- A job begins once more only when its routine puts it on the board as running. -/
theorem Moves.begun {o : Orchestrator} {t t' : Option Routine} {c : Call} {id : JobId}
    {y : Routine} (h : Moves o t c t') (ht : ∀ x, t = some x → x.Proper) (hy : t' = some y)
    (ho : y.owns id = true) :
    (∃ x, t = some x ∧ x.owns id = true ∧ (y.begun ≤ x.begun ∨
        ∃ j, c = .record j ∧ j.id = id ∧ j.status = .running ∧ j.attempt = x.begun ∧
          y.begun = x.begun + 1)) ∨
      (∃ n, ∃ j ∈ (o.queue n).contents, j.id = id ∧ y.begun = j.attempt) ∨ y.begun = 0 := by
  cases h with
  | accept | announce =>
    obtain rfl := Intake.eq_submitting hy
    cases ho
  | @take n token j hj =>
    obtain rfl := Option.some.inj hy
    exact .inr (.inl ⟨n, j, Orchestrator.mem_contents_of_take hj, of_decide_eq_true ho, rfl⟩)
  | decline | requeue | complete | miss | poll | administer | remove | surroundings => cases hy
  | create | add | list | hand | release | relist | tell =>
    obtain rfl := Option.some.inj hy
    exact .inr (.inr rfl)
  | @openAttempt n j =>
    obtain rfl := Option.some.inj hy
    have hid : (o.start j).2.id = id := of_decide_eq_true ho
    refine .inl ⟨_, rfl, decide_eq_true ((o.id_start j).symm.trans hid), .inr ?_⟩
    refine ⟨_, rfl, hid, (o.runs_start (ht _ rfl)).2, o.attempt_start j, ?_⟩
    show (o.start j).2.attempt + 1 = j.attempt + 1
    rw [o.attempt_start]
  | log =>
    obtain rfl := Option.some.inj hy
    exact .inl ⟨_, rfl, ho, .inl (Nat.le_refl _)⟩
  -- the other calls keep the job and its attempt
  | _ =>
    obtain rfl := Option.some.inj hy
    refine .inl ⟨_, rfl, ?_, .inl ?_⟩
    · simpa [Routine.owns, Routine.owned?] using ho
    · simp [Routine.begun]

/-- A job is added for its next attempt only when it began all before. -/
theorem Moves.begun_of_add {o : Orchestrator} {t t' : Option Routine} {n : QueueName} {j : Job}
    (h : Moves o t (.add n j) t') (ht : ∀ x, t = some x → x.Proper) :
    ∃ x, t = some x ∧ x.owns j.id = true ∧ j.attempt ≤ x.begun := by
  cases h with
  | @add r _ _ ha =>
    obtain ⟨-, ⟨hb, -⟩, hn⟩ := ht _ rfl
    refine ⟨_, rfl, decide_eq_true rfl, ?_⟩
    rw [hb.attempt, (QueueName.attempt_eq_zero_iff _).mpr hn]
    exact Nat.zero_le _
  | @hand n i h _ _ hj ha =>
    obtain ⟨-, rfl⟩ := (Job.requeueForHealing?_eq_some_iff i _ j).mp hj
    exact ⟨_, rfl, decide_eq_true rfl, Nat.le_refl _⟩

namespace Interleaving

/-- **Every attempt that a job has behind it began on the board.** -/
structure Begun (w : Interleaving) : Prop where
  tasks : ∀ t ∈ w.tasks, ∀ id, t.owns id = true → Began w.calls id t.begun
  contents : ∀ n, ∀ j ∈ (w.orchestrator.queue n).contents, Began w.calls j.id j.attempt
  additions : ∀ n j, Call.add n j ∈ w.calls → Began w.calls j.id j.attempt

theorem Begun.step {v w : Interleaving} (h : v.Begun) (ho : v.Orderly) (hs : Step v w) :
    w.Begun := by
  cases hs with
  | @serve o t t' c hm l r calls =>
    obtain ⟨htasks, hcontents, hadditions⟩ := h
    have hproper := ho.proper
    have hold : ∀ d ∈ calls, d ∈ calls ++ [c] := fun d hd => List.mem_append_left _ hd
    have hadd : ∀ n j, c = .add n j → Began (calls ++ [c]) j.id j.attempt := by
      rintro n j rfl
      obtain ⟨x, rfl, hxo, hle⟩ := hm.begun_of_add hproper
      exact (htasks x (by simp) j.id hxo).mono hold hle
    refine ⟨?_, ?_, ?_⟩
    · intro y hy id hown
      rcases mem_tasks_iff.mp hy with hy | hy
      · rcases hm.begun hproper hy hown with
          ⟨x, hx, hxo, hle | ⟨j, rfl, hid, hst, ha, he⟩⟩ | ⟨n, j, hj, rfl, he⟩ | h0
        · exact (htasks x (by simp [hx]) id hxo).mono hold hle
        · intro a hlt
          rcases Nat.lt_or_ge a x.begun with hlt' | hge
          · exact (htasks x (by simp [hx]) id hxo).mono hold (Nat.le_refl _) a hlt'
          · exact ⟨j, by simp, hid, hst, by omega⟩
        · exact (hcontents n j hj).mono hold (by omega)
        · intro a hlt
          omega
      · exact (htasks y (mem_tasks_iff.mpr (.inr hy)) id hown).mono hold (Nat.le_refl _)
    · intro n j hj
      rcases hm.mem_contents hj with hin | hc
      · exact hadd n j hin
      · exact (hcontents n j hc).mono hold (Nat.le_refl _)
    · intro n j hj
      rcases List.mem_append.mp hj with hj | hj
      · exact (hadditions n j hj).mono hold (Nat.le_refl _)
      · exact hadd n j (List.mem_singleton.mp hj).symm

theorem Reachable.begun {w : Interleaving} (h : Reachable w) : w.Begun := by
  refine h.invariant ?_ fun v w hv ih hs => ih.step hv.orderly hs
  rintro u ⟨config, adapters, host, ids, rfl⟩
  refine ⟨(fun _ ht => nomatch ht), ?_, fun _ _ hc => nomatch hc⟩
  intro n j hj
  cases n <;> cases hj

/-- **A job that is on the board at a later stage than an addition began after it.** -/
theorem Reachable.began_of_later {w : Interleaving} (h : Reachable w) (hd : w.Distinct)
    {n : QueueName} {i y : Job} (hi : Call.add n i ∈ w.calls) (hy : Call.record y ∈ w.calls)
    (he : y.id = i.id) (hlt : 2 * i.attempt < y.stage) :
    Began w.calls i.id (i.attempt + 1) := by
  refine h.invariant_of_distinct hd (P := fun w => Call.add n i ∈ w.calls →
    Call.record y ∈ w.calls → Began w.calls i.id (i.attempt + 1)) ?_ ?_ hi hy
  · rintro u ⟨config, adapters, host, ids, rfl⟩ hi
    cases hi
  · intro v w hv hw ih hs hi hy
    have hvd := hs.distinct hw
    have hbegun := (hv.step hs).begun
    cases hs with
    | @serve o t t' c hm l r calls =>
      have hold : ∀ d ∈ calls, d ∈ calls ++ [c] := fun d hd => List.mem_append_left _ hd
      rcases List.mem_append.mp hi with hiold | hinew
      · rcases List.mem_append.mp hy with hyold | hynew
        · exact (ih hiold hyold).mono hold (Nat.le_refl _)
        · obtain rfl := List.mem_singleton.mp hynew
          rcases hm.cases_of_record hv.orderly.proper with
            ⟨x, m, rfl, hx, hwaits⟩ | ⟨j, m, rfl, hid, ha, hruns, rfl⟩ | ⟨m, rfl, hended, rfl⟩
          · -- it was announced, hence added, after all its attempts before
            obtain ⟨k, j, hj, hjid, hja⟩ :=
              hv.added_of_announces (countP_announces_pos (t := x) (by simp) hx)
            rw [hwaits.stage_eq] at hlt
            have := hbegun.additions k j (hold _ hj)
            rw [hjid, he] at this
            exact this.mono (fun d hd => hd) (by omega)
          · rw [hruns.stage_eq] at hlt
            have := hbegun.tasks (.starting m y) (by simp) y.id (decide_eq_true rfl)
            rw [he] at this
            exact this.mono (fun d hd => hd) (by show _ ≤ y.attempt + 1; omega)
          · have hl := hv.attempt_lt_limit hvd hiold (t := .concluding m y) (by simp)
              (decide_eq_true he)
            have := hbegun.tasks (.finishing m y) (by simp) y.id (decide_eq_true rfl)
            rw [he] at this
            exact this.mono (fun d hd => hd) (by show _ ≤ y.attempt + 1; exact hl)
      · obtain rfl := List.mem_singleton.mp hinew
        rcases List.mem_append.mp hy with hyold | hynew
        · -- whoever adds the job is further than the board
          obtain ⟨⟨x, rfl, hxo, -, hr⟩, -⟩ := hm.owner_of_add
          have := (hv.bounds_recordings hvd _ hyold y.id y.stage rfl).1 x (by simp) (he ▸ hxo)
          simp only [Gauge.recordings] at this
          omega
        · cases List.mem_singleton.mp hynew

end Interleaving

/-! ## The end of an attempt -/

theorem Moves.before_finishing {o : Orchestrator} {t t' : Option Routine} {c : Call}
    {n : QueueName} {j : Job} (h : Moves o t c t') (ht : t' = some (.finishing n j)) :
    t = some (.concluding n j) ∧ c = .record j := by
  cases h with
  | conclude =>
    cases ht
    exact ⟨rfl, rfl⟩
  | accept | announce => cases Intake.eq_submitting ht
  | _ => cases ht

theorem Moves.before_completing {o : Orchestrator} {t t' : Option Routine} {c : Call}
    {n : QueueName} {j : Job} (h : Moves o t c t') (ht : t' = some (.completing n j)) :
    t = some (.finishing n j) := by
  cases h with
  | finish =>
    cases ht
    rfl
  | accept | announce => cases Intake.eq_submitting ht
  | _ => cases ht

theorem Moves.before_complete {o : Orchestrator} {t t' : Option Routine} {n : QueueName}
    {j : Job} (h : Moves o t (.complete n j) t') : t = some (.completing n j) := by
  cases h with
  | complete => rfl

/-! ## What the board shows in turn -/

/-- The state of the job that a call puts on the board. -/
def Call.recorded? (id : JobId) : Call → Option Job
  | record j => if j.id = id then some j else none
  | _ => none

theorem Call.recorded?_eq_some_iff {id : JobId} {c : Call} {j : Job} :
    c.recorded? id = some j ↔ c = record j ∧ j.id = id := by
  cases c with
  | record i =>
    simp only [recorded?]
    by_cases hi : i.id = id
    · rw [if_pos hi, Option.some.injEq, record.injEq]
      constructor
      · rintro rfl
        exact ⟨rfl, hi⟩
      · exact fun h => h.1
    · rw [if_neg hi]
      constructor
      · exact fun h => nomatch h
      · rintro ⟨h, he⟩
        cases h
        exact absurd he hi
  | _ =>
    constructor
    · exact fun h => nomatch h
    · rintro ⟨h, -⟩
      cases h

/-- **A state is overtaken**: the job is put on the board as queued after it was put there
as running at the same attempt. -/
def Overtaken (states : List Job) : Prop :=
  ∃ x y, [x, y].Sublist states ∧ x.status = .running ∧ y.status = .queued ∧
    x.attempt = y.attempt

namespace Interleaving

/-- **The states of a job on the board**, in turn. -/
def records (w : Interleaving) (id : JobId) : List Job := w.calls.filterMap (Call.recorded? id)

theorem mem_records_iff {w : Interleaving} {id : JobId} {j : Job} :
    j ∈ w.records id ↔ Call.record j ∈ w.calls ∧ j.id = id := by
  unfold records
  rw [List.mem_filterMap]
  constructor
  · rintro ⟨c, hc, hj⟩
    obtain ⟨rfl, he⟩ := Call.recorded?_eq_some_iff.mp hj
    exact ⟨hc, he⟩
  · rintro ⟨hc, he⟩
    exact ⟨_, hc, Call.recorded?_eq_some_iff.mpr ⟨rfl, he⟩⟩

/-- What is on the board is in one of the states of a job that was added. -/
theorem Reachable.state_of_record {w : Interleaving} (h : Reachable w) {j : Job}
    (hj : Call.record j ∈ w.calls) : ∃ n, j.Waits n ∨ j.Runs n ∨ j.Ended n := by
  refine h.invariant (P := fun w => Call.record j ∈ w.calls →
    ∃ n, j.Waits n ∨ j.Runs n ∨ j.Ended n) ?_ ?_ hj
  · rintro u ⟨config, adapters, host, ids, rfl⟩ hj
    cases hj
  · intro v w hv ih hs hj
    cases hs with
    | @serve o t t' c hm l r calls =>
      rcases List.mem_append.mp hj with hold | hnew
      · exact ih hold
      · obtain rfl := List.mem_singleton.mp hnew
        rcases hm.cases_of_record hv.orderly.proper with
          ⟨_, n, -, -, hw⟩ | ⟨_, n, -, -, -, hr, -⟩ | ⟨n, -, he, -⟩
        · exact ⟨n, .inl hw⟩
        · exact ⟨n, .inr (.inl hr)⟩
        · exact ⟨n, .inr (.inr he)⟩

/-- A state that a job has on the board is no later than its end. -/
theorem Reachable.stage_le {w : Interleaving} (h : Reachable w) {j : Job}
    (hj : Call.record j ∈ w.calls) : j.stage ≤ 4 := by
  obtain ⟨n, hw | hr | he⟩ := h.state_of_record hj
  · have := n.attempt_le_one
    have := hw.1.attempt
    rw [hw.stage_eq]
    omega
  · have := n.attempt_le_one
    have := hr.1.attempt
    rw [hr.stage_eq]
    omega
  · exact Nat.le_of_eq he.stage_eq

/-- Only a queued job is at the stage of its additions. -/
theorem Reachable.queued_of_stage {w : Interleaving} (h : Reachable w) {j : Job} {a : Nat}
    (hj : Call.record j ∈ w.calls) (ha : a ≤ 1) (hs : j.stage = 2 * a) :
    j.status = .queued ∧ j.attempt = a := by
  obtain ⟨n, hw | hr | he⟩ := h.state_of_record hj
  · rw [hw.stage_eq] at hs
    exact ⟨hw.2, by omega⟩
  · rw [hr.stage_eq] at hs
    omega
  · rw [he.stage_eq] at hs
    omega

/-- **A state that is put on the board is later than those before it**, unless it is
overtaken. -/
theorem Step.stage_lt {v w : Interleaving} (hs : Step v w) (hv : Reachable v) (hd : w.Distinct)
    {x : Job} (hc : w.calls = v.calls ++ [.record x])
    (ho : ¬ Overtaken (v.records x.id ++ [x])) : ∀ y ∈ v.records x.id, y.stage < x.stage := by
  intro y hy
  obtain ⟨hymem, hyid⟩ := mem_records_iff.mp hy
  have hvd := hs.distinct hd
  have hbound := hv.bounds_recordings hvd _ hymem y.id y.stage rfl
  cases hs with
  | @serve o t t' c hm l r calls =>
    obtain rfl : c = .record x := by simpa using List.append_cancel_left hc
    rcases hm.cases_of_record hv.orderly.proper with
      ⟨z, n, rfl, hz, hwaits⟩ | ⟨i, n, rfl, hid, ha, hruns, -⟩ | ⟨n, rfl, hended, -⟩
    · -- the job is announced: it was added once and is not announced twice
      have hzmem : z ∈ l ++ (some z).toList ++ r := by simp
      rw [hwaits.stage_eq]
      rcases Nat.lt_trichotomy y.stage (2 * x.attempt) with hlt | heq | hgt
      · exact hlt
      · have hle : x.attempt ≤ 1 := hwaits.1.attempt ▸ n.attempt_le_one
        obtain ⟨hst, ha⟩ := hv.queued_of_stage hymem hle heq
        have hnone := hv.unlisted_of_announced hvd hzmem hz
        exact absurd (by simp [Call.lists, hyid, ha, hst])
          (List.countP_eq_zero.mp hnone (.record y) hymem)
      · obtain ⟨m, i, hi, hid, ha⟩ := hv.added_of_announces (countP_announces_pos hzmem hz)
        obtain ⟨k, hk, hkid, hks, hka⟩ := hv.began_of_later hvd hi hymem (hyid.trans hid.symm)
          (by omega) i.attempt (Nat.lt_succ_self _)
        refine absurd ⟨k, x, ?_, hks, hwaits.2, hka.trans ha⟩ ho
        have hkmem : k ∈ records ⟨o, l ++ (some z).toList ++ r, calls⟩ x.id :=
          mem_records_iff.mpr ⟨hk, hkid.trans hid⟩
        exact (List.singleton_sublist.mpr hkmem).append (List.Sublist.refl [x])
    · have := hbound.1 (.opening n i) (by simp) (decide_eq_true (hid.trans hyid.symm))
      rw [hruns.stage_eq, ← ha]
      exact this
    · have hlt := hbound.1 (.concluding n x) (by simp) (decide_eq_true hyid.symm)
      have := hended.1.attempt
      have := n.attempt_le_one
      rw [hended.stage_eq]
      simp only [Gauge.recordings, Routine.reach] at hlt
      omega

theorem records_append {v w : Interleaving} {c : Call} (hc : w.calls = v.calls ++ [c])
    (id : JobId) : w.records id = v.records id ++ (c.recorded? id).toList := by
  unfold records
  rw [hc, filterMap_append_singleton]

/-- **The board advances** as long as no state is overtaken. -/
theorem Reachable.pairwise_records {w : Interleaving} (h : Reachable w) (hd : w.Distinct)
    (id : JobId) (ho : ¬ Overtaken (w.records id)) :
    (w.records id).Pairwise fun x y => x.stage < y.stage := by
  refine h.invariant_of_distinct hd (P := fun w => ¬ Overtaken (w.records id) →
    (w.records id).Pairwise fun x y => x.stage < y.stage) ?_ ?_ ho
  · rintro u ⟨config, adapters, host, ids, rfl⟩ -
    exact List.Pairwise.nil
  · intro v w hv hw ih hs ho
    obtain ⟨c, hc⟩ := hs.calls_eq
    rw [records_append hc] at ho ⊢
    -- the states before the last are not overtaken either
    have hbefore : ¬ Overtaken (v.records id) := by
      rintro ⟨x, y, hsub, hxy⟩
      exact ho ⟨x, y, hsub.trans (List.sublist_append_left _ _), hxy⟩
    cases hx : c.recorded? id with
    | none =>
      rw [Option.toList_none, List.append_nil]
      exact ih hbefore
    | some x =>
      obtain ⟨rfl, rfl⟩ := Call.recorded?_eq_some_iff.mp hx
      rw [hx, Option.toList_some] at ho
      rw [Option.toList_some, List.pairwise_append]
      refine ⟨ih hbefore, List.pairwise_singleton _ _, ?_⟩
      intro y hy z hz
      rw [List.mem_singleton.mp hz]
      exact hs.stage_lt hv hw hc ho y hy

/-- **The board shows the last state** that a job was put there in, if no job is taken
off. -/
theorem Reachable.get?_board {w : Interleaving} (h : Reachable w)
    (hr : ∀ id, .remove id ∉ w.calls) (id : JobId) :
    w.orchestrator.board.get? id = (w.records id).getLast? := by
  refine h.invariant (P := fun w => (∀ id, .remove id ∉ w.calls) →
    w.orchestrator.board.get? id = (w.records id).getLast?) ?_ ?_ hr
  · rintro u ⟨config, adapters, host, ids, rfl⟩ -
    rfl
  · intro v w hv ih hs hr
    obtain ⟨c, hc⟩ := hs.calls_eq
    have hrv := ih fun i hi => hr i (by rw [hc]; exact List.mem_append_left _ hi)
    have ho : w.orchestrator = v.orchestrator.serve c := by
      obtain ⟨_, _, _, ho⟩ := hs.moves hc
      exact ho
    rw [records_append hc, ho]
    cases c with
    | record j =>
      show (v.orchestrator.board.record j).get? id = _
      rw [JobBoard.get?_record, hrv]
      by_cases hj : id = j.id
      · subst hj
        simp [Call.recorded?]
      · simp [Call.recorded?, hj, Ne.symm hj]
    | remove i => exact absurd (by rw [hc]; simp) (hr i)
    | _ =>
      rw [show (_ : Option Job).toList = [] from rfl, List.append_nil]
      exact hrv

/-- Whoever completes a job has put its end on the board. -/
theorem Reachable.recorded_of_complete {w : Interleaving} (h : Reachable w) {n : QueueName}
    {j : Job} (hj : .complete n j ∈ w.calls) : Call.record j ∈ w.calls ∧ j.Ended n := by
  have hall : (∀ t ∈ w.tasks, (t = .finishing n j ∨ t = .completing n j) →
      Call.record j ∈ w.calls) ∧
      (.complete n j ∈ w.calls → Call.record j ∈ w.calls ∧ j.Ended n) := by
    refine h.invariant (P := fun w => (∀ t ∈ w.tasks,
      (t = .finishing n j ∨ t = .completing n j) → Call.record j ∈ w.calls) ∧
      (.complete n j ∈ w.calls → Call.record j ∈ w.calls ∧ j.Ended n)) ?_ ?_
    · rintro u ⟨config, adapters, host, ids, rfl⟩
      exact ⟨(fun _ ht => nomatch ht), fun hc => nomatch hc⟩
    · rintro v w hv ⟨htasks, hcalls⟩ hs
      cases hs with
      | @serve o t t' c hm l r calls =>
        have hold : ∀ d ∈ calls, d ∈ calls ++ [c] := fun d hd => List.mem_append_left _ hd
        refine ⟨?_, ?_⟩
        · intro y hy he
          rcases mem_tasks_iff.mp hy with hy | hy
          · rcases he with rfl | rfl
            · obtain ⟨-, rfl⟩ := hm.before_finishing hy
              exact List.mem_append_right _ (List.mem_singleton.mpr rfl)
            · have ht := hm.before_completing hy
              exact hold _ (htasks _ (by simp [ht]) (.inl rfl))
          · exact hold _ (htasks y (mem_tasks_iff.mpr (.inr hy)) he)
        · intro hc
          rcases List.mem_append.mp hc with hc | hc
          · exact ⟨hold _ (hcalls hc).1, (hcalls hc).2⟩
          · obtain rfl := List.mem_singleton.mp hc
            have ht := hm.before_complete
            exact ⟨hold _ (htasks (.completing n j) (by simp [ht]) (.inr rfl)),
              hv.orderly.tasks (.completing n j) (by simp [ht])⟩
  exact hall.2 hj

/-- If the states of a completed job advance, the last of them is its end. -/
theorem Reachable.getLast?_records {w : Interleaving} (h : Reachable w) {n : QueueName} {j : Job}
    (hj : .complete n j ∈ w.calls)
    (hp : (w.records j.id).Pairwise fun x y => x.stage < y.stage) :
    (w.records j.id).getLast? = some j := by
  obtain ⟨hrec, hended⟩ := h.recorded_of_complete hj
  have hmem : j ∈ w.records j.id := mem_records_iff.mpr ⟨hrec, rfl⟩
  obtain ⟨init, last, hlast⟩ := List.eq_nil_or_concat (w.records j.id) |>.resolve_left
    (List.ne_nil_of_mem hmem)
  rw [List.concat_eq_append] at hlast
  have hle : last.stage ≤ 4 := by
    have hlastmem : last ∈ w.records j.id := by rw [hlast]; simp
    exact h.stage_le (mem_records_iff.mp hlastmem).1
  rw [hlast] at hmem hp
  rw [hlast, List.getLast?_concat]
  rcases List.mem_append.mp hmem with hin | hin
  · -- then the last state is later than the end, which nothing is
    have hlt := (List.pairwise_append.mp hp).2.2 j hin last (by simp)
    rw [hended.stage_eq] at hlt
    omega
  · rw [List.mem_singleton.mp hin]

/-- **The board advances exactly if no state is overtaken**: then each state that a job is
put on the board in is later than those before it, and from the end of a job on the board
shows that end.  No job may be taken off the board. -/
theorem board_advances_iff {w : Interleaving} (h : Reachable w) (hd : w.Distinct)
    (hr : ∀ id, .remove id ∉ w.calls) :
    ((∀ id, (w.records id).Pairwise fun x y => x.stage < y.stage) ∧
      ∀ n j, .complete n j ∈ w.calls →
        j.status.isTerminal = true ∧ w.orchestrator.board.get? j.id = some j) ↔
    ∀ id, ¬ Overtaken (w.records id) := by
  constructor
  · rintro ⟨hp, -⟩ id ⟨x, y, hsub, hx, hy, ha⟩
    -- an overtaken state is one stage before the one that it comes after
    have hlt : x.stage < y.stage := by
      have := (hp id).sublist hsub
      exact (List.pairwise_cons.mp this).1 y (by simp)
    unfold Job.stage at hlt
    rw [hx, hy] at hlt
    simp only at hlt
    omega
  · intro ho
    have hp := fun id => h.pairwise_records hd id (ho id)
    refine ⟨hp, ?_⟩
    intro n j hj
    refine ⟨(h.recorded_of_complete hj).2.2, ?_⟩
    rw [h.get?_board hr]
    exact h.getLast?_records hj (hp j.id)

end Interleaving

/-! ## An overtaken state -/

namespace Sample

/-- A worker brings a job to its end before the submission announces the job. -/
def overtaken : Interleaving := start.follow
  [.submit (submission .statement "email"), .go 0, .go 0,
    .take .run, .go 1, .go 1, .go 1, .judge 1 .passed, .go 1, .go 1, .go 1,
    .go 0, .go 0]

/-- The job of the submission. -/
def job : JobId := ⟨uuid 2⟩

theorem reachable_overtaken : overtaken.Reachable := reachable_start.follow _

theorem distinct_overtaken : overtaken.Distinct :=
  distinct_of_drawn_le (start.steps_follow _) (by decide +kernel)

/-- A call takes a job off the board. -/
def removes : Call → Bool
  | .remove _ => true
  | _ => false

theorem not_removed_of_all {w : Interleaving} (h : (w.calls.all fun c => !removes c) = true)
    (id : JobId) : .remove id ∉ w.calls := by
  intro hc
  have := List.all_eq_true.mp h _ hc
  cases this

end Sample

namespace Interleaving

/-- **An ended job is shown as queued for good.**  All routines have ended, the job was
completed after it succeeded, and the board shows it as queued. -/
theorem ended_job_shown_as_queued :
    Sample.overtaken.Reachable ∧ Sample.overtaken.Distinct ∧
      Sample.overtaken.tasks.length = 0 ∧
      (Sample.overtaken.orchestrator.queue .run).finished.map (fun d => (d.2.id, d.2.status)) =
        [(Sample.job, .succeeded)] ∧
      (Sample.overtaken.records Sample.job).map Job.status = [.running, .succeeded, .queued] ∧
      (Sample.overtaken.orchestrator.board.get? Sample.job).map Job.status = some .queued := by
  refine ⟨Sample.reachable_overtaken, Sample.distinct_overtaken, ?_, ?_, ?_, ?_⟩
  all_goals decide +kernel

/-- Where a state is overtaken, the board does not advance. -/
theorem board_goes_back_when_overtaken :
    Sample.overtaken.Reachable ∧ Sample.overtaken.Distinct ∧
      (∀ id, .remove id ∉ Sample.overtaken.calls) ∧
      ¬ ((∀ id, (Sample.overtaken.records id).Pairwise fun x y => x.stage < y.stage) ∧
        ∀ n j, .complete n j ∈ Sample.overtaken.calls → j.status.isTerminal = true ∧
          Sample.overtaken.orchestrator.board.get? j.id = some j) := by
  have hr := Sample.not_removed_of_all (w := Sample.overtaken) (by decide +kernel)
  refine ⟨Sample.reachable_overtaken, Sample.distinct_overtaken, hr, ?_⟩
  intro h
  have hnot := (board_advances_iff Sample.reachable_overtaken Sample.distinct_overtaken hr).mp h
  have hstates : (Sample.overtaken.records Sample.job).map (fun j => (j.status, j.attempt)) =
      [(.running, 0), (.succeeded, 0), (.queued, 0)] := by decide +kernel
  obtain ⟨x, _, hrec, hx, hrest⟩ := List.map_eq_cons_iff.mp hstates
  obtain ⟨y, _, rfl, -, hrest⟩ := List.map_eq_cons_iff.mp hrest
  obtain ⟨z, _, rfl, hz, hrest⟩ := List.map_eq_cons_iff.mp hrest
  obtain rfl := List.map_eq_nil_iff.mp hrest
  obtain ⟨hx, hxa⟩ := Prod.mk.inj hx
  obtain ⟨hz, hza⟩ := Prod.mk.inj hz
  refine hnot Sample.job ⟨x, z, ?_, hx, hz, hxa.trans hza.symm⟩
  rw [hrec]
  exact List.Sublist.cons_cons x (List.Sublist.cons y (List.Sublist.refl [z]))

end Interleaving

end Testplan
