import Testplan.Proofs.Placement
/-!
# Calls on a job

There are two ways to move a job: to give it another status, and to queue it for healing.  A
call that is refused leaves the job as it is (`Job.after`).  `Job.calls` lists what a sequence of
calls does, call by call.

Two laws hold of every call, and so of every sequence of calls.  The attempt of a job counts how
often the job was queued for healing (`MadeCall.attempt_next`), and every start uses up a
start that the status of the job leaves open (`MadeCall.startsOpen_next`): a new job has
one, and a failed job that is queued again gains one.

What ended is left only by failed jobs that are queued again.  Healing does this once at most.
A change of the status does it for any failure, so the end of a job is final exactly if nobody
asks for that (`Job.endIsFinal_iff`).
-/
namespace Testplan

/-! ## Calls -/

/-- A call on a job. -/
inductive JobCall where
  | transition (next : JobStatus)
  | requeue (plan : PlanRef)
deriving DecidableEq

/-- What a call makes of the job, if it is not refused. -/
def Job.call? (j : Job) : JobCall → Option Job
  | .transition next => j.transition? next
  | .requeue plan => j.requeueForHealing? plan

/-- The job after a call. -/
def Job.after (j : Job) (c : JobCall) : Job := (j.call? c).getD j

/-- A call and the job that it is made on. -/
structure MadeCall where
  job : Job
  call : JobCall

/-- The calls of a sequence, each with the job that it finds. -/
def Job.calls (j : Job) : List JobCall → List MadeCall
  | [] => []
  | c :: cs => ⟨j, c⟩ :: (j.after c).calls cs

/-- The job after a sequence of calls. -/
def Job.afterAll (j : Job) (cs : List JobCall) : Job := cs.foldl Job.after j

/-- The starts that a job can make before it ends. -/
def JobStatus.startsOpen : JobStatus → Nat
  | created | queued => 1
  | running | succeeded | failed _ => 0

/-- Any failure may be followed by another turn in a queue. -/
theorem JobStatus.canBecome_queued {status : JobStatus} (h : status.isFailure = true) :
    status.canBecome .queued = true := by
  cases status <;> first | rfl | cases h

namespace MadeCall

/-- The job after the call. -/
def next (s : MadeCall) : Job := s.job.after s.call

/-- The job starts to run. -/
def starts (s : MadeCall) : Bool := s.job.status ≠ .running && s.next.status = .running

/-- The job had ended and does not stay so. -/
def reopens (s : MadeCall) : Bool := s.job.status.isTerminal && s.next.status ≠ s.job.status

/-- The job is queued for healing. -/
def heals (s : MadeCall) : Bool :=
  match s.call with
  | .requeue plan => (s.job.requeueForHealing? plan).isSome
  | .transition _ => false

/-- A failed job is given the status of a job that waits. -/
def forces (s : MadeCall) : Bool := s.job.status.isFailure && s.call = .transition .queued

/-! ## What a call does -/

/-- **What a call does**: nothing, a step in the life of the job, or healing. -/
inductive Outcome (s : MadeCall) : Prop where
  | refused (hheals : s.heals = false) (hforces : s.forces = false) (hnext : s.next = s.job)
  | moved (status : JobStatus) (hcall : s.call = .transition status)
      (hstatus : s.job.status.canBecome status = true) (hnext : s.next = { s.job with status })
  | healed (plan : PlanRef) (hcall : s.call = .requeue plan) (hheals : s.heals = true)
      (hjob : s.job.isHealable = true)
      (hnext : s.next = { s.job with status := .queued, plan, queue := .healing, attempt := 1 })

theorem outcome (s : MadeCall) : s.Outcome := by
  obtain ⟨j, c⟩ := s
  cases c with
  | transition status =>
    by_cases h : j.status.canBecome status = true
    · exact .moved status rfl h (by simp [next, Job.after, Job.call?, Job.transition?, h])
    · refine .refused rfl ?_ (by simp [next, Job.after, Job.call?, Job.transition?, h])
      refine Bool.eq_false_iff.mpr fun hforced => h ?_
      obtain ⟨hfailed, rfl⟩ : j.status.isFailure = true ∧ status = .queued := by
        simpa [forces] using hforced
      exact JobStatus.canBecome_queued hfailed
  | requeue plan =>
    cases h : j.requeueForHealing? plan with
    | none => exact .refused (by simp [heals, h]) (by simp [forces]) (by simp [next, Job.after, Job.call?, h])
    | some healed =>
      obtain ⟨hjob, rfl⟩ := (Job.requeueForHealing?_eq_some_iff j plan healed).mp h
      refine .healed plan rfl (by simp [heals, h]) hjob ?_
      simp [next, Job.after, Job.call?, h, ((Job.isHealable_iff j).mp hjob).2.1]

section Laws

variable (s : MadeCall)

theorem attempt_next : s.next.attempt = s.job.attempt + s.heals.toNat := by
  cases s.outcome with
  | refused hheals _ hnext => simp [hnext, hheals]
  | moved status hcall _ hnext => simp [hnext, heals, hcall]
  | healed plan _ hheals hjob hnext =>
    simp [hnext, hheals, ((Job.isHealable_iff s.job).mp hjob).2.1]

theorem startsOpen_next :
    s.starts.toNat + s.next.status.startsOpen = s.job.status.startsOpen + s.reopens.toNat := by
  cases s.outcome with
  | refused _ _ hnext => cases h : s.job.status <;> simp [starts, reopens, hnext, h]
  | moved status _ hstatus hnext =>
    cases h : s.job.status <;> cases status <;>
      simp_all [starts, reopens, JobStatus.canBecome, JobStatus.startsOpen, JobStatus.isTerminal]
  | healed plan _ _ hjob hnext =>
    obtain ⟨⟨f, hf, -⟩, -⟩ := (Job.isHealable_iff s.job).mp hjob
    simp [starts, reopens, hnext, hf, JobStatus.startsOpen, JobStatus.isTerminal]

/-- What ended is left only when the job is queued again. -/
theorem reopens_toNat : s.reopens.toNat = s.heals.toNat + s.forces.toNat := by
  cases s.outcome with
  | refused hheals hforces hnext => simp [reopens, hnext, hheals, hforces]
  | moved status hcall hstatus hnext =>
    cases h : s.job.status <;> cases status <;>
      simp_all [reopens, heals, forces, JobStatus.canBecome, JobStatus.isTerminal,
        JobStatus.isFailure]
  | healed plan hcall hheals hjob hnext =>
    obtain ⟨⟨f, hf, -⟩, -⟩ := (Job.isHealable_iff s.job).mp hjob
    simp [reopens, hheals, forces, hcall, hnext, hf, JobStatus.isTerminal]

/-- Without healing only the status changes. -/
theorem next_of_not_heals (h : s.heals = false) :
    s.next = { s.job with status := s.next.status } := by
  cases s.outcome with
  | refused _ _ hnext => rw [hnext]
  | moved status _ _ hnext => rw [hnext]
  | healed _ _ hheals => exact absurd h (by simp [hheals])

theorem reopens_iff : s.reopens = true ↔ s.heals = true ∨ s.forces = true := by
  have h := s.reopens_toNat
  revert h
  cases s.reopens <;> cases s.heals <;> cases s.forces <;> decide

variable {s}

/-- **Who is healed**: a job whose first attempt found no element. -/
theorem healed_of_heals (h : s.heals = true) : ∃ f plan, s.job.status = .failed f ∧
    f.kind = .selectorNotFound ∧ s.job.attempt = 0 ∧ s.job.queue ≠ .healing ∧
    s.call = .requeue plan ∧
    s.next = { s.job with status := .queued, plan, queue := .healing, attempt := 1 } := by
  cases s.outcome with
  | refused hheals => exact absurd h (by simp [hheals])
  | moved _ hcall => exact absurd h (by simp [heals, hcall])
  | healed plan hcall _ hjob hnext =>
    obtain ⟨⟨f, hf, hkind⟩, hattempt, hqueue⟩ := (Job.isHealable_iff s.job).mp hjob
    exact ⟨f, plan, hf, hkind, hattempt, hqueue, hcall, hnext⟩

theorem forced_of_forces (h : s.forces = true) : s.job.status.isFailure = true ∧
    s.call = .transition .queued ∧ s.next = { s.job with status := .queued } := by
  have hcall : s.job.status.isFailure = true ∧ s.call = .transition .queued := by
    simpa [forces] using h
  refine ⟨hcall.1, hcall.2, ?_⟩
  simp [next, Job.after, Job.call?, hcall.2, Job.transition?, JobStatus.canBecome_queued hcall.1]

/-- **A job that ended stays as it is** unless it is queued again. -/
theorem next_of_ended (hend : s.job.status.isTerminal = true) (hheals : s.heals = false)
    (hforces : s.forces = false) : s.next = s.job := by
  have hstays : s.next.status = s.job.status := by
    have hreopens : ¬ s.reopens = true := fun h => by simp_all [s.reopens_iff]
    simpa [reopens, hend] using hreopens
  rw [s.next_of_not_heals hheals, hstays]

end Laws

end MadeCall

/-! ## What a sequence of calls does -/

namespace Job

section Sequences

variable (j : Job) (cs : List JobCall)

theorem countP_calls_cons (p : MadeCall → Bool) (c : JobCall) :
    (j.calls (c :: cs)).countP p = ((j.after c).calls cs).countP p + (p ⟨j, c⟩).toNat := by
  rw [calls, List.countP_cons]
  cases p ⟨j, c⟩ <;> rfl

/-- A balance that every call keeps is kept by a sequence of calls. -/
theorem balance_calls (measure : Job → Nat) (spent gained : MadeCall → Bool)
    (h : ∀ s : MadeCall,
      (spent s).toNat + measure s.next = measure s.job + (gained s).toNat) :
    (j.calls cs).countP spent + measure (j.afterAll cs) =
      measure j + (j.calls cs).countP gained := by
  induction cs generalizing j with
  | nil => simp [calls, afterAll]
  | cons c cs ih =>
    have hcall : (spent ⟨j, c⟩).toNat + measure (j.after c) = measure j + (gained ⟨j, c⟩).toNat :=
      h ⟨j, c⟩
    have hrest : ((j.after c).calls cs).countP spent + measure (j.afterAll (c :: cs)) =
        measure (j.after c) + ((j.after c).calls cs).countP gained := ih (j.after c)
    simp only [countP_calls_cons]
    omega

/-- The attempt counts how often the job was queued for healing. -/
theorem attempt_afterAll :
    (j.afterAll cs).attempt = j.attempt + (j.calls cs).countP MadeCall.heals := by
  have h := j.balance_calls cs attempt (fun _ => false) MadeCall.heals fun s => by
    simpa using s.attempt_next
  simpa using h

/-- The starts, up to the one that the job may still make. -/
theorem startsOpen_afterAll :
    (j.calls cs).countP MadeCall.starts + (j.afterAll cs).status.startsOpen =
      j.status.startsOpen + (j.calls cs).countP MadeCall.reopens :=
  j.balance_calls cs (fun j => j.status.startsOpen) _ _ MadeCall.startsOpen_next

theorem countP_reopens : (j.calls cs).countP MadeCall.reopens =
    (j.calls cs).countP MadeCall.heals + (j.calls cs).countP MadeCall.forces := by
  induction cs generalizing j with
  | nil => rfl
  | cons c cs ih =>
    have hcall := (MadeCall.mk j c).reopens_toNat
    simp only [countP_calls_cons, ih]
    omega

variable {j}

theorem attempt_after_le (h : j.attempt ≤ 1) (c : JobCall) : (j.after c).attempt ≤ 1 := by
  have hcall : (j.after c).attempt = j.attempt + (MadeCall.mk j c).heals.toNat :=
    (MadeCall.mk j c).attempt_next
  cases hheals : (MadeCall.mk j c).heals with
  | false => simpa [hcall, hheals] using h
  | true =>
    obtain ⟨-, -, -, -, hattempt, -⟩ := MadeCall.healed_of_heals hheals
    have hfirst : j.attempt = 0 := hattempt
    simp [hcall, hheals, hfirst]

theorem attempt_afterAll_le (h : j.attempt ≤ 1) : (j.afterAll cs).attempt ≤ 1 := by
  induction cs generalizing j with
  | nil => exact h
  | cons c cs ih => exact ih (attempt_after_le h c)

/-- **A job is healed once at most.** -/
theorem countP_heals_le (h : j.attempt ≤ 1) : (j.calls cs).countP MadeCall.heals ≤ 1 := by
  have hattempt := j.attempt_afterAll cs
  have hle := attempt_afterAll_le cs h
  omega

/-- A job that every call leaves as it is stays as it is. -/
theorem afterAll_of_forall (h : ∀ c ∈ cs, j.after c = j) : j.afterAll cs = j := by
  induction cs with
  | nil => rfl
  | cons c cs ih =>
    rw [List.forall_mem_cons] at h
    rw [afterAll, List.foldl_cons, h.1]
    exact ih h.2

/-- A job that succeeded stays as it is. -/
theorem afterAll_of_succeeded (h : j.status = .succeeded) : j.afterAll cs = j := by
  refine afterAll_of_forall cs fun c _ => MadeCall.next_of_ended (s := ⟨j, c⟩) ?_ ?_ ?_
  · simp [h, JobStatus.isTerminal]
  · refine Bool.eq_false_iff.mpr fun hheals => ?_
    obtain ⟨f, -, hf, -⟩ := MadeCall.healed_of_heals hheals
    cases h.symm.trans hf
  · simp [MadeCall.forces, h, JobStatus.isFailure]

theorem calls_append (before rest : List JobCall) :
    j.calls (before ++ rest) = j.calls before ++ (j.afterAll before).calls rest := by
  induction before generalizing j with
  | nil => rfl
  | cons c before ih => exact congrArg (MadeCall.mk j c :: ·) ih

theorem afterAll_append (before rest : List JobCall) :
    j.afterAll (before ++ rest) = (j.afterAll before).afterAll rest :=
  List.foldl_append

/-- A job that ended and cannot be healed stays as it is, unless it is queued again by force. -/
theorem afterAll_of_ended (hend : j.status.isTerminal = true) (hheal : j.isHealable = false)
    (hforces : ∀ s ∈ j.calls cs, s.forces = false) : j.afterAll cs = j := by
  induction cs generalizing j with
  | nil => rfl
  | cons c cs ih =>
    obtain ⟨hcall, hrest⟩ := List.forall_mem_cons.mp hforces
    have hheals : (MadeCall.mk j c).heals = false := by
      refine Bool.eq_false_iff.mpr fun hheals => ?_
      obtain ⟨f, plan, hf, hkind, hattempt, hqueue, -⟩ := MadeCall.healed_of_heals hheals
      exact Bool.eq_false_iff.mp hheal
        ((isHealable_iff j).mpr ⟨⟨f, hf, hkind⟩, hattempt, hqueue⟩)
    have hafter : j.after c = j := MadeCall.next_of_ended hend hheals hcall
    rw [hafter] at hrest
    rw [afterAll, List.foldl_cons, hafter]
    exact ih hend hheal hrest

end Sequences

/-! ## The end of a job -/

/-- **The end of a job is final** in a sequence of calls. -/
structure EndIsFinal (j : Job) (cs : List JobCall) : Prop where
  /-- What ended is left only for healing. -/
  reopens : ∀ s ∈ j.calls cs, s.reopens = true → s.heals = true
  /-- The job starts once, and once more if it is healed. -/
  starts : (j.calls cs).countP MadeCall.starts ≤ 2
  /-- Where it ended and cannot be healed, it stays. -/
  stays : ∀ before rest, before ++ rest = cs → (j.afterAll before).status.isTerminal = true →
    (j.afterAll before).isHealable = false → j.afterAll cs = j.afterAll before

/-- **What calls do to a new job.**  It leaves the status in which it ended only if that is a
failure, and only to be queued again, for healing or by a change of its status.  The first
happens at most once, only to a job whose first attempt found no element, and only there the
plan, the queue and the attempt change.  The job starts as often as it was queued, except
perhaps for the last time.

So the end of a job is final exactly if the status of a failed job is never changed to that of
a job that waits. -/
theorem endIsFinal_iff {j : Job} (hstatus : j.status = .created) (hattempt : j.attempt = 0)
    (cs : List JobCall) :
    (∀ s ∈ j.calls cs, s.reopens = true → s.job.status.isFailure = true ∧
      s.next.status = .queued ∧ (s.heals = true ∨ s.call = .transition .queued)) ∧
    (∀ s ∈ j.calls cs, s.heals = true → ∃ f plan, s.job.status = .failed f ∧
      f.kind = .selectorNotFound ∧ s.job.attempt = 0 ∧ s.job.queue ≠ .healing ∧
      s.call = .requeue plan ∧
      s.next = { s.job with status := .queued, plan, queue := .healing, attempt := 1 }) ∧
    (∀ s ∈ j.calls cs, s.heals = false → s.next = { s.job with status := s.next.status }) ∧
    (j.calls cs).countP MadeCall.heals ≤ 1 ∧
    (j.calls cs).countP MadeCall.starts + (j.afterAll cs).status.startsOpen =
      1 + (j.calls cs).countP MadeCall.heals + (j.calls cs).countP MadeCall.forces ∧
    (∀ before rest, before ++ rest = cs → (j.afterAll before).status = .succeeded →
      j.afterAll cs = j.afterAll before) ∧
    (j.EndIsFinal cs ↔ ∀ s ∈ j.calls cs, s.forces = false) := by
  have hheals : (j.calls cs).countP MadeCall.heals ≤ 1 := countP_heals_le cs (by omega)
  have hstarts : (j.calls cs).countP MadeCall.starts + (j.afterAll cs).status.startsOpen =
      1 + (j.calls cs).countP MadeCall.heals + (j.calls cs).countP MadeCall.forces := by
    have hopen := j.startsOpen_afterAll cs
    have hreopens := j.countP_reopens cs
    rw [hstatus, JobStatus.startsOpen] at hopen
    omega
  refine ⟨?_, fun s _ => MadeCall.healed_of_heals, fun s _ => s.next_of_not_heals, hheals,
    hstarts, ?_, ?_⟩
  · intro s _ hs
    rcases s.reopens_iff.mp hs with hs | hs
    · obtain ⟨f, plan, hf, -, -, -, -, hnext⟩ := MadeCall.healed_of_heals hs
      exact ⟨by rw [hf]; rfl, by rw [hnext], .inl hs⟩
    · obtain ⟨hfailed, hcall, hnext⟩ := MadeCall.forced_of_forces hs
      exact ⟨hfailed, by rw [hnext], .inr hcall⟩
  · rintro before rest rfl hend
    rw [afterAll_append, afterAll_of_succeeded rest hend]
  · constructor
    · intro h s hs
      refine Bool.eq_false_iff.mpr fun hforces => ?_
      have hhealed := h.reopens s hs (s.reopens_iff.mpr (.inr hforces))
      obtain ⟨-, plan, -, -, -, -, hrequeue, -⟩ := MadeCall.healed_of_heals hhealed
      cases hrequeue.symm.trans (MadeCall.forced_of_forces hforces).2.1
    · intro hforces
      have hnone : (j.calls cs).countP MadeCall.forces = 0 :=
        List.countP_eq_zero.mpr fun s hs => by simp [hforces s hs]
      refine ⟨fun s hs hreopens => ?_, by omega, ?_⟩
      · simpa [hforces s hs] using s.reopens_iff.mp hreopens
      · rintro before rest rfl hend hheal
        rw [calls_append] at hforces
        rw [afterAll_append]
        exact afterAll_of_ended rest hend hheal fun s hs =>
          hforces s (List.mem_append_right _ hs)

end Job

namespace Sample

/-- A new job in the queue for ordinary runs. -/
def newJob : Job := { id := default, plan := default, framework := "playwright-ts", queue := .run }

/-- The job is queued, starts and fails. -/
def runFailing (kind : FailureKind) : List JobCall :=
  [.transition .queued, .transition .running, .transition (.failed { kind, message := "x" })]

end Sample

/-- A job that finds no element is healed and succeeds, and asking for more changes nothing. -/
theorem Job.endIsFinal_healed :
    let calls := Sample.runFailing .selectorNotFound ++
      [.requeue default, .transition .running, .transition .succeeded, .transition .queued]
    Sample.newJob.EndIsFinal calls ∧
      (Sample.newJob.afterAll calls).status = .succeeded ∧
      (Sample.newJob.calls calls).countP MadeCall.starts = 2 :=
  ⟨(Job.endIsFinal_iff rfl rfl _).2.2.2.2.2.2.mpr (by decide), by decide, by decide⟩

/-- A job that failed for another reason is not healed.  Given the status of a job that waits, it
runs again, as often as this is asked for. -/
theorem Job.not_endIsFinal_forced :
    let again := Sample.runFailing .network ++ Sample.runFailing .network ++
      Sample.runFailing .network
    (Sample.newJob.afterAll (Sample.runFailing .network)).status.isTerminal = true ∧
    ((Sample.newJob.afterAll (Sample.runFailing .network)).call? (.requeue default)).isNone ∧
    ((Sample.newJob.afterAll (Sample.runFailing .network)).after (.transition .queued)).status =
      .queued ∧
    (Sample.newJob.calls again).countP MadeCall.starts = 3 ∧
    ¬ Sample.newJob.EndIsFinal again :=
  ⟨by decide, by decide, by decide, by decide, fun h => absurd h.starts (by decide)⟩

end Testplan
