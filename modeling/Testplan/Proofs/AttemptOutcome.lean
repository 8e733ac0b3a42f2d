import Mathlib.Data.Option.Basic
import Testplan.Attempt
import Testplan.Proofs.RenderedPages
/-!
# What becomes of an attempt

An attempt passes gates.  The adapter must generate code, the plan must leave something to
run, the project must be written, its tests must be prepared and must end before their time
is up.  An `Attempt` brings together what the gates look at, and `Attempt.Ends` says at
which of them an attempt ends and how.  It ends in exactly one way
(`Attempt.ends_iff`), so what is asked of an ending can be read off its gate.

The log of an attempt has no say in this.  It says which scenarios were left out and then
what the runner printed before its time was up (`Attempt.lines_course`); only the meaning of
an exit code other than zero is read off it afterwards.
-/
namespace Testplan

/-! ## Steps and their time -/

/-- The line that a step prints. -/
def RunnerStep.line? : RunnerStep → Option String
  | line s => some s
  | pause _ => none

/-- The lines that steps print. -/
def linesOf (steps : List RunnerStep) : List String := steps.filterMap RunnerStep.line?

/-- How long steps take. -/
def durationOf : List RunnerStep → Time
  | [] => 0
  | .line _ :: rest => durationOf rest
  | .pause ms :: rest => ms + durationOf rest

/-- The lines that steps print, each with the time at which it is printed, if the steps
begin at a given time. -/
def printed (beginning : Time) : List RunnerStep → List (Time × String)
  | [] => []
  | .line s :: rest => (beginning, s) :: printed beginning rest
  | .pause ms :: rest => printed (beginning + ms) rest

/-- The tail of a log after some lines. -/
def LogTail.ofLines (capacity : Nat) (lines : List String) : LogTail :=
  lines.foldl LogTail.push (.empty capacity)

theorem LogTail.capacity_ofLines (capacity : Nat) (lines : List String) :
    (ofLines capacity lines).capacity = capacity := by
  induction lines using List.reverseRecOn with
  | nil => rfl
  | append_singleton lines line ih =>
    unfold ofLines
    rw [List.foldl_append]
    exact ih

/-- A tail holds the last lines. -/
theorem LogTail.lines_ofLines (capacity : Nat) (lines : List String) :
    (ofLines capacity lines).lines = lines.drop (lines.length - capacity) := by
  induction lines using List.reverseRecOn with
  | nil => exact List.drop_nil.symm
  | append_singleton lines line ih =>
    have hpush : (ofLines capacity (lines ++ [line])).lines =
        ((ofLines capacity lines).lines ++ [line]).drop
          ((ofLines capacity lines).lines.length + 1 - (ofLines capacity lines).capacity) := by
      unfold ofLines
      rw [List.foldl_append]
      rfl
    have hkept : lines.drop (lines.length - capacity) ++ [line] =
        (lines ++ [line]).drop (lines.length - capacity) :=
      (List.drop_append_of_le_length (Nat.sub_le _ _)).symm
    rw [hpush, capacity_ofLines, ih, hkept, List.drop_drop, List.length_drop]
    congr 1
    rw [List.length_append, List.length_singleton]
    omega

theorem linesOf_append (steps others : List RunnerStep) :
    linesOf (steps ++ others) = linesOf steps ++ linesOf others := List.filterMap_append

theorem linesOf_map_line (texts : List String) : linesOf (texts.map .line) = texts := by
  unfold linesOf
  rw [List.filterMap_map]
  exact List.filterMap_some

/-- Nothing is printed before the steps begin. -/
theorem le_of_mem_printed {beginning : Time} {steps : List RunnerStep} {e : Time × String}
    (h : e ∈ printed beginning steps) : beginning ≤ e.1 := by
  induction steps generalizing beginning with
  | nil => cases h
  | cons s rest ih =>
    cases s with
    | line s =>
      rcases List.mem_cons.mp h with rfl | h
      · exact Nat.le_refl _
      · exact ih h
    | pause ms => exact Nat.le_trans (Nat.le_add_right _ _) (ih h)

/-- Steps are all in time exactly if they take no longer than they may. -/
theorem inTime_iff (limit : Time) (steps : List RunnerStep) :
    (withinTime limit steps).2 = true ↔ durationOf steps ≤ limit := by
  induction steps generalizing limit with
  | nil => simp [withinTime, durationOf]
  | cons s rest ih =>
    cases s with
    | line s => exact ih limit
    | pause ms =>
      unfold withinTime durationOf
      split
      · next hlate =>
        rw [Bool.false_eq_true, false_iff]
        exact Nat.not_le_of_lt (Nat.lt_of_lt_of_le hlate (Nat.le_add_right _ _))
      · next hfits =>
        rw [ih]
        exact Nat.le_sub_iff_add_le' (Nat.le_of_not_lt hfits)

/-- Steps that take no longer than they may are not cut off. -/
theorem withinTime_of_le {limit : Time} {steps : List RunnerStep} (h : durationOf steps ≤ limit) :
    (withinTime limit steps).1 = steps := by
  induction steps generalizing limit with
  | nil => rfl
  | cons s rest ih =>
    cases s with
    | line s =>
      unfold withinTime
      dsimp only
      rw [ih h]
    | pause ms =>
      have hms : ¬ limit < ms := Nat.not_lt_of_le (Nat.le_trans (Nat.le_add_right _ _) h)
      unfold withinTime
      rw [if_neg hms]
      dsimp only
      rw [ih (Nat.le_sub_of_add_le' h)]

/-- **What is printed in time** is what is printed at a time that is not past the limit. -/
theorem linesOf_withinTime (limit beginning : Time) (steps : List RunnerStep) :
    linesOf (withinTime limit steps).1 =
      ((printed beginning steps).filter fun e => e.1 ≤ beginning + limit).map Prod.snd := by
  induction steps generalizing limit beginning with
  | nil => rfl
  | cons s rest ih =>
    cases s with
    | line s =>
      have hfirst : decide (beginning ≤ beginning + limit) = true :=
        decide_eq_true (Nat.le_add_right _ _)
      unfold printed
      rw [List.filter_cons, if_pos hfirst, List.map_cons, ← ih limit beginning]
      rfl
    | pause ms =>
      unfold withinTime printed
      split
      · next hlate =>
        -- the pause is cut off, and what would come after it comes too late
        have hnone : (printed (beginning + ms) rest).filter (fun e => e.1 ≤ beginning + limit) =
            [] := by
          refine List.filter_eq_nil_iff.mpr fun e he => ?_
          rw [decide_eq_true_eq]
          exact Nat.not_le_of_lt
            (Nat.lt_of_lt_of_le (Nat.add_lt_add_left hlate _) (le_of_mem_printed he))
        rw [hnone]
        rfl
      · next hfits =>
        have hrest := ih (limit - ms) (beginning + ms)
        rw [Nat.add_assoc, Nat.add_sub_cancel' (Nat.le_of_not_lt hfits)] at hrest
        exact hrest

/-- A runner that prints some lines at once and ends with a code. -/
def Runner.scripted (lines : List String) (code : Int) : Runner where
  id := "scripted"
  install h _ _ := .idle h
  run h _ _ := { RunnerStage.idle h with steps := lines.map .line, outcome := .ok code }

/-! ## Attempts and their gates -/

/-- **An attempt**: a plan, the adapter that is to run it, and where and how long it may. -/
structure Attempt where
  adapter : Adapter
  limitSecs : Nat
  host : Host
  plan : Plan
  environment : Environment
  directory : String

namespace Attempt

/-- The course of the attempt. -/
def course (a : Attempt) : Course :=
  a.adapter.course a.limitSecs a.host a.plan a.environment a.directory

/-- The status of the job after the attempt, if the tail of its log keeps so many lines. -/
def status (a : Attempt) (capacity : Nat) : JobStatus :=
  a.course.verdict.status (.ofLines capacity (linesOf a.course.steps))

/-- The attempt with another runner. -/
def withRunner (a : Attempt) (runner : Runner) : Attempt :=
  { a with adapter := { a.adapter with runner } }

/-- The rendered plan. -/
def rendering (a : Attempt) : Rendering := a.adapter.render a.plan

/-- The adapter generates no code. -/
def IsStub (a : Attempt) : Prop := a.rendering.status = .notImplemented

instance (a : Attempt) : Decidable a.IsStub := inferInstanceAs (Decidable (_ = _))

/-- The files after the project was written, and what went wrong. -/
def written (a : Attempt) : FileTree × Option WriteError :=
  a.host.files.writeProject a.host.cwd a.directory a.rendering.files a.rendering.manifest

/-- What the runner is given besides the files and the directory. -/
def runnerVariables (a : Attempt) : Variables := a.environment.runnerVariables a.plan.baseUrl

/-- The runner prepares the project that was written. -/
def preparation (a : Attempt) : RunnerStage :=
  a.adapter.runner.install { a.host with files := a.written.1 } a.directory a.runnerVariables

/-- The runner runs the tests of the project that was prepared. -/
def testing (a : Attempt) : RunnerStage :=
  a.adapter.runner.run { a.host with files := a.preparation.files } a.directory a.runnerVariables

/-- Both stages of the runner. -/
def stages (a : Attempt) : RunnerStage :=
  a.adapter.runner.stages { a.host with files := a.written.1 } a.directory a.runnerVariables

/-- **Everything is ready for the runner.** -/
structure Ready (a : Attempt) : Prop where
  implemented : ¬ a.IsStub
  nonempty : 0 < a.rendering.manifest.count
  written : a.written.2 = none

/-- The preparation succeeds. -/
def Prepares (a : Attempt) : Prop := ∃ code, a.preparation.outcome = .ok code

/-- Preparation and tests are over before the time for both is up. -/
def InTime (a : Attempt) : Prop := durationOf a.stages.steps ≤ a.limitSecs * 1000

instance (a : Attempt) : Decidable a.InTime := inferInstanceAs (Decidable (_ ≤ _))

/-- **The tests end with an exit code**, and in time. -/
structure Exits (a : Attempt) (code : Int) : Prop where
  ready : a.Ready
  prepares : a.Prepares
  ended : a.testing.outcome = .ok code
  inTime : a.InTime

/-- **The tests cannot be prepared or run**, which turns out in time. -/
structure Breaks (a : Attempt) (e : RunnerError) : Prop where
  ready : a.Ready
  broken : a.preparation.outcome = .error e ∨ a.Prepares ∧ a.testing.outcome = .error e
  inTime : a.InTime

/-- **The course depends on the runner**: with another one it would be another. -/
def ConsultsRunner (a : Attempt) : Prop :=
  ∃ runner, (a.withRunner runner).course ≠ a.course

/-- The lines about the scenarios that were left out. -/
def exclusions (a : Attempt) : List String := a.rendering.failures.map exclusionLine

/-! ## The course at each gate -/

section Gates
variable {a : Attempt}

theorem course_of_stub (h : a.IsStub) :
    a.course = .ended a.host (.failed (unsupportedFailure a.adapter.id)) := if_pos h

/-- What is left out is logged first. -/
theorem course_of_not_stub (h : ¬ a.IsStub) : ∃ c : Course,
    a.course = { c with steps := a.exclusions.map .line ++ c.steps } ∧
    c = if a.rendering.manifest.count = 0 then
        .ended a.host (if a.rendering.failures.isEmpty then .passed
          else .failed (nothingRendered a.rendering.failures.length))
      else match a.written with
        | (files, some error) =>
          .ended { a.host with files } (.failed { kind := .processStart, message := error.report })
        | (files, none) =>
          a.adapter.runner.course a.limitSecs { a.host with files } a.directory
            a.runnerVariables := by
  refine ⟨_, ?_, rfl⟩
  unfold exclusions
  rw [List.map_map]
  exact if_neg h

theorem course_of_empty (h : ¬ a.IsStub) (hc : a.rendering.manifest.count = 0) :
    a.course = { Course.ended a.host (if a.rendering.failures = [] then .passed
      else .failed (nothingRendered a.rendering.failures.length)) with
        steps := a.exclusions.map .line } := by
  obtain ⟨c, hcourse, rfl⟩ := course_of_not_stub h
  rw [hcourse, if_pos hc]
  simp [Course.ended]

theorem course_of_unwritten (h : ¬ a.IsStub) (hc : 0 < a.rendering.manifest.count) {e : WriteError}
    (he : a.written.2 = some e) :
    a.course = { Course.ended { a.host with files := a.written.1 }
      (.failed { kind := .processStart, message := e.report }) with
        steps := a.exclusions.map .line } := by
  obtain ⟨c, hcourse, rfl⟩ := course_of_not_stub h
  rw [hcourse, if_neg (Nat.ne_of_gt hc),
    show a.written = (a.written.1, some e) from Prod.ext rfl he]
  simp [Course.ended]

theorem course_of_ready (h : a.Ready) :
    a.course = { a.adapter.runner.course a.limitSecs { a.host with files := a.written.1 }
      a.directory a.runnerVariables with
        steps := a.exclusions.map .line ++
          (withinTime (a.limitSecs * 1000) a.stages.steps).1 } := by
  obtain ⟨c, hcourse, rfl⟩ := course_of_not_stub h.implemented
  rw [hcourse, if_neg (Nat.ne_of_gt h.nonempty),
    show a.written = (a.written.1, none) from Prod.ext rfl h.written]
  rfl

theorem verdict_of_ready (h : a.Ready) :
    a.course.verdict = if a.InTime then
        match a.stages.outcome with
        | .error e => .failed { kind := e.kind, message := e.message }
        | .ok 0 => .passed
        | .ok code => .exited code
      else .failed (timeoutFailure a.limitSecs) := by
  have hinTime : (withinTime (a.limitSecs * 1000) a.stages.steps).2 = true ↔ a.InTime :=
    inTime_iff ..
  rw [course_of_ready h]
  by_cases ht : a.InTime
  · rw [if_pos ht]
    show (if !(withinTime (a.limitSecs * 1000) a.stages.steps).2 then _ else _) = _
    rw [hinTime.mpr ht]
    rfl
  · rw [if_neg ht]
    show (if !(withinTime (a.limitSecs * 1000) a.stages.steps).2 then _ else _) = _
    rw [Bool.eq_false_iff.mpr (mt hinTime.mp ht)]
    rfl

/-- The second stage is what counts if the first succeeds. -/
theorem outcome_stages (a : Attempt) :
    (∀ code, a.stages.outcome = .ok code ↔ a.Prepares ∧ a.testing.outcome = .ok code) ∧
    ∀ e, a.stages.outcome = .error e ↔
      a.preparation.outcome = .error e ∨ a.Prepares ∧ a.testing.outcome = .error e := by
  unfold Prepares stages Runner.stages testing preparation
  dsimp only
  split
  · next e hp => simp [hp]
  · next code hp => simp [hp]

theorem exits_iff (a : Attempt) (code : Int) :
    a.Exits code ↔ a.Ready ∧ a.InTime ∧ a.stages.outcome = .ok code := by
  rw [a.outcome_stages.1]
  exact ⟨fun h => ⟨h.ready, h.inTime, h.prepares, h.ended⟩,
    fun ⟨hr, ht, hp, he⟩ => ⟨hr, hp, he, ht⟩⟩

theorem breaks_iff (a : Attempt) (e : RunnerError) :
    a.Breaks e ↔ a.Ready ∧ a.InTime ∧ a.stages.outcome = .error e := by
  rw [a.outcome_stages.2]
  exact ⟨fun h => ⟨h.ready, h.inTime, h.broken⟩, fun ⟨hr, ht, he⟩ => ⟨hr, he, ht⟩⟩

/-- The runner is consulted after the gates before it, which do not look at it. -/
theorem ready_withRunner {runner : Runner} (hr : a.Ready) : (a.withRunner runner).Ready :=
  ⟨hr.implemented, hr.nonempty, hr.written⟩

theorem exits_scripted (hr : a.Ready) (lines : List String) (code : Int) :
    (a.withRunner (.scripted lines code)).Exits code ∧
      linesOf (a.withRunner (.scripted lines code)).stages.steps = lines := by
  have htime : ∀ texts : List String, durationOf (texts.map .line) = 0 := by
    intro texts
    induction texts with
    | nil => rfl
    | cons _ _ ih => exact ih
  refine ⟨⟨ready_withRunner hr, ⟨0, rfl⟩, rfl, ?_⟩, linesOf_map_line lines⟩
  exact Nat.le_trans (Nat.le_of_eq (htime lines)) (Nat.zero_le _)

end Gates

/-! ## How an attempt ends -/

/-- **How an attempt ends**: the gate at which it ends, with the verdict there. -/
inductive Ends (a : Attempt) : Verdict → Prop
  | stub (h : a.IsStub) : Ends a (.failed (unsupportedFailure a.adapter.id))
  | nothingToRun (h : ¬ a.IsStub) (hc : a.rendering.manifest.count = 0)
      (hf : a.rendering.failures = []) : Ends a .passed
  | allLeftOut (h : ¬ a.IsStub) (hc : a.rendering.manifest.count = 0)
      (hf : a.rendering.failures ≠ []) :
      Ends a (.failed (nothingRendered a.rendering.failures.length))
  | unwritten {e} (h : ¬ a.IsStub) (hc : 0 < a.rendering.manifest.count)
      (he : a.written.2 = some e) : Ends a (.failed { kind := .processStart, message := e.report })
  | late (h : a.Ready) (ht : ¬ a.InTime) : Ends a (.failed (timeoutFailure a.limitSecs))
  | broken {e} (h : a.Breaks e) : Ends a (.failed { kind := e.kind, message := e.message })
  | passed (h : a.Exits 0) : Ends a .passed
  | exited {code} (h : a.Exits code) (hc : code ≠ 0) : Ends a (.exited code)

theorem ends (a : Attempt) : a.Ends a.course.verdict := by
  by_cases hs : a.IsStub
  · rw [course_of_stub hs]
    exact .stub hs
  rcases Nat.eq_zero_or_pos a.rendering.manifest.count with hc | hc
  · rw [course_of_empty hs hc]
    by_cases hf : a.rendering.failures = []
    · simp only [if_pos hf]
      exact .nothingToRun hs hc hf
    · simp only [if_neg hf]
      exact .allLeftOut hs hc hf
  cases hw : a.written.2 with
  | some e =>
    rw [course_of_unwritten hs hc hw]
    exact .unwritten hs hc hw
  | none =>
    have hr : a.Ready := ⟨hs, hc, hw⟩
    rw [verdict_of_ready hr]
    by_cases ht : a.InTime
    · rw [if_pos ht]
      split
      · next e he => exact .broken ((a.breaks_iff e).mpr ⟨hr, ht, he⟩)
      · next he => exact .passed ((a.exits_iff 0).mpr ⟨hr, ht, he⟩)
      · next code hne he => exact .exited ((a.exits_iff code).mpr ⟨hr, ht, he⟩) hne
    · rw [if_neg ht]
      exact .late hr ht

/-- **An attempt ends in exactly one way.** -/
theorem ends_iff (a : Attempt) (v : Verdict) : a.Ends v ↔ a.course.verdict = v := by
  refine ⟨fun h => ?_, fun h => h ▸ a.ends⟩
  cases h with
  | stub h => rw [course_of_stub h]; rfl
  | nothingToRun h hc hf => rw [course_of_empty h hc, if_pos hf]; rfl
  | allLeftOut h hc hf => rw [course_of_empty h hc, if_neg hf]; rfl
  | unwritten h hc he => rw [course_of_unwritten h hc he]; rfl
  | late h ht => rw [verdict_of_ready h, if_neg ht]
  | broken h =>
    obtain ⟨hr, ht, he⟩ := (a.breaks_iff _).mp h
    rw [verdict_of_ready hr, if_pos ht, he]
  | passed h =>
    obtain ⟨hr, ht, he⟩ := (a.exits_iff 0).mp h
    rw [verdict_of_ready hr, if_pos ht, he]
    rfl
  | exited h hc =>
    obtain ⟨hr, ht, he⟩ := (a.exits_iff _).mp h
    rw [verdict_of_ready hr, if_pos ht, he]
    split
    · next he => cases he
    · next he => exact absurd (Except.ok.inj he) hc
    · next he => rw [Except.ok.inj he]

/-- **The runner is consulted exactly if everything is ready for it.** -/
theorem consultsRunner_iff (a : Attempt) : a.ConsultsRunner ↔ a.Ready := by
  constructor
  · rintro ⟨runner, hne⟩
    by_contra hr
    refine hne ?_
    -- the gates before the runner do not look at it
    by_cases hs : a.IsStub
    · rw [course_of_stub hs]
      exact course_of_stub (a := a.withRunner runner) hs
    rcases Nat.eq_zero_or_pos a.rendering.manifest.count with hc | hc
    · rw [course_of_empty hs hc]
      exact course_of_empty (a := a.withRunner runner) hs hc
    cases hw : a.written.2 with
    | some e =>
      rw [course_of_unwritten hs hc hw]
      exact course_of_unwritten (a := a.withRunner runner) hs hc hw
    | none => exact absurd ⟨hs, hc, hw⟩ hr
  · intro hr
    -- the exit code of another runner would decide the verdict
    by_contra hnone
    have same : ∀ runner, (a.withRunner runner).course = a.course :=
      fun runner => Classical.not_not.mp fun hne => hnone ⟨runner, hne⟩
    have hpassed := (ends_iff _ _).mp (.passed (exits_scripted hr [] 0).1)
    have hexited := (ends_iff _ _).mp (.exited (exits_scripted hr [] 1).1 Int.one_ne_zero)
    rw [same] at hpassed hexited
    cases hpassed.symm.trans hexited

/-- **What is logged**: what was left out, and then what the runner printed before its time
was up, if it was consulted at all. -/
theorem lines_course (a : Attempt) :
    (a.IsStub → linesOf a.course.steps = []) ∧
    (¬ a.IsStub → ¬ a.Ready → linesOf a.course.steps = a.exclusions) ∧
    (a.Ready → linesOf a.course.steps = a.exclusions ++
      ((printed 0 a.stages.steps).filter fun e => e.1 ≤ a.limitSecs * 1000).map Prod.snd) := by
  refine ⟨fun hs => ?_, fun hs hr => ?_, fun hr => ?_⟩
  · rw [course_of_stub hs]
    rfl
  · rcases Nat.eq_zero_or_pos a.rendering.manifest.count with hc | hc
    · rw [course_of_empty hs hc]
      exact linesOf_map_line _
    cases hw : a.written.2 with
    | some e =>
      rw [course_of_unwritten hs hc hw]
      exact linesOf_map_line _
    | none => exact absurd ⟨hs, hc, hw⟩ hr
  · rw [course_of_ready hr]
    show linesOf (_ ++ _) = _
    rw [linesOf_append, linesOf_map_line, linesOf_withinTime _ 0, Nat.zero_add]

/-! ## The failures of attempts -/

section Failures
variable {a : Attempt} {tail : LogTail} {f : JobFailure}

/-- A failure that no exit code stands behind is the one of the gate. -/
theorem Ends.failure_eq {g : JobFailure} (h : a.Ends (.failed g))
    (hs : a.course.verdict.status tail = .failed f) : f = g := by
  rw [(a.ends_iff _).mp h] at hs
  exact (JobStatus.failed.inj hs).symm

theorem succeeded_iff (a : Attempt) (tail : LogTail) :
    a.course.verdict.status tail = .succeeded ↔ ¬ a.IsStub ∧
      (a.rendering.manifest.count = 0 ∧ a.rendering.failures = [] ∨ a.Exits 0) := by
  have hpassed : a.course.verdict.status tail = .succeeded ↔ a.course.verdict = .passed := by
    cases a.course.verdict <;> simp [Verdict.status]
  rw [hpassed, ← ends_iff]
  constructor
  · intro h
    cases h with
    | nothingToRun h hc hf => exact ⟨h, .inl ⟨hc, hf⟩⟩
    | passed h => exact ⟨h.ready.implemented, .inr h⟩
  · rintro ⟨h, ⟨hc, hf⟩ | h⟩
    · exact .nothingToRun h hc hf
    · exact .passed h

/-- A failure comes of an exit code, or of a gate and then has none. -/
theorem failure_cases (hs : a.course.verdict.status tail = .failed f) :
    (∃ code, code ≠ 0 ∧ a.Exits code ∧ f = failureOf code tail) ∨
      f.exitCode = none ∧ ∀ code, a.Exits code → code = 0 := by
  have hends := a.ends
  generalize hv : a.course.verdict = v at hs hends
  cases hends with
  | nothingToRun | passed => cases hs
  | @exited code h hc => exact .inl ⟨code, hc, h, (JobStatus.failed.inj hs).symm⟩
  | _ =>
    obtain rfl := JobStatus.failed.inj hs
    refine .inr ⟨rfl, fun code h => ?_⟩
    by_contra hc
    cases hv.symm.trans ((a.ends_iff _).mp (.exited h hc))

/-- **A failure has an exit code exactly if the tests ended with it**, and then the log says
what it means. -/
theorem exitCode_iff (hs : a.course.verdict.status tail = .failed f) (code : Int) :
    (f.exitCode = some code ↔ code ≠ 0 ∧ a.Exits code) ∧
      (f.exitCode = some code → f = failureOf code tail) := by
  rcases failure_cases hs with ⟨ended, hc, h, rfl⟩ | ⟨hnone, hzero⟩
  · have hcode : (failureOf ended tail).exitCode = some ended := rfl
    rw [hcode, Option.some_inj]
    refine ⟨⟨?_, fun ⟨hc', h'⟩ => ?_⟩, ?_⟩
    · rintro rfl
      exact ⟨hc, h⟩
    · have hverdict := (a.ends_iff _).mp (.exited h hc)
      exact Verdict.exited.inj (hverdict.symm.trans ((a.ends_iff _).mp (.exited h' hc')))
    · rintro rfl
      rfl
  · rw [hnone]
    exact ⟨iff_of_false nofun fun ⟨hc, h⟩ => hc (hzero code h), nofun⟩

/-- The kinds of failures that no exit code stands behind, and what each stands for. -/
inductive Unclassified (a : Attempt) : FailureKind → Prop
  | stub (h : a.IsStub) : Unclassified a .unsupported
  | noRunner {name} (h : a.Breaks (.notImplemented name)) : Unclassified a .unsupported
  | allLeftOut (h : ¬ a.IsStub) (hc : a.rendering.manifest.count = 0)
      (hf : a.rendering.failures ≠ []) : Unclassified a .unknown
  | unwritten (h : ¬ a.IsStub) (hc : 0 < a.rendering.manifest.count) (he : a.written.2 ≠ none) :
      Unclassified a .processStart
  | broken {e} (h : a.Breaks e) (he : ∀ name, e ≠ .notImplemented name) :
      Unclassified a .processStart
  | late (h : a.Ready) (ht : ¬ a.InTime) : Unclassified a .timeout

/-- **A failure without an exit code** has the kind that its gate stands for. -/
theorem unclassified_iff (hs : a.course.verdict.status tail = .failed f) (hn : f.exitCode = none)
    (kind : FailureKind) : a.Unclassified kind ↔ f.kind = kind := by
  constructor
  · intro h
    cases h with
    | stub h => rw [(Ends.stub h).failure_eq hs]; rfl
    | noRunner h => rw [(Ends.broken h).failure_eq hs]; rfl
    | allLeftOut h hc hf => rw [(Ends.allLeftOut h hc hf).failure_eq hs]; rfl
    | unwritten h hc he =>
      obtain ⟨e, he⟩ := Option.ne_none_iff_exists'.mp he
      rw [(Ends.unwritten h hc he).failure_eq hs]
    | @broken e h he =>
      rw [(Ends.broken h).failure_eq hs]
      cases e with
      | notImplemented name => exact absurd rfl (he name)
      | _ => rfl
    | late h ht => rw [(Ends.late h ht).failure_eq hs]; rfl
  · rintro rfl
    have hends := a.ends
    generalize a.course.verdict = v at hs hends
    cases hends with
    | nothingToRun | passed => cases hs
    | exited =>
      obtain rfl := JobStatus.failed.inj hs
      cases hn
    | stub h => obtain rfl := JobStatus.failed.inj hs; exact .stub h
    | allLeftOut h hc hf => obtain rfl := JobStatus.failed.inj hs; exact .allLeftOut h hc hf
    | unwritten h hc he =>
      obtain rfl := JobStatus.failed.inj hs
      exact .unwritten h hc (he ▸ nofun)
    | late h ht => obtain rfl := JobStatus.failed.inj hs; exact .late h ht
    | @broken e h =>
      obtain rfl := JobStatus.failed.inj hs
      cases e with
      | notImplemented name => exact .noRunner h
      | _ => exact .broken h nofun

end Failures

/-! ## The outcome -/

/-- **What becomes of an attempt**: the status and the log that it leaves, if the tail of
the log keeps so many lines. -/
structure Outcome (a : Attempt) (capacity : Nat) (status : JobStatus) (lines : List String) :
    Prop where
  /-- The runner is started exactly if there is a project for it. -/
  consults : a.ConsultsRunner ↔
    ¬ a.IsStub ∧ 0 < a.rendering.manifest.count ∧ a.written.2 = none
  succeeds : status = .succeeded ↔ ¬ a.IsStub ∧
    (a.rendering.manifest.count = 0 ∧ a.rendering.failures = [] ∨ a.Exits 0)
  fails : status ≠ .succeeded → ∃ f, status = .failed f
  exitCode : ∀ f, status = .failed f → ∀ code, f.exitCode = some code ↔ code ≠ 0 ∧ a.Exits code
  /-- Only an exit code is explained by the log. -/
  classified : ∀ f code, status = .failed f → f.exitCode = some code →
    f.kind = (diagnose (lines.drop (lines.length - capacity))).kind ∧
    f.message = ((diagnose (lines.drop (lines.length - capacity))).evidence.map Text.strip).getD
      ("종료 코드 " ++ toString code)
  unclassified : ∀ f, status = .failed f → f.exitCode = none →
    ∀ kind, a.Unclassified kind ↔ f.kind = kind
  log_of_stub : a.IsStub → lines = []
  log_of_unready : ¬ a.IsStub → ¬ a.Ready → lines = a.rendering.failures.map exclusionLine
  log_of_ready : a.Ready → lines = a.rendering.failures.map exclusionLine ++
    ((printed 0 a.stages.steps).filter fun e => e.1 ≤ a.limitSecs * 1000).map Prod.snd
  /-- A framework that generates code gives one failure for each scenario that it leaves
  out, in the order of the plan. -/
  order : ∀ (f : Framework) settings, a.adapter = f.adapter settings → ¬ a.IsStub →
    ∃ rendered, Sieved a.plan.cases rendered a.rendering.failures

theorem ready_iff (a : Attempt) :
    a.Ready ↔ ¬ a.IsStub ∧ 0 < a.rendering.manifest.count ∧ a.written.2 = none :=
  ⟨fun h => ⟨h.implemented, h.nonempty, h.written⟩, fun ⟨h, hc, hw⟩ => ⟨h, hc, hw⟩⟩

/-- Every attempt has its outcome. -/
theorem outcome (a : Attempt) (capacity : Nat) :
    a.Outcome capacity (a.status capacity) (linesOf a.course.steps) where
  consults := a.consultsRunner_iff.trans a.ready_iff
  succeeds := a.succeeded_iff _
  fails := by
    intro h
    unfold status at h ⊢
    cases hv : a.course.verdict with
    | passed =>
      rw [hv] at h
      exact absurd rfl h
    | _ => exact ⟨_, rfl⟩
  exitCode f hs code := (exitCode_iff hs code).1
  classified f code hs he := by
    rw [(exitCode_iff hs code).2 he, ← LogTail.lines_ofLines]
    exact ⟨rfl, rfl⟩
  unclassified f hs hn kind := unclassified_iff hs hn kind
  log_of_stub := a.lines_course.1
  log_of_unready := a.lines_course.2.1
  log_of_ready := a.lines_course.2.2
  order f settings hf hs := by
    have hrendering : a.rendering = f.render settings a.plan := by
      unfold rendering
      rw [hf]
      rfl
    have hne : f ≠ .xctest := by
      rintro rfl
      refine hs ?_
      unfold IsStub
      rw [hrendering]
      rfl
    obtain ⟨l, hl⟩ := Framework.exists_layout hne
    rw [hrendering]
    exact ⟨_, (Framework.renderedBy hl settings a.plan).shared.sieved⟩

end Attempt

end Testplan
