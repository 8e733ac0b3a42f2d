import Testplan.Proofs.AttemptLog
/-!
# The lines that are classified

A tail of a log has room for a number of lines, and a line that is logged when there is no room
left takes the place of the oldest (`LogTail.lines_push`).  So after any number of lines the
tail holds the last of them, as many as there is room for (`LogTail.lastOf_ofLines`).

A worker that takes a job begins with an empty tail, and logs the lines of its attempt and no
others, whatever the other workers log meanwhile (`WorkerPool.RecordedAt`).  If the tests end
with an exit code, the attempt was not cut off: its lines are those about the scenarios that
were left out, and after them all that was printed while the tests were prepared and run
(`Attempt.Exits.lines_course`).  The last of these lines are what the cause of the failure is
read off (`Service.Reachable.last_lines_classified`).
-/
namespace Testplan

/-! ## The last lines of a log -/

/-- **The last lines of a log**, in their order, as many as there is room for. -/
structure LastOf (capacity : Nat) (log kept : List String) : Prop where
  suffix : kept <:+ log
  length : kept.length = min capacity log.length

namespace LogTail

/-- **A line is logged**: it comes last, and the oldest gives way exactly if all the room is
taken. -/
theorem lines_push (t : LogTail) (line : String) :
    (t.push line).lines =
      if t.capacity = 0 then []
      else if t.lines.length = t.capacity then t.lines.tail ++ [line]
      else t.lines ++ [line] := by
  have hle := t.length_le
  unfold push
  dsimp only
  split
  · next h => exact List.drop_eq_nil_of_le (by simp; omega)
  · next h =>
    split
    · next hfull =>
      rw [hfull, Nat.add_sub_cancel_left, List.drop_append_of_le_length (by omega), List.drop_one]
    · next hroom =>
      rw [Nat.sub_eq_zero_of_le (by omega), List.drop_zero]

/-- **A tail holds the last lines** of those that were logged. -/
theorem lastOf_ofLines (capacity : Nat) (log : List String) :
    LastOf capacity log (ofLines capacity log).lines := by
  rw [lines_ofLines]
  refine ⟨List.drop_suffix _ _, ?_⟩
  rw [List.length_drop]
  omega

end LogTail

/-! ## The lines of an attempt -/

/-- **All lines of an attempt whose tests end with an exit code.** -/
theorem Attempt.Exits.lines_course {a : Attempt} {code : Int} (h : a.Exits code) :
    linesOf a.course.steps =
      a.exclusions ++ linesOf a.preparation.steps ++ linesOf a.testing.steps := by
  obtain ⟨prepared, hprepared⟩ := h.prepares
  have hstages : a.stages.steps = a.preparation.steps ++ a.testing.steps := by
    unfold preparation at hprepared
    unfold stages Runner.stages
    dsimp only
    rw [hprepared]
    rfl
  have hcourse : a.course.steps = a.exclusions.map .line ++ a.stages.steps := by
    rw [course_of_ready h.ready]
    dsimp only
    rw [withinTime_of_le h.inTime]
  rw [hcourse, hstages, linesOf_append, linesOf_append, linesOf_map_line, List.append_assoc]

/-- Only the tests of a plan that was found end with an exit code. -/
theorem Orchestrator.exists_attempt_of_exited {o : Orchestrator} {j : Job} {code : Int}
    (h : (o.course j).verdict = .exited code) : ∃ a, o.attempt? j = some a ∧ a.Exits code := by
  have hfound : ∃ a, o.attempt? j = some a := by
    unfold course at h
    unfold attempt?
    split at h
    · cases h
    · cases h
    · next hp ha =>
      rw [hp, ha]
      exact ⟨_, rfl⟩
  obtain ⟨a, ha⟩ := hfound
  rw [course_of_attempt? ha, ← Attempt.ends_iff] at h
  cases h with
  | exited h => exact ⟨a, ha, h⟩

/-! ## The configuration of a service -/

/-- The end of an attempt leaves the configuration as it is. -/
theorem Orchestrator.config_finish (o : Orchestrator) (n : QueueName) (j : Job) (v : Verdict) :
    (o.finish n j v).config = o.config := by
  obtain ⟨host, hhost⟩ := o.tidied_eq j
  rw [finish_eq, hhost]
  split
  · split
    · rfl
    · next h _ =>
      cases hh : ({ o with host }.serve (.correct (judged j v) h)).handOff? n (judged j v) h with
      | none => rfl
      | some o' =>
        obtain ⟨healed, hall, -, -, rfl⟩ := handOff?_eq_some_iff.mp hh
        rfl
    · rfl
  · rfl

namespace Service

variable {v w : Service}

theorem Step.config_eq (hs : Step v w) (hw : w.running = true) :
    w.orchestrator.config = v.orchestrator.config := by
  cases hs with
  | submit => cases hw
  | returns => cases hw
  | @finish o l r b rs ds ss n j verdict | @strand o l r b rs ds ss n j verdict =>
    exact o.config_finish n j verdict
  | _ => rfl

theorem Run.config_eq (h : Run v w) : w.orchestrator.config = v.orchestrator.config := by
  induction h with
  | begin hs _ hw => exact hs.config_eq hw
  | step _ hs hx ih => exact (hs.config_eq hx).trans ih

/-- A job whose attempt has begun runs until it is judged. -/
theorem HandsOut.runs {before : Orchestrator} {n : QueueName} {taken : Job}
    (h : v.HandsOut before n taken) (hr : v.Reachable) : (before.start taken).2.Runs n := by
  obtain ⟨as, b, hrun, hmem⟩ := h
  have hwaits : taken.Waits n := (hrun.reachable hr).shift.orderly.1 (.taken n taken)
    (List.mem_append_left _ (List.mem_filterMap.mpr ⟨_, hmem, rfl⟩))
  exact before.runs_start hwaits

/-- **The last lines of an attempt are what its failure is read off.**  In a run, a worker that
makes an attempt began it with an empty tail, which holds the last lines of the steps that are
done.  If the tests end with an exit code, these are in the end the last lines about what was
left out, of the preparation and of the tests, and they decide what the job fails with. -/
theorem Reachable.last_lines_classified (h : v.Reachable) (hd : v.Distinct) :
    (∀ (t : LogTail) (line : String), (t.push line).lines =
      if t.capacity = 0 then []
      else if t.lines.length = t.capacity then t.lines.tail ++ [line]
      else t.lines ++ [line]) ∧
    (∀ capacity log, LastOf capacity log (LogTail.ofLines capacity log).lines) ∧
    (v.running = false → ∀ turns interruption i n j rest verdict,
        ((v.orchestrator.workers interruption).run turns).Busy i n j rest verdict →
        ∃ before taken done, v.HandsOut before n taken ∧
          Progress before taken done ((v.orchestrator.workers interruption).run turns).orchestrator
            j rest verdict ∧
          LastOf v.orchestrator.config.logTailLines (linesOf done) j.logTail.lines ∧
          ∀ code, verdict = .exited code →
            ∃ a, (before.start taken).1.attempt? (before.start taken).2 = some a ∧ a.Exits code ∧
              (rest = [] →
                LastOf v.orchestrator.config.logTailLines
                  (a.exclusions ++ linesOf a.preparation.steps ++ linesOf a.testing.steps)
                  j.logTail.lines ∧
                ∃ f, (Orchestrator.judged j verdict).status = .failed f ∧
                  f.exitCode = some code ∧ f.kind = (diagnose j.logTail.lines).kind ∧
                  f.message = ((diagnose j.logTail.lines).evidence.map Text.strip).getD
                    ("종료 코드 " ++ toString code))) := by
  refine ⟨LogTail.lines_push, LogTail.lastOf_ofLines,
    fun hv turns interruption i n j rest verdict hbusy => ?_⟩
  obtain ⟨before, taken, done, hout, hprogress⟩ :=
    h.recorded hd hv turns interruption i n j rest verdict hbusy
  have hconfig : before.config = v.orchestrator.config := by
    obtain ⟨as, b, hrun, -⟩ := hout
    exact hrun.config_eq
  have htail : LastOf v.orchestrator.config.logTailLines (linesOf done) j.logTail.lines := by
    rw [hprogress.job, hconfig]
    exact LogTail.lastOf_ofLines _ _
  refine ⟨before, taken, done, hout, hprogress, htail, ?_⟩
  rintro code rfl
  obtain ⟨a, ha, hexits⟩ := Orchestrator.exists_attempt_of_exited hprogress.verdict.symm
  refine ⟨a, ha, hexits, ?_⟩
  rintro rfl
  have hruns : j.status = .running := by
    rw [hprogress.job]
    exact (hout.runs h).2
  have hsteps := hprogress.steps
  rw [List.append_nil, Orchestrator.course_of_attempt? ha] at hsteps
  rw [hsteps, hexits.lines_course] at htail
  refine ⟨htail, failureOf code j.logTail, ?_, rfl, rfl, rfl⟩
  rw [Orchestrator.judged_eq hruns]
  rfl

end Service

namespace Sample

/-- Tests that fail, of a plan of which a scenario was left out, after a preparation that says
what it does. -/
def wordyTests : Adapter :=
  { oneFailure with
    render := fun p => { oneFailure.render p with
      failures := [⟨"skip", "Skip", 0, .noHint .click⟩] }
    runner := { oneFailure.runner with
      install := fun h _ _ => { RunnerStage.idle h with steps := [.line "added 3 packages"] } } }

/-- A tail of a log has room for three lines. -/
def wordy : Orchestrator :=
  .ofConfiguration { workRoot := "work", logTailLines := 3 }
    ⟨.insert .empty wordyTests.id wordyTests⟩ {} { name := uuid }

/-- The plan was submitted. -/
def wordyService : Service where
  orchestrator := (wordy.submit doomed).1
  requests := wordy.requests doomed

theorem distinct_wordyService : wordyService.Distinct := by
  obtain ⟨cs, hcs⟩ := wordy.performs_submit doomed
  exact distinct_uuid (hcs.steps [] [] []).name_eq (by decide +kernel)

end Sample

namespace Service

/-- Tests that end with the exit code 1 after four lines, the last three of which are kept. -/
theorem first_line_gives_way :
    Sample.wordyService.Reachable ∧ Sample.wordyService.Distinct ∧
    ∃ j before taken a,
      ((Sample.wordyService.orchestrator.workers none).run 6).Busy 0 .run j [] (.exited 1) ∧
      Sample.wordyService.HandsOut before .run taken ∧
      (before.start taken).1.attempt? (before.start taken).2 = some a ∧ a.Exits 1 ∧
      LastOf 3 (a.exclusions ++ linesOf a.preparation.steps ++ linesOf a.testing.steps)
        ["added 3 packages", "Running 1 test", "1 failed"] := by
  have hr : Sample.wordyService.Reachable := .step (.first ..) (.submit Sample.doomed)
  have hd := Sample.distinct_wordyService
  have hwork : (Sample.atWork? ((Sample.wordyService.orchestrator.workers none).run 6) 0).map
      (fun e => (e.1, e.2.2, e.2.1.logTail.lines)) =
      some (.run, ([], .exited 1), ["added 3 packages", "Running 1 test", "1 failed"]) := by
    decide +kernel
  obtain ⟨⟨n, j, rest, verdict⟩, hat, he⟩ := Option.map_eq_some_iff.mp hwork
  simp only [Prod.mk.injEq] at he
  obtain ⟨rfl, ⟨rfl, rfl⟩, hlines⟩ := he
  have hbusy := Sample.busy_of_atWork? hat
  obtain ⟨before, taken, done, hout, -, -, hexited⟩ :=
    (hr.last_lines_classified hd).2.2 rfl 6 none 0 .run j [] (.exited 1) hbusy
  obtain ⟨a, ha, hexits, hend⟩ := hexited 1 rfl
  obtain ⟨hlast, -⟩ := hend rfl
  rw [hlines] at hlast
  exact ⟨hr, hd, j, before, taken, a, hbusy, hout, ha, hexits, hlast⟩

end Service

end Testplan
