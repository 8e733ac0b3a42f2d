import Testplan.Proofs.Placement
/-!
# Uninterrupted routines

The operations of the orchestrator are not interrupted by each other where tasks give
way only when they wait.  Such an operation is what a routine does when all its calls
are served in a row (`Performs`): a submission (`performs_submit`), the beginning of an
attempt (`performs_start`) and its end (`performs_finish`).

So everything that is shown of all interleavings of calls holds when whole operations
follow each other.  The end of an attempt takes its files off the host first, which is no
call of the routine.
-/
namespace Testplan

/-- **A routine makes calls in a row**, which take the orchestrator from a state to
another and the routine from a place to another. -/
inductive Performs : Orchestrator → Option Routine → List Call → Orchestrator →
    Option Routine → Prop where
  | done {o t} : Performs o t [] o t
  | call {o t c t' cs o' t''} (h : Moves o t c t') (hs : Performs (o.serve c) t' cs o' t'') :
      Performs o t (c :: cs) o' t''

/-- Calls in a row are steps of an interleaving in which no other routine moves. -/
theorem Performs.steps {o o' : Orchestrator} {t t' : Option Routine} {cs : List Call}
    (h : Performs o t cs o' t') (l r : List Routine) (calls : List Call) :
    Interleaving.Steps ⟨o, l ++ t.toList ++ r, calls⟩ ⟨o', l ++ t'.toList ++ r, calls ++ cs⟩ := by
  induction h generalizing calls with
  | done =>
    rw [List.append_nil]
    exact .refl _
  | @call o t c t' cs o' t'' hm _ ih =>
    have hfirst := (Interleaving.Steps.refl _).tail (Interleaving.Step.serve hm l r calls)
    rw [← List.singleton_append, ← List.append_assoc]
    exact hfirst.trans (ih (calls ++ [c]))

namespace Orchestrator

theorem serve_add {o : Orchestrator} {n : QueueName} {j : Job} {hall : QueueHall}
    (ha : o.hall.add? n j = some hall) : o.serve (.add n j) = { o with hall } := by
  show { o with hall := (o.hall.add? n j).getD o.hall } = _
  rw [ha, Option.getD_some]

/-! ## Submissions -/

theorem enqueue_of_refused {o : Orchestrator} {s : Submission} {environment : Environment}
    {n : QueueName} {part : Plan} (ha : o.hall.add? n (o.newJob s environment n part) = none) :
    o.enqueue s environment n part =
      (o.serve (.create s part (o.newJob s environment n part)), .error (.queueClosed n)) := by
  unfold enqueue
  dsimp only
  split
  · rfl
  · next hall hadd =>
    have hadd : o.hall.add? n (o.newJob s environment n part) = some hall := hadd
    rw [ha] at hadd
    cases hadd

/-- The orchestrator after a part of a plan got a job that its queue took. -/
def enlisted (o : Orchestrator) (s : Submission) (environment : Environment) (n : QueueName)
    (part : Plan) : Orchestrator :=
  let j := o.newJob s environment n part
  (((o.serve (.create s part j)).serve (.add n j)).serve (.record j)).serve
    (.send j.id (.queued n 0))

theorem enqueue_of_added {o : Orchestrator} {s : Submission} {environment : Environment}
    {n : QueueName} {part : Plan} {hall : QueueHall}
    (ha : o.hall.add? n (o.newJob s environment n part) = some hall) :
    o.enqueue s environment n part =
      (o.enlisted s environment n part, .ok (o.newJob s environment n part).id) := by
  unfold enlisted
  dsimp only
  rw [serve_add (o := o.serve (.create s part (o.newJob s environment n part))) ha]
  unfold enqueue
  dsimp only
  split
  · next hadd =>
    have hadd : o.hall.add? n (o.newJob s environment n part) = none := hadd
    rw [ha] at hadd
    cases hadd
  · next hall' hadd =>
    have hadd : o.hall.add? n (o.newJob s environment n part) = some hall' := hadd
    rw [ha] at hadd
    obtain rfl := Option.some.inj hadd
    rfl

/-- The jobs for the parts of a plan are made by a routine that nobody interrupts. -/
theorem performs_enqueueAll (o : Orchestrator) (s : Submission) (environment : Environment)
    (parts : List (QueueName × Plan)) :
    ∃ cs, Performs o (Intake.routine? ⟨s, environment, parts⟩) cs
      (o.enqueueAll s environment parts).1 none := by
  induction parts generalizing o with
  | nil => exact ⟨[], .done⟩
  | cons first rest ih =>
    obtain ⟨n, part⟩ := first
    -- the job is made whether or not its queue takes it
    have hcreate : Moves o (Intake.routine? ⟨s, environment, (n, part) :: rest⟩) _ _ := .create
    unfold enqueueAll
    cases ha : o.hall.add? n (o.newJob s environment n part) with
    | none =>
      rw [enqueue_of_refused ha]
      exact ⟨_, .call hcreate (.call (.decline ha) .done)⟩
    | some hall =>
      rw [enqueue_of_added ha]
      obtain ⟨cs, hrest⟩ := ih _
      exact ⟨_, .call hcreate (.call (.add ha) (.call .list (.call .announce hrest)))⟩

/-- **A submission is a routine that nobody interrupts.** -/
theorem performs_submit (o : Orchestrator) (s : Submission) :
    ∃ cs, Performs o none cs (o.submit s).1 none := by
  unfold submit
  cases ha : o.adapters.find s.framework with
  | error e => exact ⟨[], .done⟩
  | ok a =>
    cases he : s.environment.resolve o.host.process with
    | error e => exact ⟨[], .done⟩
    | ok environment =>
      obtain ⟨cs, hcs⟩ := (o.partsOf s.plan).1.performs_enqueueAll s environment
        (o.partsOf s.plan).2
      exact ⟨_, .call (.accept ha he) hcs⟩

/-! ## Attempts -/

theorem performs_take {o : Orchestrator} {n : QueueName} {token : Nat} {j : Job}
    (ht : (o.hall.ask n token).2 = .job j) :
    Performs o none [.take n token j] { o with hall := (o.hall.ask n token).1 }
      (some (.opening n j)) :=
  .call (.take ht) .done

/-- **The beginning of an attempt**, with the lookup of the plan that its course depends
on. -/
theorem performs_start (o : Orchestrator) (n : QueueName) (j : Job) :
    Performs o (some (.opening n j))
      [.record (o.start j).2,
        .send (o.start j).2.id (.started (o.start j).2.queue (o.start j).2.attempt),
        .fetch (o.start j).2 (o.plans.get? (o.start j).2.plan)]
      (o.start j).1 (some (.working n (o.start j).2)) :=
  .call .openAttempt (.call .begin (.call .fetch .done))

/-- A line of the log. -/
theorem performs_log (o : Orchestrator) (n : QueueName) (j : Job) (line : String) :
    Performs o (some (.working n j)) [.send j.id (.log line)] (o.log j line).1
      (some (.working n (o.log j line).2)) :=
  .call .log .done

theorem performs_conclude (o : Orchestrator) (n : QueueName) (j : Job) :
    Performs o (some (.concluding n j))
      [.record j, .send j.id (.finished j.queue j.status), .complete n j] (o.conclude n j) none :=
  .call .conclude (.call .finish (.call .complete .done))

/-- What a job is handed over with. -/
theorem handOff?_eq_some_iff {o o' : Orchestrator} {n : QueueName} {j : Job} {h : HealedPlan} :
    o.handOff? n j h = some o' ↔ ∃ healed hall, j.requeueForHealing? h.plan.ref = some healed ∧
      o.hall.add? .healing healed = some hall ∧
      o' = (({ o with hall := hall.modify n fun q => q.release j.id }.record healed).report j.id
        (.healing h.plan.ref h.changes)).report j.id (.queued healed.queue healed.attempt) := by
  unfold handOff?
  constructor
  · intro hh
    obtain ⟨healed, hj, hrest⟩ := Option.bind_eq_some_iff.mp hh
    obtain ⟨hall, ha, he⟩ := Option.bind_eq_some_iff.mp hrest
    exact ⟨healed, hall, hj, ha, (Option.some.inj he).symm⟩
  · rintro ⟨healed, hall, hj, ha, rfl⟩
    exact Option.bind_eq_some_iff.mpr ⟨healed, hj, Option.bind_eq_some_iff.mpr ⟨hall, ha, rfl⟩⟩

theorem performs_handOff {o o' : Orchestrator} {n : QueueName} {j : Job} {h : HealedPlan}
    (hh : o.handOff? n j h = some o') :
    ∃ cs, Performs o (some (.handing n j h)) cs o' none := by
  obtain ⟨healed, hall, hj, ha, rfl⟩ := handOff?_eq_some_iff.mp hh
  have hid : healed.id = j.id := by
    obtain ⟨-, rfl⟩ := (Job.requeueForHealing?_eq_some_iff j _ healed).mp hj
    rfl
  -- the calls after the one that adds the job
  have hreleasing : Performs { o with hall } (some (.releasing n h healed)) _
      ((({ o with hall := hall.modify n fun q => q.release healed.id }.record healed).report
        healed.id (.healing h.plan.ref h.changes)).report healed.id
        (.queued healed.queue healed.attempt)) none :=
    .call .release (.call .relist (.call .tell (.call .requeue .done)))
  rw [← serve_add ha] at hreleasing
  rw [← hid]
  exact ⟨_, .call (.hand hj ha) hreleasing⟩

/-- Only the host is tidied. -/
theorem tidied_eq (o : Orchestrator) (j : Job) : ∃ host, o.tidied j = { o with host } := by
  unfold tidied
  split
  · exact ⟨o.host, rfl⟩
  · exact ⟨_, rfl⟩

theorem finish_eq (o : Orchestrator) (n : QueueName) (j : Job) (v : Verdict) :
    o.finish n j v = if (judged j v).isHealable then
      match (o.tidied j).healedPlan (judged j v) with
      | .error e => (o.tidied j).conclude n (withRemark (judged j v) e)
      | .ok h => (((o.tidied j).serve (.correct (judged j v) h)).handOff? n (judged j v) h).getD
          (((o.tidied j).serve (.correct (judged j v) h)).conclude n (judged j v))
      | .overflow => o.tidied j
      else (o.tidied j).conclude n (judged j v) := rfl

/-- What is known about an application and the plans decide how a job is healed. -/
theorem healedPlan_tidied (o : Orchestrator) (i j : Job) :
    (o.tidied i).healedPlan j = o.healedPlan j := by
  obtain ⟨host, hhost⟩ := o.tidied_eq i
  rw [hhost]
  rfl

theorem strands_iff {o : Orchestrator} {j : Job} {v : Verdict} : o.strands j v = true ↔
    (judged j v).isHealable = true ∧ o.healedPlan (judged j v) = .overflow := by
  unfold strands
  cases o.healedPlan (judged j v) <;> simp

/-- An attempt that breaks off leaves its job with its queue and on the board as it was. -/
theorem finish_of_strands {o : Orchestrator} {j : Job} {v : Verdict} (h : o.strands j v = true)
    (n : QueueName) : o.finish n j v = o.tidied j := by
  obtain ⟨hheal, hover⟩ := strands_iff.mp h
  rw [finish_eq, if_pos hheal, healedPlan_tidied, hover]

/-- **The end of an attempt** on a host that is tidied. -/
theorem performs_finish {o : Orchestrator} (n : QueueName) {j : Job} {v : Verdict}
    (hs : o.strands j v = false) :
    ∃ cs, Performs (o.tidied j) (some (.working n j)) cs (o.finish n j v) none := by
  rw [finish_eq]
  cases hj : (judged j v).isHealable with
  | false => exact ⟨_, .call (.settle hj) (performs_conclude _ n _)⟩
  | true =>
    cases hp : (o.tidied j).healedPlan (judged j v) with
    | error e => exact ⟨_, .call (.fail hj) (.call (.despair hp) (performs_conclude _ n _))⟩
    | ok h =>
      show ∃ cs, Performs _ _ cs ((((o.tidied j).serve (.correct (judged j v) h)).handOff? n
        (judged j v) h).getD _) none
      cases hh : ((o.tidied j).serve (.correct (judged j v) h)).handOff? n (judged j v) h with
      | some o' =>
        obtain ⟨cs, hcs⟩ := performs_handOff hh
        exact ⟨_, .call (.fail hj) (.call (.mend hp) (.call .store hcs))⟩
      | none =>
        exact ⟨_, .call (.fail hj) (.call (.mend hp) (.call .store
          (.call (.reject hh) (performs_conclude _ n _))))⟩
    | overflow =>
      rw [healedPlan_tidied] at hp
      rw [strands_iff.mpr ⟨hj, hp⟩] at hs
      cases hs

/-- **An attempt that breaks off** fails, and no corrected plan is ever sought again. -/
theorem performs_strand {o : Orchestrator} (n : QueueName) {j : Job} {v : Verdict}
    (hs : o.strands j v = true) :
    Performs (o.tidied j) (some (.working n j)) [.judge j v] (o.tidied j)
      (some (.correcting n (judged j v))) :=
  .call (.fail (strands_iff.mp hs).1) .done

end Orchestrator

end Testplan
