import Testplan.Proofs.Placement
/-!
# What is told of a job

The **life** of a job is told by events.  It is queued, its attempt starts and logs
lines; then it is finished, or it is healed and all this happens once more in the queue
for healing, and then it is finished (`JobLife`).

A `Story` is the beginning of a life that leads up to where the job stands.  It goes on
from there in the few ways that the constructors of `Standing` suggest (`Story.start`,
`Story.log`, `Story.heal`, `Story.finish`), and it always has an end
(`Story.exists_life`).
-/
namespace Testplan

/-- What is told of an attempt in a queue before it ends. -/
def QueueName.attemptEvents (n : QueueName) (lines : List String) : List JobEvent :=
  .queued n n.attempt :: .started n n.attempt :: lines.map .log

theorem QueueName.attemptEvents_concat (n : QueueName) (lines : List String) (line : String) :
    n.attemptEvents (lines ++ [line]) = n.attemptEvents lines ++ [.log line] := by
  simp [attemptEvents]

/-- **What is told of a job from its first to its last event.** -/
inductive JobLife : List JobEvent → Prop where
  | once {n : QueueName} {status : JobStatus} (lines : List String) (hn : n ≠ .healing)
      (hs : status.isTerminal = true) : JobLife (n.attemptEvents lines ++ [.finished n status])
  | healed {n : QueueName} {status : JobStatus} (lines : List String) (plan : PlanRef)
      (changes : List HealedStep) (again : List String) (hn : n ≠ .healing)
      (hs : status.isTerminal = true) :
      JobLife (n.attemptEvents lines ++ .healing plan changes ::
        (QueueName.healing.attemptEvents again ++ [.finished .healing status]))

namespace JobEvent

/-- An attempt starts. -/
def isStart : JobEvent → Bool
  | started .. => true
  | _ => false

/-- The plan was corrected. -/
def isHealing : JobEvent → Bool
  | healing .. => true
  | _ => false

/-- The job has ended. -/
def isFinish : JobEvent → Bool
  | finished .. => true
  | _ => false

theorem countP_attemptEvents (n : QueueName) (lines : List String) :
    (n.attemptEvents lines).countP isStart = 1 ∧ (n.attemptEvents lines).countP isHealing = 0 ∧
      (n.attemptEvents lines).countP isFinish = 0 := by
  have logs : ∀ p : JobEvent → Bool, (∀ line, p (.log line) = false) →
      (lines.map JobEvent.log).countP p = 0 := by
    intro p hp
    refine List.countP_eq_zero.mpr ?_
    intro e he
    obtain ⟨line, -, rfl⟩ := List.mem_map.mp he
    simp [hp]
  have starts := logs isStart fun _ => rfl
  have healings := logs isHealing fun _ => rfl
  have ends := logs isFinish fun _ => rfl
  simp only [QueueName.attemptEvents, List.countP_cons, starts, healings, ends]
  exact ⟨rfl, rfl, rfl⟩

end JobEvent

open JobEvent in
/-- In a life there are at most two starts, one healing and one end. -/
theorem JobLife.countP_le {es : List JobEvent} (h : JobLife es) :
    es.countP isStart ≤ 2 ∧ es.countP isHealing ≤ 1 ∧ es.countP isFinish ≤ 1 := by
  cases h with
  | @once n status lines hn hs =>
    obtain ⟨h₁, h₂, h₃⟩ := countP_attemptEvents n lines
    simp [List.countP_append, h₁, h₂, h₃, List.countP_cons, isStart, isHealing, isFinish]
  | @healed n status lines plan changes again hn hs =>
    obtain ⟨h₁, h₂, h₃⟩ := countP_attemptEvents n lines
    obtain ⟨k₁, k₂, k₃⟩ := countP_attemptEvents .healing again
    simp [List.countP_append, h₁, h₂, h₃, k₁, k₂, k₃, List.countP_cons, isStart, isHealing,
      isFinish]

/-- How far a job has come. -/
inductive Standing where
  | unborn
  | waiting (n : QueueName)
  | running (n : QueueName)
  | ended

/-- **What is told of a job that has come so far.** -/
inductive Story : Standing → List JobEvent → Prop where
  | unborn : Story .unborn []
  | waiting {n : QueueName} (hn : n ≠ .healing) : Story (.waiting n) [.queued n 0]
  | running {n : QueueName} (hn : n ≠ .healing) (lines : List String) :
      Story (.running n) (n.attemptEvents lines)
  | waitingAgain {n : QueueName} (hn : n ≠ .healing) (lines : List String) (plan : PlanRef)
      (changes : List HealedStep) :
      Story (.waiting .healing)
        (n.attemptEvents lines ++ [.healing plan changes, .queued .healing 1])
  | runningAgain {n : QueueName} (hn : n ≠ .healing) (lines : List String) (plan : PlanRef)
      (changes : List HealedStep) (again : List String) :
      Story (.running .healing)
        (n.attemptEvents lines ++ .healing plan changes :: QueueName.healing.attemptEvents again)
  | ended {es : List JobEvent} (h : JobLife es) : Story .ended es

namespace Story

variable {n : QueueName} {es : List JobEvent}

/-- Of a job that was made, something is told. -/
theorem ne_nil {s : Standing} (h : Story s es) (hs : s ≠ .unborn) : es ≠ [] := by
  cases h with
  | unborn => exact absurd rfl hs
  | ended h => cases h <;> simp [QueueName.attemptEvents]
  | _ => simp [QueueName.attemptEvents]

theorem start (h : Story (.waiting n) es) :
    Story (.running n) (es ++ [.started n n.attempt]) := by
  cases h with
  | waiting hn =>
    have := running hn []
    rw [QueueName.attemptEvents, (QueueName.attempt_eq_zero_iff n).mpr hn] at this
    rwa [(QueueName.attempt_eq_zero_iff n).mpr hn]
  | waitingAgain hn lines plan changes =>
    have := runningAgain hn lines plan changes []
    rw [List.append_assoc]
    exact this

theorem log (h : Story (.running n) es) (line : String) :
    Story (.running n) (es ++ [.log line]) := by
  cases h with
  | running hn lines =>
    have := running hn (lines ++ [line])
    rwa [QueueName.attemptEvents_concat] at this
  | runningAgain hn lines plan changes again =>
    have := runningAgain hn lines plan changes (again ++ [line])
    rw [QueueName.attemptEvents_concat] at this
    rw [List.append_assoc]
    exact this

theorem heal (h : Story (.running n) es) (hn : n ≠ .healing) (plan : PlanRef)
    (changes : List HealedStep) :
    Story (.waiting .healing) (es ++ [.healing plan changes, .queued .healing 1]) := by
  cases h with
  | running hn lines => exact waitingAgain hn lines plan changes
  | runningAgain => exact absurd rfl hn

theorem finish (h : Story (.running n) es) {status : JobStatus}
    (hs : status.isTerminal = true) : JobLife (es ++ [.finished n status]) := by
  cases h with
  | running hn lines => exact .once lines hn hs
  | runningAgain hn lines plan changes again =>
    rw [List.append_assoc]
    exact .healed lines plan changes again hn hs

/-- **Every story has an end**: wherever a job stands, it may still run and succeed. -/
theorem exists_life {s : Standing} (h : Story s es) : ∃ life, JobLife life ∧ es <+: life := by
  have hs : JobStatus.succeeded.isTerminal = true := rfl
  cases s with
  | unborn =>
    cases h
    exact ⟨_, .once [] (by decide : QueueName.run ≠ .healing) hs, List.nil_prefix⟩
  | waiting n => exact ⟨_, h.start.finish hs, by simp⟩
  | running n => exact ⟨_, h.finish hs, List.prefix_append _ _⟩
  | ended =>
    cases h with
    | ended h => exact ⟨es, h, List.prefix_rfl⟩

end Story

end Testplan
