import Testplan.Proofs.IdlePolling
import Testplan.Proofs.Standstill
/-!
# Board and queues under administration

A `ManagedShift` is a shift whose queues are administered while the workers work: paused,
resumed, closed, cleaned, drained and brought to a standstill, one by one or all together,
at any time.  It keeps account of the jobs that this removed from the queues, in two lists.
When the **orchestrator** is brought to a standstill it takes the jobs that its queues drop
off the board: they are **dismissed**.  Whoever goes to the queues themselves, to drain
one of them or to bring all to a standstill, removes jobs of which the board does not
learn: they are **drained**.

Apart from the drained jobs, board and queues agree (`ManagedShift.Sound`).  The board
without them is the board of a shift in which they had left it together with their queue,
and so shows whoever it shows as in `Testplan.Proofs.BoardCustody`.
-/
namespace Testplan

/-! ## Jobs that leave their queues -/

namespace Orchestrator

/-- Two jobs with one identifier do not wait in two places. -/
theorem eq_of_waiting {o : Orchestrator} {id : JobId} (h : o.waitingAnywhere id ≤ 1)
    {n m : QueueName} {i j : Job} (hi : i ∈ (o.queue n).contents)
    (hj : j ∈ (o.queue m).contents) (hid : i.id = id) (hjd : j.id = id) : n = m := by
  have hn : 0 < o.waiting id n := List.countP_pos_iff.mpr ⟨i, hi, decide_eq_true hid⟩
  have hm : 0 < o.waiting id m := List.countP_pos_iff.mpr ⟨j, hj, decide_eq_true hjd⟩
  unfold waitingAnywhere at h
  cases n <;> cases m <;> first | rfl | omega

end Orchestrator

/-- What a queue gives when it is drained was in its contents. -/
theorem JobQueue.mem_contents_of_drained {q : JobQueue} {force : Bool} {id : JobId}
    (h : id ∈ (q.drain force).2) : ∃ j ∈ q.contents, j.id = id := by
  have h : id ∈ q.waiting.map Job.id ++ if force then q.delayed.map fun d => d.2.id else [] := h
  rcases List.mem_append.mp h with h | h
  · obtain ⟨j, hj, rfl⟩ := List.mem_map.mp h
    exact ⟨j, List.mem_append_left _ hj, rfl⟩
  · cases force with
    | false => cases h
    | true =>
      obtain ⟨d, hd, rfl⟩ := List.mem_map.mp h
      exact ⟨d.2, List.mem_append_right _ (List.mem_map_of_mem hd), rfl⟩

/-- Where no job waits twice, what is left in a queue that is drained is what it does not
give. -/
theorem JobQueue.mem_contents_drain_iff {q : JobQueue}
    (h : ∀ id, q.contents.countP (fun j => j.id = id) ≤ 1) (force : Bool) (j : Job) :
    j ∈ (q.drain force).1.contents ↔ j ∈ q.contents ∧ j.id ∉ (q.drain force).2 := by
  cases force with
  | true =>
    show j ∈ ([] : List Job) ↔
      j ∈ q.waiting ++ q.delayed.map Prod.snd ∧
        j.id ∉ q.waiting.map Job.id ++ q.delayed.map fun d => d.2.id
    refine ⟨nofun, fun ⟨hj, hid⟩ => ?_⟩
    rw [List.mem_append, not_or] at hid
    rcases List.mem_append.mp hj with hj | hj
    · exact absurd (List.mem_map_of_mem hj) hid.1
    · obtain ⟨d, hd, rfl⟩ := List.mem_map.mp hj
      exact absurd (List.mem_map.mpr ⟨d, hd, rfl⟩) hid.2
  | false =>
    show j ∈ [] ++ q.delayed.map Prod.snd ↔
      j ∈ q.waiting ++ q.delayed.map Prod.snd ∧ j.id ∉ q.waiting.map Job.id ++ []
    rw [List.nil_append, List.append_nil]
    constructor
    · refine fun hj => ⟨List.mem_append_right _ hj, fun hid => ?_⟩
      -- the job would wait among the waiting and among the delayed ones
      obtain ⟨i, hi, he⟩ := List.mem_map.mp hid
      have hone := h j.id
      rw [contents, List.countP_append] at hone
      have hwaiting : 0 < q.waiting.countP fun i => i.id = j.id :=
        List.countP_pos_iff.mpr ⟨i, hi, decide_eq_true he⟩
      have hdelayed : 0 < (q.delayed.map Prod.snd).countP fun i => i.id = j.id :=
        List.countP_pos_iff.mpr ⟨j, hj, decide_eq_true rfl⟩
      omega
    · rintro ⟨hj, hid⟩
      exact (List.mem_append.mp hj).resolve_left fun hw => hid (List.mem_map_of_mem hw)

namespace Orchestrator

/-- Where no job waits twice, a queue that is drained loses the jobs that it gives. -/
theorem loses_drain {o : Orchestrator} (h : ∀ id, o.waitingAnywhere id ≤ 1) (n : QueueName)
    (force : Bool) :
    o.Loses ((o.queue n).drain force).2
      { o with hall := o.hall.modify n fun q => (q.drain force).1 } where
  ids := rfl
  contents m j := by
    rw [o.queue_modify n m]
    by_cases hm : m = n
    · subst hm
      rw [if_pos rfl]
      refine JobQueue.mem_contents_drain_iff (fun id => ?_) force j
      have hone := h id
      unfold waitingAnywhere waiting at hone
      cases m <;> omega
    · rw [if_neg hm]
      refine ⟨fun hj => ⟨hj, fun hid => ?_⟩, fun hj => hj.1⟩
      obtain ⟨i, hi, he⟩ := JobQueue.mem_contents_of_drained hid
      exact hm (eq_of_waiting (h j.id) hj hi rfl he)
  gone id hid := by
    obtain ⟨j, hj, he⟩ := JobQueue.mem_contents_of_drained hid
    exact ⟨n, j, hj, he⟩

end Orchestrator

namespace Shift

/-- No job waits in two places. -/
theorem Reachable.waitingAnywhere_le_one {w : Shift} (h : Reachable w) (hd : w.Distinct)
    (id : JobId) : w.orchestrator.waitingAnywhere id ≤ 1 := by
  obtain ⟨calls, hc⟩ := h.interleaving
  have hone := hc.custody_le_one hd id
  unfold Interleaving.custody at hone
  have hsame : (w.interleaving calls).orchestrator = w.orchestrator := rfl
  rw [hsame] at hone
  omega

end Shift

/-! ## Other boards -/

namespace Orchestrator

/-- The orchestrator with another board. -/
def withBoard (o : Orchestrator) (b : JobBoard) : Orchestrator := { o with board := b }

theorem tidied_withBoard (o : Orchestrator) (b : JobBoard) (j : Job) :
    (o.withBoard b).tidied j = (o.tidied j).withBoard b := by
  unfold tidied withBoard
  split <;> rfl

/-- Whether a job is handed over does not depend on the board. -/
theorem handOff?_withBoard (o : Orchestrator) (n : QueueName) (j : Job) (h : HealedPlan) :
    (∀ b, (o.withBoard b).handOff? n j h = none) ∨
    ∃ (healed : Job) (o' : Orchestrator), healed.id = j.id ∧
      ∀ b, (o.withBoard b).handOff? n j h = some (o'.withBoard (b.record healed)) := by
  cases hh : o.handOff? n j h with
  | none =>
    refine .inl fun b => Option.eq_none_iff_forall_not_mem.mpr fun o' ho' => ?_
    obtain ⟨healed, hall, hj, ha, -⟩ := handOff?_eq_some_iff.mp ho'
    cases hh.symm.trans (handOff?_eq_some_iff.mpr ⟨healed, hall, hj, ha, rfl⟩)
  | some o' =>
    obtain ⟨healed, hall, hj, ha, rfl⟩ := handOff?_eq_some_iff.mp hh
    let o' := ({ o with hall := hall.modify n fun q => q.release j.id }.report j.id
      (.healing h.plan.ref h.changes)).report j.id (.queued healed.queue healed.attempt)
    exact .inr ⟨healed, o', id_requeue hj, fun b =>
      handOff?_eq_some_iff.mpr ⟨healed, hall, hj, ha, rfl⟩⟩

/-- **The end of an attempt puts the same job on any board.** -/
theorem finish_withBoard {o : Orchestrator} (n : QueueName) {j : Job} {v : Verdict}
    (hs : o.strands j v = false) :
    ∃ e : Job, e.id = j.id ∧
      ∀ b, (o.withBoard b).finish n j v = (o.finish n j v).withBoard (b.record e) := by
  simp only [finish_eq, tidied_withBoard]
  cases hheal : (judged j v).isHealable with
  | false => exact ⟨judged j v, id_judged j v, fun _ => rfl⟩
  | true =>
    have hplan (b : JobBoard) : ((o.tidied j).withBoard b).healedPlan (judged j v) =
        (o.tidied j).healedPlan (judged j v) := rfl
    simp only [if_true, hplan]
    cases hp : (o.tidied j).healedPlan (judged j v) with
    | overflow =>
      rw [strands_iff.mpr ⟨hheal, (o.healedPlan_tidied j (judged j v)).symm.trans hp⟩] at hs
      cases hs
    | error e => exact ⟨withRemark (judged j v) e, by rw [id_withRemark, id_judged], fun _ => rfl⟩
    | ok h =>
      rcases ((o.tidied j).serve (.correct (judged j v) h)).handOff?_withBoard n (judged j v) h with
        hnone | ⟨healed, o', hid, hsome⟩
      · refine ⟨judged j v, id_judged j v, fun b => ?_⟩
        have hb : (((o.tidied j).withBoard b).serve (.correct (judged j v) h)).handOff? n
          (judged j v) h = none := hnone b
        have ho : ((o.tidied j).serve (.correct (judged j v) h)).handOff? n
          (judged j v) h = none := hnone _
        dsimp only
        rw [hb, ho]
        rfl
      · refine ⟨healed, hid.trans (id_judged j v), fun b => ?_⟩
        have hb : (((o.tidied j).withBoard b).serve (.correct (judged j v) h)).handOff? n
          (judged j v) h = _ := hsome b
        have ho : ((o.tidied j).serve (.correct (judged j v) h)).handOff? n
          (judged j v) h = _ := hsome _
        dsimp only
        rw [hb, ho]
        rfl

/-- An attempt that breaks off puts nothing on any board. -/
theorem finish_withBoard_of_strands {o : Orchestrator} {j : Job} {v : Verdict}
    (hs : o.strands j v = true) (n : QueueName) (b : JobBoard) :
    (o.withBoard b).finish n j v = (o.finish n j v).withBoard b := by
  have hb : (o.withBoard b).strands j v = true := hs
  rw [finish_of_strands hb, tidied_withBoard, finish_of_strands hs]

end Orchestrator

/-! ## Shifts whose queues are administered -/

/-- **A shift whose queues are administered.** -/
structure ManagedShift where
  orchestrator : Orchestrator
  assignments : List Assignment := []
  requests : List (JobId × Submission) := []
  /-- The jobs that were removed at the queues. -/
  drained : List JobId := []
  /-- The jobs that were dropped when the orchestrator was brought to a standstill. -/
  dismissed : List JobId := []

namespace ManagedShift

/-- **One operation.** -/
inductive Step : ManagedShift → ManagedShift → Prop where
  | submit {o as rs ds gs} (s : Submission) :
      Step ⟨o, as, rs, ds, gs⟩ ⟨(o.submit s).1, as, rs ++ o.requests s, ds, gs⟩
  | take {o l r rs ds gs n token j} (ht : (o.hall.ask n token).2 = .job j) :
      Step ⟨o, l ++ r, rs, ds, gs⟩
        ⟨{ o with hall := (o.hall.ask n token).1 }, l ++ .taken n j :: r, rs, ds, gs⟩
  | miss {o as rs ds gs n token} (ht : ∀ j, (o.hall.ask n token).2 ≠ .job j) :
      Step ⟨o, as, rs, ds, gs⟩ ⟨{ o with hall := (o.hall.ask n token).1 }, as, rs, ds, gs⟩
  | start {o l r rs ds gs n j} :
      Step ⟨o, l ++ .taken n j :: r, rs, ds, gs⟩
        ⟨(o.start j).1, l ++ .begun n (o.start j).2 :: r, rs, ds, gs⟩
  | log {o l r rs ds gs n j} (line : String) :
      Step ⟨o, l ++ .begun n j :: r, rs, ds, gs⟩
        ⟨(o.log j line).1, l ++ .begun n (o.log j line).2 :: r, rs, ds, gs⟩
  | finish {o l r rs ds gs n j v} (hs : o.strands j v = false) :
      Step ⟨o, l ++ .begun n j :: r, rs, ds, gs⟩ ⟨o.finish n j v, l ++ r, rs, ds, gs⟩
  | strand {o l r rs ds gs n j v} (hs : o.strands j v = true) :
      Step ⟨o, l ++ .begun n j :: r, rs, ds, gs⟩
        ⟨o.finish n j v, l ++ .stranded n (Orchestrator.judged j v) :: r, rs, ds, gs⟩
  /-- A queue is paused, resumed, closed or cleaned. -/
  | administer {o as rs ds gs} (n : QueueName) (a : Administration)
      (ha : ∀ force, a ≠ .drain force) :
      Step ⟨o, as, rs, ds, gs⟩
        ⟨{ o with hall := o.hall.modify n fun q => a.apply o.hall.now q }, as, rs, ds, gs⟩
  | drain {o as rs ds gs} (n : QueueName) (force : Bool) :
      Step ⟨o, as, rs, ds, gs⟩
        ⟨{ o with hall := o.hall.modify n fun q => (q.drain force).1 }, as, rs,
          ds ++ ((o.queue n).drain force).2, gs⟩
  /-- All queues are brought to a standstill, without the orchestrator. -/
  | haltQueues {o as rs ds gs} :
      Step ⟨o, as, rs, ds, gs⟩
        ⟨{ o with hall := o.hall.halt.1 }, as, rs, ds ++ o.hall.halt.2, gs⟩
  /-- The orchestrator is brought to a standstill. -/
  | halt {o as rs ds gs} :
      Step ⟨o, as, rs, ds, gs⟩ ⟨o.halt.1, as, rs, ds, gs ++ o.hall.halt.2⟩
  | surroundings {o as rs ds gs} (host : Host) (hall : QueueHall) :
      Step ⟨o, as, rs, ds, gs⟩
        ⟨{ o with host, hall := { hall with queues := o.hall.queues } }, as, rs, ds, gs⟩

/-- **The managed shifts that come about.** -/
inductive Reachable : ManagedShift → Prop where
  | first (config : Configuration) (adapters : AdapterRegistry) (host : Host) (ids : IdSource) :
      Reachable { orchestrator := .ofConfiguration config adapters host ids }
  | step {v w : ManagedShift} (h : Reachable v) (hs : Step v w) : Reachable w

/-- The shift without the account of who was removed. -/
def shift (v : ManagedShift) : Shift := ⟨v.orchestrator, v.assignments, v.requests⟩

/-- All identifiers that were drawn differ from each other. -/
def Distinct (v : ManagedShift) : Prop := v.orchestrator.ids.Distinct

variable {v w : ManagedShift}

theorem Step.shift (hs : Step v w) (hv : v.shift.Reachable) : w.shift.Reachable := by
  unfold ManagedShift.shift at hv ⊢
  cases hs with
  | submit s => exact hv.step (.submit s)
  | take ht => exact hv.step (.take ht)
  | miss ht => exact hv.step (.miss ht)
  | start => exact hv.step .start
  | log line => exact hv.step (.log line)
  | finish hstays => exact hv.step (.finish hstays)
  | strand hstrands => exact hv.step (.strand hstrands)
  | administer n a ha => exact hv.step (.administer n a)
  | drain n force => exact hv.step (.administer n (.drain force))
  | haltQueues => exact ((hv.haltOne .run).haltOne .healing).haltOne .security
  | halt => exact hv.halt
  | surroundings host hall => exact hv.step (.surroundings host hall)

/-- **Every managed shift is a shift.** -/
theorem Reachable.shift (h : Reachable v) : v.shift.Reachable := by
  induction h with
  | first config adapters host ids => exact .first config adapters host ids
  | step _ hs ih => exact hs.shift ih

theorem Step.distinct (hs : Step v w) (hw : w.Distinct) : v.Distinct := by
  cases hs with
  | @submit o as rs ds gs s =>
    obtain ⟨cs, hcs⟩ := o.performs_submit s
    exact (hcs.steps [] [] []).distinct hw
  | @finish o l r rs ds gs n j verdict | @strand o l r rs ds gs n j verdict =>
    have hids := (o.sameService_finish n j verdict).1
    unfold Distinct at hw ⊢
    rwa [hids] at hw
  | _ => exact hw

/-! ## What the board shows -/

/-- The board without the jobs that were drained. -/
def cleared (v : ManagedShift) : JobBoard :=
  v.drained.foldl JobBoard.remove v.orchestrator.board

/-- **Board and queues agree, but for the jobs that were drained.** -/
structure Sound (v : ManagedShift) : Prop where
  shown : Shift.Shown ⟨v.orchestrator.withBoard v.cleared, v.assignments, v.requests⟩
    (v.drained ++ v.dismissed)
  /-- A job that was drained stays on the board as queued. -/
  left : ∀ id ∈ v.drained, ∃ j, v.orchestrator.board.get? id = some j ∧ j.status = .queued
  apart : ∀ id ∈ v.dismissed, id ∉ v.drained

theorem Sound.first (config : Configuration) (adapters : AdapterRegistry) (host : Host)
    (ids : IdSource) :
    Sound { orchestrator := .ofConfiguration config adapters host ids } where
  shown := .first config adapters host ids
  left _ hid := absurd hid List.not_mem_nil
  apart _ hid := absurd hid List.not_mem_nil

/-- Who is on the cleared board was not drained. -/
theorem not_drained_of_mem_cleared {id : JobId} (h : id ∈ v.cleared.ids) : id ∉ v.drained := by
  unfold cleared at h
  rw [JobBoard.ids_removeAll] at h
  simpa using (List.mem_filter.mp h).2

theorem get?_cleared (v : ManagedShift) (id : JobId) :
    v.cleared.get? id = if id ∈ v.drained then none else v.orchestrator.board.get? id :=
  JobBoard.get?_removeAll _ _ _

/-- A job that waits was not drained, and the board shows it as it waits. -/
theorem Sound.waiting (h : v.Sound) {n : QueueName} {j : Job}
    (hj : j ∈ (v.orchestrator.queue n).contents) :
    j.id ∉ v.drained ∧ v.orchestrator.board.get? j.id = some j := by
  have hshown : v.cleared.get? j.id = some j := h.shown.waiting n j hj
  have hnot := not_drained_of_mem_cleared (JobBoard.mem_ids_iff.mpr ⟨j, hshown⟩)
  rw [get?_cleared, if_neg hnot] at hshown
  exact ⟨hnot, hshown⟩

/-- A job that a worker has was not drained, and the board names its queue. -/
theorem Sound.working (h : v.Sound) {a : Assignment} (ha : a ∈ v.assignments) :
    a.job.id ∉ v.drained ∧ ∃ j, v.orchestrator.board.get? a.job.id = some j ∧
      j.queue = a.queue ∧ j.status.isTerminal = false := by
  obtain ⟨j, hj, hrest⟩ := h.shown.working a ha
  have hj : v.cleared.get? a.job.id = some j := hj
  have hnot := not_drained_of_mem_cleared (JobBoard.mem_ids_iff.mpr ⟨j, hj⟩)
  rw [get?_cleared, if_neg hnot] at hj
  exact ⟨hnot, j, hj, hrest⟩

/-- Only identifiers that were drawn are drained. -/
theorem Sound.hasDrawn_of_drained (h : v.Sound) {id : JobId} (hid : id ∈ v.drained) :
    v.orchestrator.ids.HasDrawn id.uuid :=
  h.shown.drawn id (h.shown.submitted id (List.mem_append_left _ hid))

variable {o o' : Orchestrator} {as l r : List Assignment} {rs rs' : List (JobId × Submission)}
  {ds gs : List JobId}

/-- An operation that puts nothing on the board. -/
theorem Sound.keep (h : Sound ⟨o, as, rs, ds, gs⟩) (o' : Orchestrator)
    (hboard : o'.board = o.board) {bs : List Assignment}
    (hshown : Shift.Shown ⟨o'.withBoard (ds.foldl JobBoard.remove o.board), bs, rs'⟩ (ds ++ gs)) :
    Sound ⟨o', bs, rs', ds, gs⟩ where
  shown := by
    unfold cleared
    rw [hboard]
    exact hshown
  left := by
    rw [hboard]
    exact h.left
  apart := h.apart

/-- **An operation that puts a job on the board** that was not drained. -/
theorem Sound.record (h : Sound ⟨o, as, rs, ds, gs⟩) (e : Job)
    (hboard : o'.board = o.board.record e) (he : e.id ∉ ds) {bs : List Assignment}
    (hshown : Shift.Shown
      ⟨o'.withBoard ((ds.foldl JobBoard.remove o.board).record e), bs, rs'⟩ (ds ++ gs)) :
    Sound ⟨o', bs, rs', ds, gs⟩ := by
  have hget (id : JobId) : o'.board.get? id = if id = e.id then some e else o.board.get? id := by
    rw [hboard, JobBoard.get?_record]
  refine ⟨?_, ?_, h.apart⟩
  · unfold cleared
    rw [hboard, JobBoard.removeAll_record _ he]
    exact hshown
  · intro id hid
    obtain ⟨j, hj, hq⟩ := h.left id hid
    have hne : id ≠ e.id := fun heq => he (heq ▸ hid)
    exact ⟨j, (hget id).trans ((if_neg hne).trans hj), hq⟩

theorem Sound.enlisted (h : Sound ⟨o, as, rs, ds, gs⟩) {s : Submission}
    {environment : Environment} {n : QueueName} {part : Plan} {hall : QueueHall}
    (ha : o.hall.add? n (o.newJob s environment n part) = some hall)
    (hd : (o.enlisted s environment n part).ids.Distinct) :
    Sound ⟨o.enlisted s environment n part, as,
      rs ++ [((o.newJob s environment n part).id, s)], ds, gs⟩ := by
  have hnew : ¬ o.ids.HasDrawn (o.newJob s environment n part).id.uuid :=
    IdSource.not_hasDrawn_draw hd
  exact h.record (o.newJob s environment n part) rfl (fun hid => hnew (h.hasDrawn_of_drained hid))
    (h.shown.enlisted ha hd)

theorem Sound.submit (h : Sound ⟨o, as, rs, ds, gs⟩) (s : Submission)
    (hd : (o.submit s).1.ids.Distinct) :
    Sound ⟨(o.submit s).1, as, rs ++ o.requests s, ds, gs⟩ :=
  Shift.submit_invariant
    (P := fun w => Sound ⟨w.orchestrator, w.assignments, w.requests, ds, gs⟩) s
    (fun {o _} h => h.keep (o.serve (.accept s)) rfl
      (h.shown.draw (.accept s) rfl fun _ => rfl))
    (fun {o _ part} j h => h.keep (o.serve (.create s part j)) rfl
      (h.shown.draw (.create s part j) rfl fun _ => rfl))
    (fun _ ha hd h => h.enlisted ha hd) h hd

theorem Sound.take (h : Sound ⟨o, l ++ r, rs, ds, gs⟩) {n : QueueName} {token : Nat} {j : Job}
    (ht : (o.hall.ask n token).2 = .job j) (hwaits : j.Waits n) :
    Sound ⟨{ o with hall := (o.hall.ask n token).1 }, l ++ .taken n j :: r, rs, ds, gs⟩ :=
  h.keep { o with hall := (o.hall.ask n token).1 } rfl (h.shown.take ht hwaits)

theorem Sound.start {n : QueueName} {j : Job} (h : Sound ⟨o, l ++ .taken n j :: r, rs, ds, gs⟩)
    (halone : Shift.Absent o (l ++ r) j.id) (hwaits : j.Waits n) :
    Sound ⟨(o.start j).1, l ++ .begun n (o.start j).2 :: r, rs, ds, gs⟩ := by
  refine h.record (o.start j).2 rfl ?_ (h.shown.start halone hwaits)
  rw [o.id_start]
  exact (h.working (a := .taken n j) (by simp)).1

theorem Sound.log {n : QueueName} {j : Job} (h : Sound ⟨o, l ++ .begun n j :: r, rs, ds, gs⟩)
    (line : String) :
    Sound ⟨(o.log j line).1, l ++ .begun n (o.log j line).2 :: r, rs, ds, gs⟩ :=
  h.keep (o.log j line).1 rfl (h.shown.log line)

theorem Sound.finish {n : QueueName} {j : Job} (h : Sound ⟨o, l ++ .begun n j :: r, rs, ds, gs⟩)
    (halone : Shift.Absent o (l ++ r) j.id) (hruns : j.Runs n) {v : Verdict}
    (hs : o.strands j v = false) : Sound ⟨o.finish n j v, l ++ r, rs, ds, gs⟩ := by
  obtain ⟨e, hid, hboards⟩ := Orchestrator.finish_withBoard n hs
  have hboard : (o.finish n j v).board = o.board.record e :=
    congrArg Orchestrator.board (hboards o.board)
  refine h.record e hboard ?_ ?_
  · rw [hid]
    exact (h.working (a := .begun n j) (by simp)).1
  · rw [← hboards]
    exact h.shown.finish halone hruns hs

theorem Sound.strand {n : QueueName} {j : Job} (h : Sound ⟨o, l ++ .begun n j :: r, rs, ds, gs⟩)
    {v : Verdict} (hs : o.strands j v = true) :
    Sound ⟨o.finish n j v, l ++ .stranded n (Orchestrator.judged j v) :: r, rs, ds, gs⟩ := by
  obtain ⟨host, hhost⟩ := o.tidied_eq j
  refine h.keep (o.finish n j v) ?_ ?_
  · rw [Orchestrator.finish_of_strands hs, hhost]
  · rw [← Orchestrator.finish_withBoard_of_strands hs]
    exact h.shown.strand hs

/-- The queues keep their jobs, the workers theirs, and the board stays as it is. -/
theorem Sound.same_jobs (h : Sound ⟨o, as, rs, ds, gs⟩) (hboard : o'.board = o.board)
    (hids : o'.ids = o.ids) (hcontents : ∀ n, (o'.queue n).contents.Perm (o.queue n).contents) :
    Sound ⟨o', as, rs, ds, gs⟩ :=
  h.keep o' hboard (h.shown.same_jobs rfl hids hcontents)

/-- **Jobs that are drained** leave the queues and not the board. -/
theorem Sound.drain (h : Sound ⟨o, as, rs, ds, gs⟩) {gone : List JobId} (hl : o.Loses gone o')
    (hboard : o'.board = o.board) (hfree : ∀ a ∈ as, a.job.id ∉ gone)
    (hwaits : ∀ n, ∀ j ∈ (o.queue n).contents, j.Waits n) :
    Sound ⟨o', as, rs, ds ++ gone, gs⟩ := by
  exact {
    shown := by
      unfold cleared
      dsimp only
      rw [hboard, List.foldl_append]
      have hlost := h.shown.lose (o'.withBoard (gone.foldl JobBoard.remove
        (cleared ⟨o, as, rs, ds, gs⟩))) ⟨hl.ids, hl.contents, hl.gone⟩ hfree rfl
      exact hlost.congr fun id => by simp only [List.mem_append, or_right_comm]
    left := by
      rw [hboard]
      intro id hid
      rcases List.mem_append.mp hid with hid | hid
      · exact h.left id hid
      · obtain ⟨n, j, hj, rfl⟩ := hl.gone id hid
        exact ⟨j, (h.waiting hj).2, (hwaits n j hj).2⟩
    apart := fun id hid hgone => by
      refine (List.mem_append.mp hgone).elim (h.apart id hid) fun hgone => ?_
      obtain ⟨n, j, hj, rfl⟩ := hl.gone id hgone
      have hshown := h.shown.mem_ids hj
      rw [h.shown.listed] at hshown
      simp [show j.id ∈ gs from hid] at hshown }

/-- **Jobs that are dismissed** leave the queues and the board. -/
theorem Sound.dismiss (h : Sound ⟨o, as, rs, ds, gs⟩) {gone : List JobId} (hl : o.Loses gone o')
    (hboard : o'.board = gone.foldl JobBoard.remove o.board) (hfree : ∀ a ∈ as, a.job.id ∉ gone) :
    Sound ⟨o', as, rs, ds, gs ++ gone⟩ := by
  have hget (id : JobId) (hid : id ∉ gone) : o'.board.get? id = o.board.get? id := by
    rw [hboard, JobBoard.get?_removeAll, if_neg hid]
  have happart : ∀ id ∈ gone, id ∉ ds := by
    intro id hid
    obtain ⟨n, j, hj, rfl⟩ := hl.gone id hid
    exact (h.waiting hj).1
  exact {
    shown := by
      unfold cleared
      dsimp only
      rw [hboard, JobBoard.removeAll_comm]
      have hlost := h.shown.lose (o'.withBoard (gone.foldl JobBoard.remove
        (cleared ⟨o, as, rs, ds, gs⟩))) ⟨hl.ids, hl.contents, hl.gone⟩ hfree rfl
      rwa [List.append_assoc] at hlost
    left := fun id hid => by
      obtain ⟨j, hj, hq⟩ := h.left id hid
      exact ⟨j, (hget id fun hgone => happart id hgone hid).trans hj, hq⟩
    apart := fun id hid => (List.mem_append.mp hid).elim (h.apart id) (happart id) }

theorem Sound.step (h : v.Sound) (hr : Reachable v) (hs : Step v w) (hw : w.Distinct) :
    w.Sound := by
  have hvd : v.Distinct := hs.distinct hw
  have hshift := hr.shift
  obtain ⟨hproper, hwaits⟩ := hshift.orderly
  -- no queue loses the job of a worker
  have hfree : ∀ {gone : List JobId} {o' : Orchestrator}, v.orchestrator.Loses gone o' →
      ∀ a ∈ v.assignments, a.job.id ∉ gone := by
    intro gone o' hl a ha hid
    obtain ⟨n, j, hj, he⟩ := hl.gone _ hid
    exact hshift.not_waiting hvd ha n j hj he
  cases hs with
  | submit s => exact h.submit s hw
  | take ht => exact h.take ht (hwaits _ _ (Orchestrator.mem_contents_of_take ht))
  | @miss o as rs ds gs n token ht =>
    exact h.keep { o with hall := (o.hall.ask n token).1 } rfl (h.shown.miss ht)
  | @start o l r rs ds gs n j =>
    exact h.start (hshift.alone hvd)
      (hproper (.taken n j) (List.mem_append_right l List.mem_cons_self))
  | log line => exact h.log line
  | @finish o l r rs ds gs n j verdict hstays =>
    exact h.finish (hshift.alone hvd)
      (hproper (.begun n j) (List.mem_append_right l List.mem_cons_self)) hstays
  | strand hstrands => exact h.strand hstrands
  | @administer o as rs ds gs n a ha =>
    refine h.same_jobs rfl rfl fun m => ?_
    rw [o.queue_modify]
    split
    · next hm =>
      subst hm
      cases a with
      | drain force => exact absurd rfl (ha force)
      | _ => exact .refl _
    · exact .refl _
  | @drain o as rs ds gs n force =>
    have hl := o.loses_drain (hshift.waitingAnywhere_le_one hvd) n force
    exact h.drain hl rfl (hfree hl) hwaits
  | @haltQueues o =>
    -- the queues lose what they lose when the orchestrator is brought to a standstill
    have hl : o.Loses o.hall.halt.2 { o with hall := o.hall.halt.1 } :=
      ⟨o.loses_halt.ids, o.loses_halt.contents, o.loses_halt.gone⟩
    exact h.drain hl rfl (hfree hl) hwaits
  | @halt o => exact h.dismiss o.loses_halt rfl (hfree o.loses_halt)
  | surroundings host hall => exact h.same_jobs rfl rfl fun _ => .refl _

theorem Reachable.sound (h : Reachable v) (hd : v.Distinct) : v.Sound := by
  induction h with
  | first config adapters host ids => exact .first config adapters host ids
  | step hv hs ih => exact (ih (hs.distinct hd)).step hv hs hd

/-- Whom a queue holds was neither drained nor dismissed. -/
theorem Sound.mem_cleared_of_holds (h : v.Sound) (hr : Reachable v) (hd : v.Distinct)
    {n : QueueName} {id : JobId} (hid : v.orchestrator.Holds n id) : id ∈ v.cleared.ids := by
  rcases hid with ⟨j, hj, rfl⟩ | hactive
  · exact h.shown.mem_ids hj
  · obtain ⟨a, ha, -, rfl⟩ := (hr.shift.mem_active_iff hd).mp hactive
    exact h.shown.mem_ids_of_working ha

theorem Sound.not_dismissed_of_mem_cleared (h : v.Sound) {id : JobId} (hid : id ∈ v.cleared.ids) :
    id ∉ v.dismissed := by
  intro hgone
  have hlisted : id ∈ (v.orchestrator.withBoard v.cleared).board.ids := hid
  rw [h.shown.listed] at hlisted
  simp [hgone] at hlisted

/-- **Board and queues agree on all jobs but those that were drained.**  A job that the
board shows as not ended is held by the queue that it names, unless it was drained.  A
drained job stays on the board as queued although no queue holds it; a dismissed job is
neither on the board nor in a queue. -/
theorem Reachable.board_agrees_iff (h : Reachable v) (hd : v.Distinct) :
    (∀ id j, v.orchestrator.board.get? id = some j → j.status.isTerminal = false →
      (v.orchestrator.Holds j.queue id ↔ id ∉ v.drained)) ∧
    (∀ id ∈ v.drained,
      (∃ j, v.orchestrator.board.get? id = some j ∧ j.status = .queued) ∧
        ∀ n, ¬ v.orchestrator.Holds n id) ∧
    ∀ id ∈ v.dismissed, id ∉ v.orchestrator.board.ids ∧ ∀ n, ¬ v.orchestrator.Holds n id := by
  have hs := h.sound hd
  have hheld : ∀ {n id}, v.orchestrator.Holds n id → id ∈ v.cleared.ids :=
    fun hid => hs.mem_cleared_of_holds h hd hid
  refine ⟨fun id j hj hends => ?_, fun id hid => ?_, fun id hid => ?_⟩
  · refine ⟨fun hid => not_drained_of_mem_cleared (hheld hid), fun hid => ?_⟩
    have hshown : v.cleared.get? id = some j := by rw [get?_cleared, if_neg hid, hj]
    rcases hs.shown.held id j hshown with hend | ⟨n, hn⟩ | ⟨a, ha, rfl⟩
    · rw [hends] at hend
      cases hend
    · have hwaits := h.shift.orderly.2 n j hn
      rw [hwaits.1.queue]
      exact .inl ⟨j, hn, hs.shown.own id j hshown⟩
    · obtain ⟨-, i, hi, hqueue, -⟩ := hs.working ha
      cases hj.symm.trans hi
      exact .inr ((h.shift.mem_active_iff hd).mpr ⟨a, ha, hqueue.symm, rfl⟩)
  · exact ⟨hs.left id hid, fun n hn => not_drained_of_mem_cleared (hheld hn) hid⟩
  · refine ⟨fun hboard => ?_, fun n hn => hs.not_dismissed_of_mem_cleared (hheld hn) hid⟩
    obtain ⟨j, hj⟩ := JobBoard.mem_ids_iff.mp hboard
    refine hs.not_dismissed_of_mem_cleared (JobBoard.mem_ids_iff.mpr ⟨j, ?_⟩) hid
    rw [get?_cleared, if_neg (hs.apart id hid), hj]

end ManagedShift

namespace Sample

/-- The job of a submission was removed from its queue before a worker came. -/
def emptied : ManagedShift where
  orchestrator := { accepted.orchestrator with
    hall := accepted.orchestrator.hall.modify .run fun q => (q.drain false).1 }
  requests := accepted.requests
  drained := ((accepted.orchestrator.queue .run).drain false).2

theorem reachable_emptied : emptied.Reachable :=
  .step (.step (.first ..) (.submit (submission .statement "email"))) (.drain .run false)

theorem distinct_emptied : emptied.Distinct := by
  obtain ⟨cs, hcs⟩ := start.orchestrator.performs_submit (submission .statement "email")
  exact distinct_uuid (hcs.steps [] [] []).name_eq (by decide +kernel)

end Sample

namespace ManagedShift

/-- The board goes on showing a job as queued that its queue does not have any more. -/
theorem drained_job_shown_as_queued :
    Sample.emptied.Reachable ∧ Sample.emptied.Distinct ∧
      ∃ j, Sample.emptied.orchestrator.board.get? Sample.acceptedJob.id = some j ∧
        j.status = .queued ∧ j.queue = .run ∧
        ¬ Sample.emptied.orchestrator.Holds .run Sample.acceptedJob.id := by
  refine ⟨Sample.reachable_emptied, Sample.distinct_emptied, Sample.acceptedJob,
    by decide +kernel, rfl, rfl, ?_⟩
  have hcontents : (Sample.emptied.orchestrator.queue .run).contents = [] := by decide +kernel
  have hactive : (Sample.emptied.orchestrator.queue .run).active = [] := by decide +kernel
  rintro (⟨j, hj, -⟩ | hid)
  · rw [hcontents] at hj
    cases hj
  · rw [hactive] at hid
    cases hid

/-- The job that was drained is queued on the board and in no queue. -/
theorem drained_job_in_no_queue :
    Sample.emptied.Reachable ∧ Sample.emptied.Distinct ∧
      Sample.acceptedJob.id ∈ Sample.emptied.drained ∧
      (∃ j, Sample.emptied.orchestrator.board.get? Sample.acceptedJob.id = some j ∧
        j.status = .queued) ∧
      ∀ n, ¬ Sample.emptied.orchestrator.Holds n Sample.acceptedJob.id := by
  have hdrained : Sample.acceptedJob.id ∈ Sample.emptied.drained := by decide +kernel
  obtain ⟨-, hleft, -⟩ := Sample.reachable_emptied.board_agrees_iff Sample.distinct_emptied
  obtain ⟨hshown, hnowhere⟩ := hleft Sample.acceptedJob.id hdrained
  exact ⟨Sample.reachable_emptied, Sample.distinct_emptied, hdrained, hshown, hnowhere⟩

end ManagedShift

end Testplan
