import Testplan.Proofs.Service
/-!
# Whom the board shows

As long as nobody takes jobs out of the queues or off the board, the board shows all jobs
that were queued, in the order of their submissions (`Shift.Shown`).  A job that it shows
as not ended is in somebody's hands: it waits in a queue, or a worker has it, and a job that
a worker has it shows as not ended.

Each operation puts at most one job on the board, which nobody else has
(`Shift.Shown.record`).  When the queues are brought to a standstill, the jobs that wait
there leave the queues and the board together, and those that are left on the board are
with workers or have ended.
-/
namespace Testplan

/-! ## Standstill of the queues -/

/-- A standstill drops what the queues had yet to hand out. -/
theorem QueueHall.mem_gone_iff (h : QueueHall) (id : JobId) :
    id ∈ h.halt.2 ↔ ∃ n, ∃ j ∈ (h.queues.get n).contents, j.id = id := by
  have one (q : JobQueue) : (QueueSet.haltOne q h.now).2 = q.contents.map Job.id := by
    show q.waiting.map Job.id ++ q.delayed.map (fun d => d.2.id) = _
    rw [JobQueue.contents, List.map_append, List.map_map]
    rfl
  show id ∈ (QueueSet.haltOne h.queues.run h.now).2 ++
    (QueueSet.haltOne h.queues.healing h.now).2 ++
    (QueueSet.haltOne h.queues.security h.now).2 ↔ _
  rw [one, one, one]
  simp only [List.mem_append, List.mem_map]
  constructor
  · rintro ((h | h) | h)
    · exact ⟨.run, h⟩
    · exact ⟨.healing, h⟩
    · exact ⟨.security, h⟩
  · rintro ⟨n, h⟩
    cases n with
    | run => exact .inl (.inl h)
    | healing => exact .inl (.inr h)
    | security => exact .inr h

namespace Orchestrator

/-- After a standstill nothing waits. -/
theorem contents_halt (o : Orchestrator) (n : QueueName) :
    (o.halt.1.queue n).contents = [] := by
  cases n <;> rfl

/-- The queues lost jobs that they had yet to hand out, and none of the others. -/
structure Loses (o : Orchestrator) (gone : List JobId) (o' : Orchestrator) : Prop where
  ids : o'.ids = o.ids
  contents : ∀ n j, j ∈ (o'.queue n).contents ↔ j ∈ (o.queue n).contents ∧ j.id ∉ gone
  gone : ∀ id ∈ gone, ∃ n, ∃ j ∈ (o.queue n).contents, j.id = id

theorem loses_halt (o : Orchestrator) : o.Loses o.hall.halt.2 o.halt.1 where
  ids := rfl
  contents n j := by
    rw [o.contents_halt]
    refine ⟨fun hj => absurd hj List.not_mem_nil, fun ⟨hj, hid⟩ => ?_⟩
    exact absurd ((o.hall.mem_gone_iff j.id).mpr ⟨n, j, hj, rfl⟩) hid
  gone id hid := (o.hall.mem_gone_iff id).mp hid

end Orchestrator

namespace Shift

/-- **The board shows the jobs that were queued**, but for some that were dropped. -/
structure Shown (w : Shift) (dropped : List JobId) : Prop where
  /-- A job that waits is shown as it waits. -/
  waiting : ∀ n, ∀ j ∈ (w.orchestrator.queue n).contents, w.orchestrator.board.get? j.id = some j
  /-- A job that a worker has is shown with the queue that it was taken from. -/
  working : ∀ a ∈ w.assignments, ∃ j, w.orchestrator.board.get? a.job.id = some j ∧
    j.queue = a.queue ∧ j.status.isTerminal = false
  /-- Who has not ended is in somebody's hands. -/
  held : ∀ id j, w.orchestrator.board.get? id = some j → j.status.isTerminal = true ∨
    (∃ n, j ∈ (w.orchestrator.queue n).contents) ∨ ∃ a ∈ w.assignments, a.job.id = id
  own : ∀ id j, w.orchestrator.board.get? id = some j → j.id = id
  listed : w.orchestrator.board.ids = (w.requests.map Prod.fst).filter (· ∉ dropped)
  drawn : ∀ id ∈ w.requests.map Prod.fst, w.orchestrator.ids.HasDrawn id.uuid
  submitted : ∀ id ∈ dropped, id ∈ w.requests.map Prod.fst

namespace Shown

variable {v w : Shift} {dropped : List JobId}

theorem first (config : Configuration) (adapters : AdapterRegistry) (host : Host)
    (ids : IdSource) : Shown ⟨.ofConfiguration config adapters host ids, [], []⟩ [] where
  waiting n j hj := by cases n <;> cases hj
  working _ ha := nomatch ha
  held _ _ h := nomatch h
  own _ _ h := nomatch h
  listed := rfl
  drawn _ h := nomatch h
  submitted _ h := nomatch h

theorem mem_requests (h : v.Shown dropped) {id : JobId} (hid : id ∈ v.orchestrator.board.ids) :
    id ∈ v.requests.map Prod.fst := by
  rw [h.listed] at hid
  exact (List.mem_filter.mp hid).1

theorem mem_ids (h : v.Shown dropped) {n : QueueName} {j : Job}
    (hj : j ∈ (v.orchestrator.queue n).contents) : j.id ∈ v.orchestrator.board.ids :=
  JobBoard.mem_ids_iff.mpr ⟨j, h.waiting n j hj⟩

theorem mem_ids_of_working (h : v.Shown dropped) {a : Assignment} (ha : a ∈ v.assignments) :
    a.job.id ∈ v.orchestrator.board.ids := by
  obtain ⟨j, hj, -⟩ := h.working a ha
  exact JobBoard.mem_ids_iff.mpr ⟨j, hj⟩

/-- An operation that puts nothing on the board. -/
theorem keep (h : v.Shown dropped) (hboard : w.orchestrator.board = v.orchestrator.board)
    (hrequests : w.requests = v.requests)
    (hids : ∀ u, v.orchestrator.ids.HasDrawn u → w.orchestrator.ids.HasDrawn u)
    (hcontents : ∀ n, ∀ j ∈ (w.orchestrator.queue n).contents,
      j ∈ (v.orchestrator.queue n).contents)
    (hworking : ∀ b ∈ w.assignments, ∃ j, v.orchestrator.board.get? b.job.id = some j ∧
      j.queue = b.queue ∧ j.status.isTerminal = false)
    (hkept : ∀ n, ∀ j ∈ (v.orchestrator.queue n).contents,
      j ∈ (w.orchestrator.queue n).contents ∨ ∃ b ∈ w.assignments, b.job.id = j.id)
    (hassigned : ∀ a ∈ v.assignments, ∃ b ∈ w.assignments, b.job.id = a.job.id) :
    w.Shown dropped where
  waiting n j hj := by
    rw [hboard]
    exact h.waiting n j (hcontents n j hj)
  working b hb := by
    rw [hboard]
    exact hworking b hb
  held id j hj := by
    rw [hboard] at hj
    rcases h.held id j hj with hend | ⟨n, hn⟩ | ⟨a, ha, rfl⟩
    · exact .inl hend
    · rcases hkept n j hn with hw | ⟨b, hb, he⟩
      · exact .inr (.inl ⟨n, hw⟩)
      · exact .inr (.inr ⟨b, hb, he.trans (h.own id j hj)⟩)
    · exact .inr (.inr (hassigned a ha))
  own := by
    rw [hboard]
    exact h.own
  listed := by
    rw [hboard, hrequests]
    exact h.listed
  drawn := by
    rw [hrequests]
    exact fun id hid => hids _ (h.drawn id hid)
  submitted := by
    rw [hrequests]
    exact h.submitted

/-- **An operation that puts one job on the board**, which nobody else has. -/
theorem record (h : v.Shown dropped) (e : Job)
    (hboard : w.orchestrator.board = v.orchestrator.board.record e)
    (hrequests : w.requests = v.requests ∧ e.id ∈ v.orchestrator.board.ids ∨
      ∃ s, w.requests = v.requests ++ [(e.id, s)] ∧ e.id ∉ v.requests.map Prod.fst)
    (hids : ∀ u, v.orchestrator.ids.HasDrawn u → w.orchestrator.ids.HasDrawn u)
    (hdrawn : w.orchestrator.ids.HasDrawn e.id.uuid)
    (hcontents : ∀ n, ∀ j ∈ (w.orchestrator.queue n).contents,
      j = e ∨ j ∈ (v.orchestrator.queue n).contents ∧ j.id ≠ e.id)
    (hworking : ∀ b ∈ w.assignments, b ∈ v.assignments ∧ b.job.id ≠ e.id ∨
      b.job.id = e.id ∧ e.queue = b.queue ∧ e.status.isTerminal = false)
    (hheld : e.status.isTerminal = true ∨ (∃ n, e ∈ (w.orchestrator.queue n).contents) ∨
      ∃ b ∈ w.assignments, b.job.id = e.id)
    (hkept : ∀ n, ∀ j ∈ (v.orchestrator.queue n).contents, j.id ≠ e.id →
      j ∈ (w.orchestrator.queue n).contents)
    (hassigned : ∀ a ∈ v.assignments, a.job.id ≠ e.id → a ∈ w.assignments) :
    w.Shown dropped := by
  have hget (id : JobId) : w.orchestrator.board.get? id =
      if id = e.id then some e else v.orchestrator.board.get? id := by
    rw [hboard, JobBoard.get?_record]
  have hmore : ∀ id ∈ w.requests.map Prod.fst, id ∈ v.requests.map Prod.fst ∨ id = e.id := by
    intro id hid
    rcases hrequests with ⟨hsame, -⟩ | ⟨s, hnew, -⟩
    · exact .inl (hsame ▸ hid)
    · rw [hnew, List.map_append, List.mem_append] at hid
      exact hid.imp_right List.mem_singleton.mp
  refine {
    waiting := fun n j hj => ?waiting
    working := fun b hb => ?working
    held := fun id j hj => ?held
    own := fun id j hj => ?own
    listed := ?listed
    drawn := fun id hid => ?drawn
    submitted := fun id hid => ?submitted }
  case waiting =>
    rw [hget]
    rcases hcontents n j hj with rfl | ⟨hold, hne⟩
    · rw [if_pos rfl]
    · rw [if_neg hne]
      exact h.waiting n j hold
  case working =>
    rcases hworking b hb with ⟨hold, hne⟩ | ⟨hid, hqueue, hends⟩
    · obtain ⟨j, hj, hrest⟩ := h.working b hold
      exact ⟨j, (hget _).trans ((if_neg hne).trans hj), hrest⟩
    · exact ⟨e, (hget _).trans (if_pos hid), hqueue, hends⟩
  case held =>
    rw [hget] at hj
    by_cases he : id = e.id
    · rw [if_pos he] at hj
      cases hj
      rw [he]
      exact hheld
    · rw [if_neg he] at hj
      rcases h.held id j hj with hend | ⟨n, hn⟩ | ⟨a, ha, rfl⟩
      · exact .inl hend
      · exact .inr (.inl ⟨n, hkept n j hn (by rwa [h.own id j hj])⟩)
      · exact .inr (.inr ⟨a, hassigned a ha he, rfl⟩)
  case own =>
    rw [hget] at hj
    by_cases he : id = e.id
    · rw [if_pos he] at hj
      cases hj
      exact he.symm
    · rw [if_neg he] at hj
      exact h.own id j hj
  case listed =>
    rw [hboard, JobBoard.ids_record]
    rcases hrequests with ⟨hsame, hold⟩ | ⟨s, hnew, hfresh⟩
    · rw [if_pos hold, hsame]
      exact h.listed
    · -- a new job was neither shown nor dropped before
      have hshown : e.id ∉ v.orchestrator.board.ids := fun hid => hfresh (h.mem_requests hid)
      have hkeep : e.id ∉ dropped := fun hid => hfresh (h.submitted _ hid)
      rw [if_neg hshown, hnew, h.listed, List.map_append, List.filter_append]
      simp [hkeep]
  case drawn =>
    rcases hmore id hid with hold | rfl
    · exact hids _ (h.drawn id hold)
    · exact hdrawn
  case submitted =>
    have hold := h.submitted id hid
    rcases hrequests with ⟨hsame, -⟩ | ⟨s, hnew, -⟩
    · rw [hsame]
      exact hold
    · rw [hnew, List.map_append]
      exact List.mem_append_left _ hold

/-! ## Submissions -/

variable {o : Orchestrator} {as l r : List Assignment} {rs : List (JobId × Submission)}

/-- A job that is made and queued is put on the board in last place. -/
theorem enlisted (h : Shown ⟨o, as, rs⟩ dropped) {s : Submission} {environment : Environment}
    {n : QueueName} {part : Plan} {hall : QueueHall}
    (ha : o.hall.add? n (o.newJob s environment n part) = some hall)
    (hd : (o.enlisted s environment n part).ids.Distinct) :
    Shown ⟨o.enlisted s environment n part, as,
      rs ++ [((o.newJob s environment n part).id, s)]⟩ dropped := by
  let j := o.newJob s environment n part
  obtain ⟨q, hq, hqueue⟩ := Orchestrator.queue_add (o := o.serve (.create s part j)) ha
  have hqueue (m : QueueName) : (o.enlisted s environment n part).queue m =
      if m = n then q else o.queue m := hqueue m
  have hperm : q.contents.Perm (j :: (o.queue n).contents) := JobQueue.contents_of_add? hq
  -- whoever was submitted before has another identifier
  have hfresh : j.id ∉ rs.map Prod.fst :=
    fun hid => IdSource.not_hasDrawn_draw hd (h.drawn _ hid)
  have hother : ∀ m, ∀ i ∈ (o.queue m).contents, i.id ≠ j.id :=
    fun m i hi he => hfresh (he ▸ h.mem_requests (h.mem_ids hi))
  refine h.record j rfl (.inr ⟨s, rfl, hfresh⟩)
    (fun u hu => Orchestrator.hasDrawn_serve hu (.create s part j))
    ⟨o.ids.drawn, Nat.lt_succ_self _, rfl⟩ ?_ (fun b hb => .inl ⟨hb, ?_⟩)
    (.inr (.inl ⟨n, ?_⟩)) ?_ (fun a ha _ => ha)
  · intro m i hi
    rw [hqueue] at hi
    split at hi
    · next hm =>
      subst hm
      exact (List.mem_cons.mp (hperm.mem_iff.mp hi)).imp_right fun hi => ⟨hi, hother m i hi⟩
    · exact .inr ⟨hi, hother m i hi⟩
  · exact fun he => hfresh (he ▸ h.mem_requests (h.mem_ids_of_working hb))
  · rw [hqueue, if_pos rfl]
    exact hperm.mem_iff.mpr List.mem_cons_self
  · intro m i hi _
    rw [hqueue]
    split
    · next hm =>
      subst hm
      exact hperm.mem_iff.mpr (List.mem_cons_of_mem _ hi)
    · exact hi

/-- To draw identifiers leaves queues and board alone. -/
theorem draw (h : Shown ⟨o, as, rs⟩ dropped) (c : Call)
    (hboard : (o.serve c).board = o.board) (hqueue : ∀ n, (o.serve c).queue n = o.queue n) :
    Shown ⟨o.serve c, as, rs⟩ dropped := by
  refine h.keep hboard rfl (fun u hu => Orchestrator.hasDrawn_serve hu c) ?_ h.working ?_
    (fun a ha => ⟨a, ha, rfl⟩)
  · exact fun n j hj => hqueue n ▸ hj
  · exact fun n j hj => .inl (hqueue n ▸ hj)

theorem submit (h : Shown ⟨o, as, rs⟩ dropped) (s : Submission)
    (hd : (o.submit s).1.ids.Distinct) :
    Shown ⟨(o.submit s).1, as, rs ++ o.requests s⟩ dropped :=
  submit_invariant (P := fun w => w.Shown dropped) s
    (fun h => h.draw (.accept s) rfl fun _ => rfl)
    (fun {_ _ part} j h => h.draw (.create s part j) rfl fun _ => rfl)
    (fun _ ha hd h => h.enlisted ha hd) h hd

/-! ## Operations of workers -/

theorem take (h : Shown ⟨o, l ++ r, rs⟩ dropped) {n : QueueName} {token : Nat} {j : Job}
    (ht : (o.hall.ask n token).2 = .job j) (hwaits : j.Waits n) :
    Shown ⟨{ o with hall := (o.hall.ask n token).1 }, l ++ .taken n j :: r, rs⟩ dropped := by
  have hmem (m : QueueName) (i : Job) (hi : i ∈ (o.queue m).contents) :
      i ∈ ((o.serve (.take n token j)).queue m).contents ∨ i = j := by
    by_cases hm : m = n
    · subst hm
      exact (List.mem_cons.mp ((Orchestrator.contents_take ht).1.mem_iff.mp hi)).symm
    · rw [o.queue_take, if_neg hm]
      exact .inl hi
  refine h.keep rfl rfl (fun _ hu => hu) ?_ ?_ ?_ ?_
  · intro m i hi
    exact ((Moves.take ht).mem_contents hi).resolve_left nofun
  · intro b hb
    rcases List.mem_append.mp hb with hb | hb
    · exact h.working b (List.mem_append_left _ hb)
    · rcases List.mem_cons.mp hb with rfl | hb
      · refine ⟨j, h.waiting n j (Orchestrator.mem_contents_of_take ht), hwaits.1.queue, ?_⟩
        rw [hwaits.2]
        rfl
      · exact h.working b (List.mem_append_right _ hb)
  · intro m i hi
    rcases hmem m i hi with hi | rfl
    · exact .inl hi
    · exact .inr ⟨.taken n i, by simp, rfl⟩
  · intro a ha
    refine ⟨a, ?_, rfl⟩
    rcases List.mem_append.mp ha with ha | ha
    · exact List.mem_append_left _ ha
    · exact List.mem_append_right _ (List.mem_cons_of_mem _ ha)

/-- The queues keep their jobs, the workers theirs, and the board stays as it is. -/
theorem same_jobs (h : Shown ⟨o, as, rs⟩ dropped) {o' : Orchestrator}
    (hboard : o'.board = o.board) (hids : o'.ids = o.ids)
    (hcontents : ∀ n, (o'.queue n).contents.Perm (o.queue n).contents) :
    Shown ⟨o', as, rs⟩ dropped :=
  h.keep hboard rfl (fun _ hu => hids ▸ hu) (fun n _ hj => (hcontents n).mem_iff.mp hj) h.working
    (fun n _ hj => .inl ((hcontents n).mem_iff.mpr hj)) (fun a ha => ⟨a, ha, rfl⟩)

theorem miss (h : Shown ⟨o, as, rs⟩ dropped) {n : QueueName} {token : Nat}
    (ht : ∀ j, (o.hall.ask n token).2 ≠ .job j) :
    Shown ⟨{ o with hall := (o.hall.ask n token).1 }, as, rs⟩ dropped := by
  refine h.same_jobs rfl rfl fun m => ?_
  by_cases hm : m = n
  · subst hm
    exact (Orchestrator.contents_ask ht).1
  · show ((o.serve (.ask n token)).queue m).contents.Perm _
    rw [o.queue_ask, if_neg hm]

/-- What a worker puts on the board is the job that only this worker has. -/
theorem worker {a : Assignment} (h : Shown ⟨o, l ++ a :: r, rs⟩ dropped) {o' : Orchestrator}
    {next : List Assignment} (halone : Absent o (l ++ r) a.job.id) (e : Job)
    (he : e.id = a.job.id) (hboard : o'.board = o.board.record e) (hids : o'.ids = o.ids)
    (hcontents : ∀ n, ∀ i ∈ (o'.queue n).contents, i = e ∨ i ∈ (o.queue n).contents)
    (hnext : ∀ b ∈ next, b.job.id = e.id ∧ e.queue = b.queue ∧ e.status.isTerminal = false)
    (hheld : e.status.isTerminal = true ∨ (∃ n, e ∈ (o'.queue n).contents) ∨
      ∃ b ∈ next, b.job.id = e.id)
    (hkept : ∀ n, ∀ i ∈ (o.queue n).contents, i ∈ (o'.queue n).contents) :
    Shown ⟨o', l ++ next ++ r, rs⟩ dropped := by
  have hmine : a.job.id ∈ o.board.ids := h.mem_ids_of_working (a := a) (by simp)
  refine h.record e hboard (.inl ⟨rfl, he ▸ hmine⟩) (fun u hu => hids ▸ hu) ?_ ?_ ?_ ?_
    (fun n i hi _ => hkept n i hi) ?_
  · rw [hids, he]
    exact h.drawn _ (h.mem_requests hmine)
  · exact fun n i hi => (hcontents n i hi).imp_right fun hi => ⟨hi, he ▸ halone.2 n i hi⟩
  · intro b hb
    simp only [List.mem_append] at hb
    rcases hb with (hb | hb) | hb
    · exact .inl ⟨by simp [hb], he ▸ halone.1 b (List.mem_append_left _ hb)⟩
    · exact .inr (hnext b hb)
    · exact .inl ⟨by simp [hb], he ▸ halone.1 b (List.mem_append_right _ hb)⟩
  · refine hheld.imp_right fun hh => hh.imp_right ?_
    rintro ⟨b, hb, hid⟩
    exact ⟨b, by simp [hb], hid⟩
  · intro b hb hne
    rcases List.mem_append.mp hb with hb | hb
    · simp [hb]
    · rcases List.mem_cons.mp hb with rfl | hb
      · exact absurd he.symm hne
      · simp [hb]

theorem start {n : QueueName} {j : Job} (h : Shown ⟨o, l ++ .taken n j :: r, rs⟩ dropped)
    (halone : Absent o (l ++ r) j.id) (hwaits : j.Waits n) :
    Shown ⟨(o.start j).1, l ++ .begun n (o.start j).2 :: r, rs⟩ dropped := by
  have hid : (o.start j).2.id = j.id := o.id_start j
  have hruns := o.runs_start hwaits
  have hworker : Shown ⟨(o.start j).1, l ++ [.begun n (o.start j).2] ++ r, rs⟩ dropped := by
    refine h.worker (a := .taken n j) halone (o.start j).2 hid rfl rfl (fun _ _ hi => .inr hi)
      (fun b hb => ?_) (.inr (.inr ⟨_, List.mem_singleton_self _, rfl⟩)) (fun _ _ hi => hi)
    rw [List.mem_singleton.mp hb]
    refine ⟨rfl, hruns.1.queue, ?_⟩
    rw [hruns.2]
    rfl
  rwa [List.append_assoc, List.singleton_append] at hworker

/-- A worker that puts nothing on the board goes on with its job. -/
theorem replace {a b : Assignment} (h : Shown ⟨o, l ++ a :: r, rs⟩ dropped) {o' : Orchestrator}
    (hboard : o'.board = o.board) (hids : o'.ids = o.ids) (hqueues : ∀ n, o'.queue n = o.queue n)
    (hid : b.job.id = a.job.id) (hqueue : b.queue = a.queue) :
    Shown ⟨o', l ++ b :: r, rs⟩ dropped := by
  refine h.keep hboard rfl (fun _ hu => hids ▸ hu) (fun n _ hj => hqueues n ▸ hj) ?_
    (fun n _ hj => .inl (hqueues n ▸ hj)) ?_
  · intro c hc
    rcases List.mem_append.mp hc with hc | hc
    · exact h.working c (by simp [hc])
    · rcases List.mem_cons.mp hc with rfl | hc
      · rw [hid, hqueue]
        exact h.working a (by simp)
      · exact h.working c (by simp [hc])
  · intro c hc
    rcases List.mem_append.mp hc with hc | hc
    · exact ⟨c, by simp [hc], rfl⟩
    · rcases List.mem_cons.mp hc with rfl | hc
      · exact ⟨b, by simp, hid⟩
      · exact ⟨c, by simp [hc], rfl⟩

theorem log {n : QueueName} {j : Job} (h : Shown ⟨o, l ++ .begun n j :: r, rs⟩ dropped)
    (line : String) :
    Shown ⟨(o.log j line).1, l ++ .begun n (o.log j line).2 :: r, rs⟩ dropped :=
  h.replace rfl rfl (fun _ => rfl) rfl rfl

/-- A job whose attempt breaks off is shown as it was. -/
theorem strand {n : QueueName} {j : Job} (h : Shown ⟨o, l ++ .begun n j :: r, rs⟩ dropped)
    {v : Verdict} (hs : o.strands j v = true) :
    Shown ⟨o.finish n j v, l ++ .stranded n (Orchestrator.judged j v) :: r, rs⟩ dropped := by
  obtain ⟨host, hhost⟩ := o.tidied_eq j
  rw [o.finish_of_strands hs, hhost]
  exact h.replace rfl rfl (fun _ => rfl) (Orchestrator.id_judged j v) rfl

/-- An attempt that ends hands its job over, to be shown as it waits, or ends it. -/
theorem finish {n : QueueName} {j : Job} (h : Shown ⟨o, l ++ .begun n j :: r, rs⟩ dropped)
    (halone : Absent o (l ++ r) j.id) (hrun : j.Runs n) {v : Verdict}
    (hs : o.strands j v = false) : Shown ⟨o.finish n j v, l ++ r, rs⟩ dropped := by
  obtain ⟨hids, -, e, hid, hboard⟩ := o.finish_leaves n hs
  have hshown : (o.finish n j v).board.get? j.id = some e := by
    rw [hboard, JobBoard.get?_record, if_pos hid.symm]
  have hnothing : ∀ b ∈ ([] : List Assignment),
      b.job.id = e.id ∧ e.queue = b.queue ∧ e.status.isTerminal = false :=
    fun _ hb => absurd hb List.not_mem_nil
  have hworker : Shown ⟨o.finish n j v, l ++ [] ++ r, rs⟩ dropped := by
    rcases o.finish_outcome hrun hs with ⟨p, -, -, hover⟩ | ⟨-, hend⟩
    · obtain ⟨healed, -, -, -, -, hget, hperm⟩ := hover.waits
      cases hshown.symm.trans hget
      refine h.worker (a := .begun n j) halone e hid hboard hids ?_ hnothing
        (.inr (.inl ⟨.healing, hperm.mem_iff.mpr List.mem_cons_self⟩)) ?_
      · intro m i hi
        by_cases hm : m = .healing
        · subst hm
          exact List.mem_cons.mp (hperm.mem_iff.mp hi)
        · exact .inr (hover.other_queues m hm ▸ hi)
      · intro m i hi
        by_cases hm : m = .healing
        · subst hm
          exact hperm.mem_iff.mpr (List.mem_cons_of_mem _ hi)
        · rw [hover.other_queues m hm]
          exact hi
    · obtain ⟨i, -, hended, -, hget, -⟩ := hend.ended
      cases hshown.symm.trans hget
      exact h.worker (a := .begun n j) halone e hid hboard hids
        (fun m i hi => .inr (hend.queues m ▸ hi)) hnothing (.inl hended.2)
        (fun m i hi => by rw [hend.queues m]; exact hi)
  rwa [List.append_nil] at hworker

/-! ## Standstill -/

/-- **Jobs that leave queues and board together.** -/
theorem lose (h : Shown ⟨o, as, rs⟩ dropped) (o' : Orchestrator) {gone : List JobId}
    (hl : o.Loses gone o')
    (hfree : ∀ a ∈ as, a.job.id ∉ gone) (hboard : o'.board = gone.foldl JobBoard.remove o.board) :
    Shown ⟨o', as, rs⟩ (dropped ++ gone) := by
  have hget (id : JobId) : o'.board.get? id = if id ∈ gone then none else o.board.get? id := by
    rw [hboard, JobBoard.get?_removeAll]
  exact {
    waiting := fun n j hj => by
      obtain ⟨hold, hstays⟩ := (hl.contents n j).mp hj
      exact (hget j.id).trans ((if_neg hstays).trans (h.waiting n j hold))
    working := fun a ha => by
      obtain ⟨j, hj, hrest⟩ := h.working a ha
      exact ⟨j, (hget _).trans ((if_neg (hfree a ha)).trans hj), hrest⟩
    held := fun id j hj => by
      rw [hget] at hj
      split at hj
      · cases hj
      · next hstays =>
        refine (h.held id j hj).imp_right fun hh => hh.imp_left ?_
        rintro ⟨n, hn⟩
        exact ⟨n, (hl.contents n j).mpr ⟨hn, by rwa [h.own id j hj]⟩⟩
    own := fun id j hj => by
      rw [hget] at hj
      split at hj
      · cases hj
      · exact h.own id j hj
    listed := by
      show o'.board.ids = _
      rw [hboard, JobBoard.ids_removeAll, h.listed, List.filter_filter]
      refine List.filter_congr fun id _ => ?_
      simp [Bool.and_comm]
    drawn := fun id hid => by
      show o'.ids.HasDrawn _
      rw [hl.ids]
      exact h.drawn id hid
    submitted := fun id hid => by
      rcases List.mem_append.mp hid with hid | hid
      · exact h.submitted id hid
      · obtain ⟨n, j, hj, rfl⟩ := hl.gone id hid
        exact h.mem_requests (h.mem_ids hj) }

/-- It does not matter in which order jobs were dropped. -/
theorem congr {w : Shift} {lost : List JobId} (h : w.Shown dropped)
    (hsame : ∀ id, id ∈ lost ↔ id ∈ dropped) : w.Shown lost where
  waiting := h.waiting
  working := h.working
  held := h.held
  own := h.own
  listed := by
    rw [h.listed]
    exact List.filter_congr fun id _ => by simp [hsame]
  drawn := h.drawn
  submitted id hid := h.submitted id ((hsame id).mp hid)

/-- **The jobs that a standstill drops leave queues and board together.** -/
theorem halt (h : Shown ⟨o, as, rs⟩ dropped)
    (hfree : ∀ a ∈ as, ∀ n, ∀ j ∈ (o.queue n).contents, j.id ≠ a.job.id) :
    Shown ⟨o.halt.1, as, rs⟩ (dropped ++ o.hall.halt.2) := by
  refine h.lose o.halt.1 o.loses_halt (fun a ha hid => ?_) rfl
  obtain ⟨n, j, hj, he⟩ := o.loses_halt.gone _ hid
  exact hfree a ha n j hj he

end Shown

end Shift

end Testplan
