import Testplan.Proofs.AttemptEnd
import Testplan.Proofs.JobStory
import Testplan.Proofs.PlanCustody
import Testplan.Proofs.Shift
/-!
# The life of a job

In every shift, what was told of a job is the beginning of a life
(`Testplan.Proofs.JobStory`), however the operations follow each other.  The invariant is
that every job that waits in a queue or is in the hands of a worker has the story of one
that stands there (`Shift.Told`).  An operation on one job tells nothing of the others,
and no job is in two places (`Shift.Reachable.alone`).

Together with how an attempt ends (`Testplan.Proofs.AttemptEnd`) this says what the life
of a job is (`Shift.Reachable.job_life`).
-/
namespace Testplan

/-- Where the job of an assignment stands. -/
def Assignment.standing : Assignment → Standing
  | taken n _ => .waiting n
  | begun n _ | stranded n _ => .running n

theorem Assignment.seat?_routine (a : Assignment) :
    a.routine.seat? = some (a.queue, a.job.id) := by
  cases a <;> rfl

/-- A job in the hands of a worker was told of. -/
theorem Assignment.standing_ne_unborn (a : Assignment) : a.standing ≠ .unborn := by
  cases a <;> exact nofun

namespace Shift

/-- All identifiers that were drawn differ from each other. -/
def Distinct (w : Shift) : Prop := w.orchestrator.ids.Distinct

theorem Step.distinct {v w : Shift} (h : Step v w) (hw : w.Distinct) : v.Distinct := by
  obtain ⟨cs, hcs⟩ := h.steps []
  exact hcs.distinct hw

theorem Step.hasDrawn {v w : Shift} (h : Step v w) {u : Uuid}
    (hu : v.orchestrator.ids.HasDrawn u) : w.orchestrator.ids.HasDrawn u := by
  obtain ⟨cs, hcs⟩ := h.steps []
  exact hcs.hasDrawn hu

/-- All jobs stand where they belong. -/
theorem Reachable.orderly {w : Shift} (h : Reachable w) :
    (∀ a ∈ w.assignments, a.routine.Proper) ∧
      ∀ n, ∀ j ∈ (w.orchestrator.queue n).contents, j.Waits n := by
  obtain ⟨calls, hc⟩ := h.interleaving
  refine ⟨?_, hc.orderly.contents⟩
  intro a ha
  exact hc.orderly.tasks a.routine (List.mem_map_of_mem ha)

/-- No queue and none of some assignments has a job. -/
def Absent (o : Orchestrator) (as : List Assignment) (id : JobId) : Prop :=
  (∀ a ∈ as, a.job.id ≠ id) ∧ ∀ n, ∀ j ∈ (o.queue n).contents, j.id ≠ id

/-- **The job of a worker is nowhere else.** -/
theorem Reachable.alone {o : Orchestrator} {l r : List Assignment} {a : Assignment}
    {rs : List (JobId × Submission)} (h : Reachable ⟨o, l ++ a :: r, rs⟩)
    (hd : o.ids.Distinct) : Absent o (l ++ r) a.job.id := by
  obtain ⟨calls, hc⟩ := h.interleaving
  have owns : ∀ b : Assignment, b.routine.owns b.job.id = true :=
    fun b => Routine.owns_iff.mpr ⟨b.job, b.owned?_routine, rfl⟩
  obtain ⟨htasks, hcontents, -⟩ := Interleaving.sole_owner (hc.custody_le_one hd a.job.id)
    (l := l.map Assignment.routine) (r := r.map Assignment.routine) (x := a.routine)
    (by simp [Shift.interleaving]) (owns a)
  refine ⟨?_, hcontents⟩
  intro b hb he
  have hmem : b.routine ∈ l.map Assignment.routine ++ r.map Assignment.routine := by
    rw [← List.map_append]
    exact List.mem_map_of_mem hb
  exact htasks b.routine hmem (he ▸ owns b)

/-- The job of a worker waits in no queue. -/
theorem Reachable.not_waiting {w : Shift} (h : Reachable w) (hd : w.Distinct) {a : Assignment}
    (ha : a ∈ w.assignments) :
    ∀ n, ∀ j ∈ (w.orchestrator.queue n).contents, j.id ≠ a.job.id := by
  obtain ⟨o, as, rs⟩ := w
  obtain ⟨l, r, rfl⟩ := List.append_of_mem ha
  exact (h.alone hd).2

/-- The queues are active with the jobs that workers took from them. -/
theorem Reachable.mem_active_iff {w : Shift} (h : w.Reachable) (hd : w.Distinct)
    {n : QueueName} {id : JobId} : id ∈ (w.orchestrator.queue n).active ↔
      ∃ a ∈ w.assignments, a.queue = n ∧ a.job.id = id := by
  obtain ⟨calls, hc⟩ := h.interleaving
  constructor
  · intro hid
    obtain ⟨t, ht, hseat⟩ := hc.attended n id hid
    obtain ⟨a, ha, rfl⟩ := List.mem_map.mp ht
    rw [a.seat?_routine] at hseat
    cases hseat
    exact ⟨a, ha, rfl, rfl⟩
  · rintro ⟨a, ha, rfl, rfl⟩
    exact hc.seated hd a.routine (List.mem_map_of_mem ha) _ _ a.seat?_routine

/-! ## Stories -/

/-- The story of the job is told up to where it stands, and it was made for a submission
that knows as much about the application. -/
structure Tells (w : Shift) (j : Job) (s : Standing) : Prop where
  story : Story s (w.orchestrator.history j.id)
  request : ∃ r, (j.id, r) ∈ w.requests ∧ j.discovery = r.discovery

/-- **Every job has the story of one that stands where it stands.** -/
structure Told (w : Shift) : Prop where
  contents : ∀ n, ∀ j ∈ (w.orchestrator.queue n).contents, w.Tells j (.waiting n)
  assignments : ∀ a ∈ w.assignments, w.Tells a.job a.standing
  stories : ∀ id, ∃ s, Story s (w.orchestrator.history id)
  /-- Nothing is told of a job that was not made. -/
  fresh : ∀ id, ¬ w.orchestrator.ids.HasDrawn id.uuid → w.orchestrator.history id = []
  requests : ∀ r ∈ w.requests, w.orchestrator.history r.1 ≠ []
  /-- A job was made for one submission. -/
  unique : ∀ id r r', (id, r) ∈ w.requests → (id, r') ∈ w.requests → r = r'

theorem Tells.mono {v w : Shift} {j : Job} {s : Standing} (h : v.Tells j s)
    (hh : w.orchestrator.history j.id = v.orchestrator.history j.id)
    (hr : ∀ r ∈ v.requests, r ∈ w.requests) : w.Tells j s := by
  obtain ⟨hstory, r, hmem, hd⟩ := h
  exact ⟨hh ▸ hstory, r, hr _ hmem, hd⟩

/-- An operation that tells nothing keeps the stories, if it takes no job to a place where
it does not stand. -/
theorem Told.keep {v w : Shift} (h : v.Told)
    (hevents : w.orchestrator.events = v.orchestrator.events)
    (hids : ∀ u, v.orchestrator.ids.HasDrawn u → w.orchestrator.ids.HasDrawn u)
    (hrequests : w.requests = v.requests)
    (hcontents : ∀ n, ∀ j ∈ (w.orchestrator.queue n).contents, v.Tells j (.waiting n))
    (hassignments : ∀ a ∈ w.assignments, v.Tells a.job a.standing) : w.Told := by
  have told := Orchestrator.history_congr hevents
  have same : ∀ r ∈ v.requests, r ∈ w.requests := fun r hr => hrequests ▸ hr
  exact {
    contents := fun n j hj => (hcontents n j hj).mono (told _) same
    assignments := fun a ha => (hassignments a ha).mono (told _) same
    stories := fun id => by
      rw [told]
      exact h.stories id
    fresh := fun id hid => by
      rw [told]
      exact h.fresh id fun hu => hid (hids _ hu)
    requests := fun r hr => by
      rw [told]
      exact h.requests r (hrequests ▸ hr)
    unique := by
      rw [hrequests]
      exact h.unique }

/-- A job that has no request yet gets only one. -/
theorem unique_append {rs : List (JobId × Submission)} {id : JobId} {s : Submission}
    (h : ∀ i r r', (i, r) ∈ rs → (i, r') ∈ rs → r = r') (hnone : ∀ r, (id, r) ∉ rs) :
    ∀ i r r', (i, r) ∈ rs ++ [(id, s)] → (i, r') ∈ rs ++ [(id, s)] → r = r' := by
  intro i r r' hr hr'
  rcases List.mem_append.mp hr with hold | hlast
  · rcases List.mem_append.mp hr' with hold' | hlast'
    · exact h i r r' hold hold'
    · obtain ⟨rfl, -⟩ := Prod.mk.inj (List.mem_singleton.mp hlast')
      exact absurd hold (hnone r)
  · obtain ⟨rfl, rfl⟩ := Prod.mk.inj (List.mem_singleton.mp hlast)
    rcases List.mem_append.mp hr' with hold' | hlast'
    · exact absurd hold' (hnone r')
    · exact (Prod.mk.inj (List.mem_singleton.mp hlast')).2.symm

/-- **An operation that tells something of one job** keeps the stories of the others; it may
make the job. -/
theorem Told.advance {v w : Shift} (h : v.Told) (id : JobId)
    (hids : ∀ u, v.orchestrator.ids.HasDrawn u → w.orchestrator.ids.HasDrawn u)
    (hdrawn : w.orchestrator.ids.HasDrawn id.uuid)
    (hothers : ∀ i, i ≠ id → w.orchestrator.history i = v.orchestrator.history i)
    (hstory : ∃ s, Story s (w.orchestrator.history id)) (htold : w.orchestrator.history id ≠ [])
    (hrequests : w.requests = v.requests ∨
      ∃ r, w.requests = v.requests ++ [(id, r)] ∧ v.orchestrator.history id = [])
    (hcontents : ∀ n, ∀ j ∈ (w.orchestrator.queue n).contents,
      (j ∈ (v.orchestrator.queue n).contents ∧ j.id ≠ id) ∨ w.Tells j (.waiting n))
    (hassignments : ∀ a ∈ w.assignments,
      (a ∈ v.assignments ∧ a.job.id ≠ id) ∨ w.Tells a.job a.standing) : w.Told := by
  have more : ∀ r ∈ v.requests, r ∈ w.requests := by
    intro r hr
    rcases hrequests with he | ⟨s, he, -⟩
    · exact he ▸ hr
    · rw [he]
      exact List.mem_append_left _ hr
  refine {
    contents := fun n j hj => ?contents
    assignments := fun a ha => ?assignments
    stories := fun i => ?stories
    fresh := fun i hi => ?fresh
    requests := fun r hr => ?requests
    unique := ?unique }
  case contents =>
    rcases hcontents n j hj with ⟨hold, hne⟩ | hnew
    · exact (h.contents n j hold).mono (hothers _ hne) more
    · exact hnew
  case assignments =>
    rcases hassignments a ha with ⟨hold, hne⟩ | hnew
    · exact (h.assignments a hold).mono (hothers _ hne) more
    · exact hnew
  case stories =>
    by_cases hi : i = id
    · exact hi ▸ hstory
    · rw [hothers i hi]
      exact h.stories i
  case fresh =>
    by_cases he : i = id
    · exact absurd (he ▸ hdrawn) hi
    · rw [hothers i he]
      exact h.fresh i fun hu => hi (hids _ hu)
  case requests =>
    by_cases he : r.1 = id
    · exact he ▸ htold
    · rw [hothers _ he]
      rcases hrequests with hsame | ⟨s, hmore, -⟩
      · exact h.requests r (hsame ▸ hr)
      · rw [hmore] at hr
        rcases List.mem_append.mp hr with hold | hnew
        · exact h.requests r hold
        · rw [List.mem_singleton.mp hnew] at he
          exact absurd rfl he
  case unique =>
    rcases hrequests with hsame | ⟨s, hmore, hnone⟩
    · rw [hsame]
      exact h.unique
    · rw [hmore]
      -- something was told of every job with a request, and nothing of the one that is made
      exact unique_append h.unique fun r hr => h.requests _ hr hnone

/-! ## Submissions -/

section

variable {P : Shift → Prop} {as : List Assignment} (s : Submission)
  (accept : ∀ {o rs}, P ⟨o, as, rs⟩ → P ⟨o.serve (.accept s), as, rs⟩)
  (refuse : ∀ {o rs part} (j : Job), P ⟨o, as, rs⟩ → P ⟨o.serve (.create s part j), as, rs⟩)
  (enlist : ∀ {o rs environment n part hall}, n ≠ .healing →
    o.hall.add? n (o.newJob s environment n part) = some hall →
    (o.enlisted s environment n part).ids.Distinct → P ⟨o, as, rs⟩ →
    P ⟨o.enlisted s environment n part, as,
      rs ++ [((o.newJob s environment n part).id, s)]⟩)

include refuse enlist

/-- The parts of a plan are put into their queues one after the other, as long as these take
them; each event is of a job that was made for the submission. -/
theorem enqueueAll_invariant (environment : Environment) :
    ∀ (parts : List (QueueName × Plan)) {o : Orchestrator} {rs : List (JobId × Submission)},
      P ⟨o, as, rs⟩ → (∀ p ∈ parts, p.1 ≠ .healing) →
      (o.enqueueAll s environment parts).1.ids.Distinct →
      ∃ news, (o.enqueueAll s environment parts).1.events = o.events ++ news ∧
        P ⟨(o.enqueueAll s environment parts).1, as, rs ++ news.map fun e => (e.1, s)⟩ := by
  intro parts
  induction parts with
  | nil =>
    intro o rs h _ _
    refine ⟨[], (List.append_nil _).symm, ?_⟩
    rw [List.map_nil, List.append_nil]
    exact h
  | cons first rest ih =>
    obtain ⟨n, part⟩ := first
    intro o rs h hparts hd
    unfold Orchestrator.enqueueAll at hd ⊢
    cases ha : o.hall.add? n (o.newJob s environment n part) with
    | none =>
      rw [Orchestrator.enqueue_of_refused ha]
      refine ⟨[], (List.append_nil _).symm, ?_⟩
      rw [List.map_nil, List.append_nil]
      exact refuse (o.newJob s environment n part) h
    | some hall =>
      rw [Orchestrator.enqueue_of_added ha] at hd ⊢
      obtain ⟨cs, hcs⟩ := (o.enlisted s environment n part).performs_enqueueAll s environment rest
      have hfirst := enlist (hparts _ List.mem_cons_self) ha ((hcs.steps [] [] []).distinct hd) h
      obtain ⟨news, hevents, hrest⟩ :=
        ih hfirst (fun p hp => hparts p (List.mem_cons_of_mem _ hp)) hd
      refine ⟨((o.newJob s environment n part).id, .queued n 0) :: news, ?_, ?_⟩
      · refine hevents.trans ?_
        exact List.append_assoc o.events [_] news
      · rw [List.map_cons, List.append_cons]
        exact hrest

include accept

/-- **What a submission keeps.**  It draws identifiers, and makes its jobs one after the
other, as long as their queues take them; nothing is told of a job that is refused. -/
theorem submit_invariant {o : Orchestrator} {rs : List (JobId × Submission)} (h : P ⟨o, as, rs⟩)
    (hd : (o.submit s).1.ids.Distinct) : P ⟨(o.submit s).1, as, rs ++ o.requests s⟩ := by
  -- a submission that is not accepted changes nothing
  have refused : (o.submit s).1 = o → P ⟨(o.submit s).1, as, rs ++ o.requests s⟩ := by
    intro he
    rw [Orchestrator.requests, he, List.drop_length, List.map_nil, List.append_nil]
    exact h
  cases ha : o.adapters.find s.framework with
  | error e =>
    refine refused ?_
    unfold Orchestrator.submit
    rw [ha]
  | ok a =>
    cases he : s.environment.resolve o.host.process with
    | error e =>
      refine refused ?_
      unfold Orchestrator.submit
      rw [ha, he]
    | ok environment =>
      have hsubmit : (o.submit s).1 =
          ((o.partsOf s.plan).1.enqueueAll s environment (o.partsOf s.plan).2).1 := by
        unfold Orchestrator.submit
        rw [ha, he]
      have haccepted : P ⟨(o.partsOf s.plan).1, as, rs⟩ := accept h
      obtain ⟨news, hevents, hall⟩ := enqueueAll_invariant s refuse enlist environment
        (o.partsOf s.plan).2 haccepted (o.partsOf_ne_healing s.plan) (hsubmit ▸ hd)
      have hrequests : o.requests s = news.map fun e => (e.1, s) := by
        rw [Orchestrator.requests, hsubmit, hevents]
        show ((o.events ++ news).drop o.events.length).map _ = _
        rw [List.drop_left]
      rw [hrequests, hsubmit]
      exact hall

end

/-- A job that is made and queued has its story. -/
theorem Told.enlisted {o : Orchestrator} {as : List Assignment} {rs : List (JobId × Submission)}
    (h : Told ⟨o, as, rs⟩) {s : Submission} {environment : Environment} {n : QueueName}
    {part : Plan} {hall : QueueHall} (hn : n ≠ .healing)
    (ha : o.hall.add? n (o.newJob s environment n part) = some hall)
    (hd : (o.enlisted s environment n part).ids.Distinct) :
    Told ⟨o.enlisted s environment n part, as,
      rs ++ [((o.newJob s environment n part).id, s)]⟩ := by
  let j := o.newJob s environment n part
  have hfresh : ¬ o.ids.HasDrawn j.id.uuid := IdSource.not_hasDrawn_draw hd
  have hnone : o.history j.id = [] := h.fresh j.id hfresh
  have hstory : (o.enlisted s environment n part).history j.id = [.queued n 0] :=
    (Orchestrator.history_report_self _ j.id _).trans (congrArg (· ++ _) hnone)
  -- jobs that are somewhere were made, so they are other jobs
  have hother : ∀ {i : Job} {t : Standing}, Tells ⟨o, as, rs⟩ i t → t ≠ .unborn → i.id ≠ j.id := by
    intro i t hi ht he
    have := hi.story.ne_nil ht
    rw [he] at this
    exact this hnone
  obtain ⟨q, hq, hqueue⟩ := Orchestrator.queue_add (o := o.serve (.create s part j)) ha
  have hwaits : Story (.waiting n) ((o.enlisted s environment n part).history j.id) := by
    rw [hstory]
    exact .waiting hn
  refine h.advance j.id ?_ ⟨o.ids.drawn, Nat.lt_succ_self _, rfl⟩ ?_ ⟨_, hwaits⟩
    (hwaits.ne_nil nofun) (.inr ⟨s, rfl, hnone⟩) ?_ ?_
  · intro u hu
    exact Orchestrator.hasDrawn_serve hu (.create s part j)
  · intro i hi
    exact Orchestrator.history_report_of_ne _ _ hi
  · intro m i hi
    have hold : i ∈ (o.queue m).contents → i ∈ (o.queue m).contents ∧ i.id ≠ j.id :=
      fun hi => ⟨hi, hother (h.contents m i hi) nofun⟩
    rw [show (o.enlisted s environment n part).queue m = _ from hqueue m] at hi
    split at hi
    · next hm =>
      subst hm
      rcases List.mem_cons.mp ((JobQueue.contents_of_add? hq).mem_iff.mp hi) with rfl | hi
      · exact .inr ⟨hwaits, s, by simp, rfl⟩
      · exact .inl (hold hi)
    · exact .inl (hold hi)
  · intro a ha
    exact .inl ⟨ha, hother (h.assignments a ha) a.standing_ne_unborn⟩

theorem Told.submit {o : Orchestrator} {as : List Assignment} {rs : List (JobId × Submission)}
    (h : Told ⟨o, as, rs⟩) (s : Submission) (hd : (o.submit s).1.ids.Distinct) :
    Told ⟨(o.submit s).1, as, rs ++ o.requests s⟩ := by
  refine submit_invariant s ?_ ?_ (fun hn ha hd h => h.enlisted hn ha hd) h hd
  · intro o rs h
    exact h.keep rfl (fun u hu => Orchestrator.hasDrawn_serve hu (.accept s)) rfl h.contents
      h.assignments
  · intro o rs part j h
    exact h.keep rfl (fun u hu => Orchestrator.hasDrawn_serve hu (.create s part j)) rfl
      h.contents h.assignments

/-! ## Operations of workers -/

/-- An operation of a worker tells of the job of the worker, which is nowhere else. -/
theorem Told.worker {o o' : Orchestrator} {l r : List Assignment} {a : Assignment}
    {next : List Assignment} {rs : List (JobId × Submission)} (h : Told ⟨o, l ++ a :: r, rs⟩)
    (halone : Absent o (l ++ r) a.job.id)
    (hids : ∀ u, o.ids.HasDrawn u → o'.ids.HasDrawn u)
    (hothers : ∀ i, i ≠ a.job.id → o'.history i = o.history i)
    {s : Standing} (hstory : Story s (o'.history a.job.id)) (hs : s ≠ .unborn)
    (hcontents : ∀ n, ∀ j ∈ (o'.queue n).contents,
      j ∈ (o.queue n).contents ∨ Tells ⟨o', l ++ next ++ r, rs⟩ j (.waiting n))
    (hnext : ∀ b ∈ next, Tells ⟨o', l ++ next ++ r, rs⟩ b.job b.standing) :
    Told ⟨o', l ++ next ++ r, rs⟩ := by
  -- of a job that was not made nothing would be told
  have hdrawn : o.ids.HasDrawn a.job.id.uuid := by
    refine Classical.byContradiction fun hnot => ?_
    exact (h.assignments a (by simp)).story.ne_nil a.standing_ne_unborn (h.fresh _ hnot)
  refine h.advance a.job.id hids (hids _ hdrawn) hothers ⟨s, hstory⟩ (hstory.ne_nil hs) (.inl rfl)
    ?_ ?_
  · intro n j hj
    exact (hcontents n j hj).imp_left fun hold => ⟨hold, halone.2 n j hold⟩
  · intro b hb
    simp only [List.mem_append] at hb
    rcases hb with (hb | hb) | hb
    · exact .inl ⟨by simp [hb], halone.1 b (List.mem_append_left _ hb)⟩
    · exact .inr (hnext b hb)
    · exact .inl ⟨by simp [hb], halone.1 b (List.mem_append_right _ hb)⟩

/-- A worker tells one thing of its job and goes on with it. -/
theorem Told.replace {o o' : Orchestrator} {l r : List Assignment} {a b : Assignment}
    {rs : List (JobId × Submission)} (h : Told ⟨o, l ++ a :: r, rs⟩)
    (halone : Absent o (l ++ r) a.job.id)
    (hids : ∀ u, o.ids.HasDrawn u → o'.ids.HasDrawn u) {e : JobEvent}
    (hevents : o'.events = (o.report a.job.id e).events) (hhall : o'.hall = o.hall)
    (hid : b.job.id = a.job.id) (hd : b.job.discovery = a.job.discovery)
    (hstory : Story b.standing (o.history a.job.id ++ [e])) : Told ⟨o', l ++ b :: r, rs⟩ := by
  have told := Orchestrator.history_congr hevents
  have mine : o'.history a.job.id = o.history a.job.id ++ [e] :=
    (told _).trans (o.history_report_self _ e)
  obtain ⟨req, hreq, hdisc⟩ := (h.assignments a (by simp)).request
  have hb : Tells ⟨o', l ++ [b] ++ r, rs⟩ b.job b.standing := by
    refine ⟨?_, req, hid ▸ hreq, hd.trans hdisc⟩
    show Story b.standing (o'.history b.job.id)
    rw [hid, mine]
    exact hstory
  have hworker : Told ⟨o', l ++ [b] ++ r, rs⟩ := by
    refine h.worker halone hids ?_ (mine ▸ hstory) b.standing_ne_unborn ?_ ?_
    · intro i hi
      rw [told, Orchestrator.history_report_of_ne _ _ hi]
    · intro n j hj
      refine .inl ?_
      rwa [Orchestrator.queue, hhall] at hj
    · intro c hc
      rw [List.mem_singleton.mp hc]
      exact hb
  rwa [List.append_assoc, List.singleton_append] at hworker

/-- An attempt that ends gives the job to the queue for healing or ends it. -/
theorem Told.finish {o : Orchestrator} {l r : List Assignment} {n : QueueName} {j : Job}
    {rs : List (JobId × Submission)} (h : Told ⟨o, l ++ .begun n j :: r, rs⟩)
    (halone : Absent o (l ++ r) j.id) (hrun : j.Runs n) {v : Verdict}
    (hs : o.strands j v = false)
    (hids : ∀ u, o.ids.HasDrawn u → (o.finish n j v).ids.HasDrawn u) :
    Told ⟨o.finish n j v, l ++ r, rs⟩ := by
  obtain ⟨hstory, req, hreq, hdisc⟩ := h.assignments (.begun n j) (by simp)
  have hstory : Story (.running n) (o.history j.id) := hstory
  have hnothing : ∀ b ∈ ([] : List Assignment),
      Tells ⟨o.finish n j v, l ++ [] ++ r, rs⟩ b.job b.standing :=
    fun _ hb => absurd hb List.not_mem_nil
  have hworker : Told ⟨o.finish n j v, l ++ [] ++ r, rs⟩ := by
    rcases o.finish_outcome hrun hs with ⟨p, ⟨f, d, q, -, -, ha, -⟩, -, hover⟩ | ⟨-, hend⟩
    · have hn : n ≠ .healing := by
        rw [← QueueName.attempt_eq_zero_iff, ← hrun.1.attempt]
        exact ha
      have hmine : Story (.waiting .healing) ((o.finish n j v).history j.id) := by
        rw [hover.told]
        exact hstory.heal hn p.plan.ref p.changes
      refine h.worker halone hids hover.other_jobs hmine nofun ?_ hnothing
      intro m i hi
      by_cases hm : m = .healing
      · subst hm
        obtain ⟨healed, hid, -, -, hhd, -, hperm⟩ := hover.waits
        rcases List.mem_cons.mp (hperm.mem_iff.mp hi) with rfl | hold
        · exact .inr ⟨by rw [hid]; exact hmine, req, hid ▸ hreq, hhd.trans hdisc⟩
        · exact .inl hold
      · rw [hover.other_queues m hm] at hi
        exact .inl hi
    · obtain ⟨e, hid, hended, htold, -⟩ := hend.ended
      have hmine : Story .ended ((o.finish n j v).history j.id) := by
        rw [htold]
        exact .ended (hstory.finish hended.2)
      refine h.worker halone hids hend.other_jobs hmine nofun ?_ hnothing
      intro m i hi
      rw [hend.queues m] at hi
      exact .inl hi
  rwa [List.append_nil] at hworker

/-- Nothing is told of an attempt that breaks off, and its job goes on running. -/
theorem Told.strand {o : Orchestrator} {l r : List Assignment} {n : QueueName} {j : Job}
    {rs : List (JobId × Submission)} (h : Told ⟨o, l ++ .begun n j :: r, rs⟩) (hrun : j.Runs n)
    {v : Verdict} (hs : o.strands j v = true) :
    Told ⟨o.finish n j v, l ++ .stranded n (Orchestrator.judged j v) :: r, rs⟩ := by
  obtain ⟨hstory, req, hreq, hdisc⟩ := h.assignments (.begun n j) (by simp)
  obtain ⟨host, hhost⟩ := o.tidied_eq j
  have hid : (Orchestrator.judged j v).id = j.id := Orchestrator.id_judged j v
  rw [o.finish_of_strands hs, hhost]
  refine h.keep rfl (fun _ hu => hu) rfl h.contents fun a ha => ?_
  rcases List.mem_append.mp ha with ha | ha
  · exact h.assignments a (List.mem_append_left _ ha)
  · rcases List.mem_cons.mp ha with rfl | ha
    · refine ⟨?_, req, ?_, ?_⟩
      · show Story (.running n) (o.history (Orchestrator.judged j v).id)
        rw [hid]
        exact hstory
      · show ((Orchestrator.judged j v).id, req) ∈ rs
        rw [hid]
        exact hreq
      · show (Orchestrator.judged j v).discovery = req.discovery
        rw [Orchestrator.judged_eq hrun.2]
        exact hdisc
    · exact h.assignments a (List.mem_append_right _ (List.mem_cons_of_mem _ ha))

/-- What no worker does keeps the stories, if it tells nothing and adds no job to a
queue. -/
theorem Told.serve {o : Orchestrator} {as : List Assignment} {rs : List (JobId × Submission)}
    {c : Call} (h : Told ⟨o, as, rs⟩) (hm : Moves o none c none)
    (he : (o.serve c).events = o.events) (hc : ∀ m, c.joined m = []) :
    Told ⟨o.serve c, as, rs⟩ := by
  refine h.keep he (fun u hu => Orchestrator.hasDrawn_serve hu c) rfl ?_ h.assignments
  intro m j hj
  rcases hm.mem_contents hj with hadd | hold
  · have := Call.mem_joined_iff.mpr hadd
    rw [hc m] at this
    cases this
  · exact h.contents m j hold

/-- Every operation keeps the stories. -/
theorem Told.step {v w : Shift} (h : v.Told) (hv : v.Reachable) (hw : w.Distinct)
    (hs : Step v w) : w.Told := by
  have hd := hs.distinct hw
  have hids : ∀ u, v.orchestrator.ids.HasDrawn u → w.orchestrator.ids.HasDrawn u :=
    fun u hu => hs.hasDrawn hu
  obtain ⟨hproper, hwaits⟩ := hv.orderly
  cases hs with
  | submit s => exact h.submit s hw
  | @take o l r rs n token j ht =>
    have hj := h.contents n j (Orchestrator.mem_contents_of_take ht)
    refine h.keep rfl hids rfl ?_ ?_
    · intro m i hi
      rcases (Moves.take ht).mem_contents hi with hadd | hold
      · cases hadd
      · exact h.contents m i hold
    · intro a ha
      rcases List.mem_append.mp ha with ha | ha
      · exact h.assignments a (List.mem_append_left _ ha)
      · rcases List.mem_cons.mp ha with rfl | ha
        · exact hj
        · exact h.assignments a (List.mem_append_right _ ha)
  | miss ht => exact h.serve (.miss ht) rfl fun _ => rfl
  | @start o l r rs n j =>
    have hrun : (o.start j).2.Runs n := o.runs_start (hproper (.taken n j) (by simp))
    have hstory : Story (.waiting n) (o.history j.id) :=
      (h.assignments (.taken n j) (by simp)).story
    have hevents : (o.start j).1.events = (o.report j.id (.started n n.attempt)).events := by
      show o.events ++ [((o.start j).2.id, .started (o.start j).2.queue (o.start j).2.attempt)] = _
      rw [hrun.1.queue, hrun.1.attempt, o.id_start]
      rfl
    have hdisc : (o.start j).2.discovery = j.discovery := by
      rw [o.start_eq j (hproper (.taken n j) (by simp)).2]
    exact h.replace (hv.alone hd) hids hevents rfl (o.id_start j) hdisc hstory.start
  | @log o l r rs n j line =>
    have hstory : Story (.running n) (o.history j.id) :=
      (h.assignments (.begun n j) (by simp)).story
    exact h.replace (hv.alone hd) hids rfl rfl rfl rfl (hstory.log line)
  | @finish o l r rs n j v hs =>
    exact h.finish (hv.alone hd) (hproper (.begun n j) (by simp)) hs hids
  | @strand o l r rs n j v hs => exact h.strand (hproper (.begun n j) (by simp)) hs
  | administer n a =>
    exact h.serve (.administer : Moves _ none (.administer n a) none) rfl fun _ => rfl
  | remove id => exact h.serve (.remove : Moves _ none (.remove id) none) rfl fun _ => rfl
  | surroundings host hall =>
    exact h.serve (.surroundings : Moves _ none (.surroundings host hall) none) rfl fun _ => rfl

theorem Reachable.told {w : Shift} (h : Reachable w) (hd : w.Distinct) : w.Told := by
  induction h with
  | first config adapters host ids =>
    refine ⟨?_, ?_, fun id => ⟨_, .unborn⟩, fun _ _ => rfl, ?_, ?_⟩
    · intro n j hj
      cases n <;> cases hj
    · exact fun a ha => absurd ha List.not_mem_nil
    · exact fun r hr => absurd hr List.not_mem_nil
    · exact fun id r r' hr => absurd hr List.not_mem_nil
  | step hv hs ih => exact (ih (hs.distinct hd)).step hv hd hs

/-! ## What the life of a job is -/

/-- An attempt breaks off only if its plan has the last version that there is. -/
theorem Reachable.version_of_strands {w : Shift} (h : Reachable w) {n : QueueName} {j : Job}
    (hj : j.Runs n) {v : Verdict} (hs : w.orchestrator.strands j v = true) :
    j.plan.version.toNat + 1 = UInt32.size := by
  obtain ⟨calls, hc⟩ := h.interleaving
  obtain ⟨f, d, p, -, -, -, -, hp, hover⟩ := (w.orchestrator.strands_iff_overflow hj v).mp hs
  have href : p.ref = j.plan := hc.ref_of_get?_plans hp
  rw [← href]
  exact Plan.version_of_overflow hover

/-- The attempts that broke off were at plans in the last version that there is. -/
theorem Reachable.version_of_stranded {w : Shift} (h : Reachable w) {n : QueueName} {j : Job}
    (hj : .stranded n j ∈ w.assignments) : j.plan.version.toNat + 1 = UInt32.size := by
  induction h with
  | first => cases hj
  | step hv hs ih =>
    cases hs with
    | @strand o l r rs m i v hs =>
      simp only [List.mem_append, List.mem_cons] at hj
      rcases hj with hj | hj | hj
      · exact ih (by simp [hj])
      · cases hj
        have hrun : i.Runs n := hv.orderly.1 (.begun n i) (by simp)
        have hplan : (Orchestrator.judged i v).plan = i.plan := by
          rw [Orchestrator.judged_eq hrun.2]
        rw [hplan]
        exact hv.version_of_strands hrun hs
      · exact ih (by simp [hj])
    | take | start | log | finish => exact ih (by simpa using hj)
    | submit | miss | administer | remove | surroundings => exact ih hj

/-- **The life of a job.**  Whatever happens in a shift, what was told of a job is the
beginning of a life: it started at most twice, was healed at most once and ended at most
once.  A job that runs was made for one submission.  When its tests end, with whatever
verdict, it is handed over for healing if its first attempt failed for want of an
element, the submission says what is known about the application, its plan is corrected,
and the queue for healing takes it; otherwise it has ended.  Only an attempt at a plan in the
last version that there is may break off instead. -/
theorem Reachable.job_life {w : Shift} (h : Reachable w) (hd : w.Distinct) :
    (∀ id, (∃ life, JobLife life ∧ w.orchestrator.history id <+: life) ∧
      (w.orchestrator.history id).countP JobEvent.isStart ≤ 2 ∧
      (w.orchestrator.history id).countP JobEvent.isHealing ≤ 1 ∧
      (w.orchestrator.history id).countP JobEvent.isFinish ≤ 1) ∧
    ∀ n j, .begun n j ∈ w.assignments →
      ∃ s, (∀ s', (j.id, s') ∈ w.requests ↔ s' = s) ∧ ∀ v,
        (∃ p, w.orchestrator.HealsTo s.discovery j v p ∧
          (w.orchestrator.queue .healing).closed = false ∧
          HandedOver w.orchestrator n j p (w.orchestrator.finish n j v)) ∨
        ((¬ ∃ p, w.orchestrator.HealsTo s.discovery j v p ∧
          (w.orchestrator.queue .healing).closed = false) ∧
          Concluded w.orchestrator n j (w.orchestrator.finish n j v)) ∨
        (w.orchestrator.strands j v = true ∧ j.plan.version.toNat + 1 = UInt32.size) := by
  have htold := h.told hd
  refine ⟨?_, ?_⟩
  · intro id
    obtain ⟨s, hs⟩ := htold.stories id
    obtain ⟨life, hlife, hprefix⟩ := hs.exists_life
    obtain ⟨hstart, hhealing, hfinish⟩ := hlife.countP_le
    -- what was told so far is told in the life as well
    have le : ∀ p : JobEvent → Bool, (w.orchestrator.history id).countP p ≤ life.countP p :=
      fun p => hprefix.sublist.countP_le
    exact ⟨⟨life, hlife, hprefix⟩, Nat.le_trans (le _) hstart, Nat.le_trans (le _) hhealing,
      Nat.le_trans (le _) hfinish⟩
  · intro n j hj
    obtain ⟨-, s, hs, hdisc⟩ := htold.assignments _ hj
    have hdisc : j.discovery = s.discovery := hdisc
    refine ⟨s, ?_, ?_⟩
    · intro s'
      constructor
      · exact fun hs' => htold.unique _ _ _ hs' hs
      · rintro rfl
        exact hs
    · intro v
      have hrun : j.Runs n := h.orderly.1 _ hj
      rw [← hdisc]
      cases hs : w.orchestrator.strands j v with
      | true => exact .inr (.inr ⟨rfl, h.version_of_strands hrun hs⟩)
      | false => exact (w.orchestrator.finish_outcome hrun hs).imp_right .inl

end Shift

namespace Sample

/-- The request of a submission was accepted. -/
def accepted : Shift :=
  ⟨(start.orchestrator.submit (submission .statement "email")).1, [],
    start.orchestrator.requests (submission .statement "email")⟩

/-- The job of the submission. -/
def acceptedJob : Job :=
  (start.orchestrator.partsOf (plan .statement "label=Email")).1.newJob
    (submission .statement "email") {} .run (plan .statement "label=Email")

/-- A worker has taken the job. -/
def occupied : Orchestrator :=
  { accepted.orchestrator with hall := (accepted.orchestrator.hall.ask .run 0).1 }

/-- The tests of the job run. -/
def underway : Shift :=
  ⟨(occupied.start acceptedJob).1, [.begun .run (occupied.start acceptedJob).2],
    accepted.requests⟩

/-- The job that was handed out, if any. -/
def handedOut? : Taking → Option Job
  | .job j => some j
  | _ => none

theorem reachable_underway : underway.Reachable := by
  have hjob : handedOut? (accepted.orchestrator.hall.ask .run 0).2 = some acceptedJob := by
    decide +kernel
  have ht : (accepted.orchestrator.hall.ask .run 0).2 = .job acceptedJob := by
    unfold handedOut? at hjob
    split at hjob
    · next j hj => rw [hj, Option.some.inj hjob]
    · cases hjob
  have haccepted : accepted.Reachable := .step (.first ..) (.submit (submission .statement "email"))
  exact .step (.step haccepted (.take (l := []) (r := []) ht)) (.start (l := []) (r := []))

theorem distinct_underway : underway.Distinct := by
  obtain ⟨cs, hcs⟩ := start.orchestrator.performs_submit (submission .statement "email")
  exact distinct_uuid (hcs.steps [] [] []).name_eq (by decide +kernel)

/-- The failure of the job that runs can be healed. -/
theorem healsTo_underway : ∃ p, underway.orchestrator.HealsTo (some (discovery "email"))
    (occupied.start acceptedJob).2 notFound p := by
  have hheal : (plan .statement "label=Email").heal (discovery "email") "getByLabel('Email')" =
      .ok ⟨correction "email", [⟨"fill", 0, "label=Email", "name=email"⟩]⟩ := by decide +kernel
  refine ⟨_, _, discovery "email", plan .statement "label=Email", rfl, rfl, ?_, rfl, ?_, hheal⟩
  · exact occupied.attempt_start acceptedJob
  · decide +kernel

theorem mem_requests_underway :
    ((occupied.start acceptedJob).2.id, submission .statement "email") ∈ underway.requests := by
  have hevent : ((occupied.start acceptedJob).2.id, .queued .run 0) ∈
      accepted.orchestrator.events.drop start.orchestrator.events.length := by decide +kernel
  exact List.mem_map.mpr ⟨_, hevent, rfl⟩

end Sample

namespace Shift

/-- The job of a submission that says how to find the field is handed over. -/
theorem underway_job_handed_over :
    Sample.underway.Reachable ∧ Sample.underway.Distinct ∧
      ∃ j p, .begun .run j ∈ Sample.underway.assignments ∧
        HandedOver Sample.underway.orchestrator .run j p
          (Sample.underway.orchestrator.finish .run j Sample.notFound) := by
  have hr := Sample.reachable_underway
  have hd := Sample.distinct_underway
  have hbegun : .begun .run (Sample.occupied.start Sample.acceptedJob).2 ∈
      Sample.underway.assignments := List.mem_singleton_self _
  obtain ⟨s, hs, hends⟩ := (hr.job_life hd).2 .run _ hbegun
  obtain rfl := (hs _).mp Sample.mem_requests_underway
  rcases hends Sample.notFound with ⟨p, -, -, hover⟩ | ⟨hnot, -⟩ | ⟨-, hlast⟩
  · exact ⟨hr, hd, _, p, hbegun, hover⟩
  · obtain ⟨p, hp⟩ := Sample.healsTo_underway
    exact absurd ⟨p, hp, by decide +kernel⟩ hnot
  · exact absurd hlast (by decide +kernel)

end Shift

end Testplan
