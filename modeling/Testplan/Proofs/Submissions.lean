import Mathlib.Data.List.Forall2
import Mathlib.Data.List.Nodup
import Testplan.Proofs.Records
import Testplan.Proofs.Schedule
import Testplan.Proofs.Uninterrupted
/-!
# What a submission leaves behind

An orchestrator **gains** jobs when each of them joins the end of its queue, is put on the
board and is announced, one after the other (`Orchestrator.Gains`).  A submission gains the
jobs for the parts of its plan, up to the first part whose queue is closed
(`Orchestrator.gains_enqueueAll`), and what it gained stays when that part is refused.

So a submission that fails leaves nothing behind, except in one case: the plan has ordinary
and security scenarios and only the queue for security is closed
(`Orchestrator.TakesHalf`).  Then the job for the ordinary scenarios has joined its queue
and nobody is told its identifier (`Orchestrator.submit_leaves_nothing_iff`).
-/
namespace Testplan

namespace JobQueue

/-- **The queue with more jobs at its end.** -/
def extended (q : JobQueue) (now : Time) (js : List Job) : JobQueue :=
  if q.delay = 0 then { q with waiting := q.waiting ++ js }
  else { q with delayed := q.delayed ++ js.map fun j => (now + q.delay, j) }

@[simp] theorem extended_nil (q : JobQueue) (now : Time) : q.extended now [] = q := by
  simp [extended]

@[simp] theorem closed_extended (q : JobQueue) (now : Time) (js : List Job) :
    (q.extended now js).closed = q.closed := by
  unfold extended
  split <;> rfl

@[simp] theorem delay_extended (q : JobQueue) (now : Time) (js : List Job) :
    (q.extended now js).delay = q.delay := by
  unfold extended
  split <;> rfl

theorem extended_extended (q : JobQueue) (now : Time) (js ks : List Job) :
    (q.extended now js).extended now ks = q.extended now (js ++ ks) := by
  have hdelay := q.delay_extended now js
  rw [extended, hdelay]
  unfold extended
  split
  · simp
  · simp

theorem add?_eq_some_iff {q q' : JobQueue} {now : Time} {j : Job} :
    q.add? now j = some q' ↔ q.closed = false ∧ q' = q.extended now [j] := by
  unfold add? extended
  cases q.closed <;> by_cases hd : q.delay = 0 <;> simp [hd, eq_comm]

end JobQueue

namespace JobBoard

/-- Jobs that are recorded one after the other are on the board. -/
theorem mem_ids_recordAll {b : JobBoard} {js : List Job} {id : JobId} :
    id ∈ (js.foldl record b).ids ↔ id ∈ b.ids ∨ id ∈ js.map Job.id := by
  induction js generalizing b with
  | nil => simp
  | cons j rest ih =>
    have hfirst : id ∈ (b.record j).ids ↔ id ∈ b.ids ∨ id = j.id := by
      simp only [mem_ids_iff, get?_record]
      by_cases hid : id = j.id <;> simp [hid]
    rw [List.foldl_cons, ih, hfirst, List.map_cons, List.mem_cons, or_assoc]

/-- What is recorded for others changes nothing for a job. -/
theorem get?_recordAll_of_not_mem {b : JobBoard} {js : List Job} {id : JobId}
    (h : id ∉ js.map Job.id) : (js.foldl record b).get? id = b.get? id := by
  induction js generalizing b with
  | nil => rfl
  | cons j rest ih =>
    rw [List.map_cons, List.mem_cons, not_or] at h
    rw [List.foldl_cons, ih h.2, get?_record, if_neg h.1]

/-- The board shows each of several different jobs that are recorded. -/
theorem get?_recordAll {b : JobBoard} {js : List Job} (h : (js.map Job.id).Nodup) {j : Job}
    (hj : j ∈ js) : (js.foldl record b).get? j.id = some j := by
  induction js generalizing b with
  | nil => cases hj
  | cons i rest ih =>
    rw [List.map_cons, List.nodup_cons] at h
    rcases List.mem_cons.mp hj with rfl | hj
    · rw [List.foldl_cons, get?_recordAll_of_not_mem h.1, get?_record, if_pos rfl]
    · exact ih h.2 hj

end JobBoard

/-- **The job was made for a part of the plan of a submission.** -/
def Job.MadeFor (j : Job) (s : Submission) (environment : Environment)
    (part : QueueName × Plan) : Prop :=
  j = {
    id := j.id, plan := part.2.ref, framework := s.framework, queue := part.1, status := .queued
    environment, discovery := s.discovery }

namespace Orchestrator

/-- **Jobs were taken in**, in this order: each joined the end of its queue, was put on the
board and was announced.  Nothing else was done to the queues, the board and the events. -/
structure Gains (o : Orchestrator) (js : List Job) (o' : Orchestrator) : Prop where
  queues : ∀ n, o'.queue n = (o.queue n).extended o.hall.now (js.filter (·.queue = n))
  board : o'.board = js.foldl JobBoard.record o.board
  events : o'.events = o.events ++ js.map fun j => (j.id, .queued j.queue j.attempt)
  now : o'.hall.now = o.hall.now

/-- To gain nothing is to keep queues, board and events as they are. -/
theorem gains_nil {o o' : Orchestrator} (hqueues : ∀ n, o'.queue n = o.queue n)
    (hboard : o'.board = o.board) (hevents : o'.events = o.events)
    (hnow : o'.hall.now = o.hall.now) : o.Gains [] o' :=
  ⟨fun n => (hqueues n).trans ((o.queue n).extended_nil _).symm, hboard,
    hevents.trans (List.append_nil _).symm, hnow⟩

theorem Gains.refl (o : Orchestrator) : o.Gains [] o := gains_nil (fun _ => rfl) rfl rfl rfl

theorem Gains.trans {o o' o'' : Orchestrator} {js ks : List Job} (h : o.Gains js o')
    (h' : o'.Gains ks o'') : o.Gains (js ++ ks) o'' := by
  refine ⟨fun n => ?_, ?_, ?_, h'.now.trans h.now⟩
  · rw [h'.queues, h.queues, h.now, JobQueue.extended_extended, List.filter_append]
  · rw [h'.board, h.board, List.foldl_append]
  · rw [h'.events, h.events, List.map_append, List.append_assoc]

/-- Who gains jobs has told of them. -/
theorem Gains.eq_nil_iff {o o' : Orchestrator} {js : List Job} (h : o.Gains js o') :
    o.Gains [] o' ↔ js = [] := by
  constructor
  · intro hnone
    have hlength := congrArg List.length (h.events.symm.trans hnone.events)
    simpa using hlength
  · rintro rfl
    exact h

/-- A part whose queue takes its job. -/
theorem gains_enlisted {o : Orchestrator} {s : Submission} {environment : Environment}
    {n : QueueName} {part : Plan} {hall : QueueHall}
    (ha : o.hall.add? n (o.newJob s environment n part) = some hall) :
    o.Gains [o.newJob s environment n part] (o.enlisted s environment n part) := by
  have ha' : (o.serve (.create s part (o.newJob s environment n part))).hall.add? n
      (o.newJob s environment n part) = some hall := ha
  obtain ⟨q, hq, hset⟩ := queue_add _ ha'
  obtain ⟨-, rfl⟩ := JobQueue.add?_eq_some_iff.mp hq
  refine ⟨fun m => ?_, rfl, rfl, ?_⟩
  · show ((o.serve _).serve (.add n _)).queue m = _
    rw [hset m]
    by_cases hm : m = n
    · subst hm
      have hqueue : (o.newJob s environment m part).queue = m := rfl
      simp only [if_true, hqueue, List.filter_cons, List.filter_nil, decide_true]
      rfl
    · have hqueue : (o.newJob s environment n part).queue = n := rfl
      rw [if_neg hm, List.filter_cons_of_neg (by simpa [hqueue] using Ne.symm hm),
        List.filter_nil, JobQueue.extended_nil]
      rfl
  · show ((o.serve _).serve (.add n _)).hall.now = o.hall.now
    rw [serve_add ha']
    obtain ⟨q, -, rfl⟩ := Option.map_eq_some_iff.mp ha
    rfl

/-- **The jobs have identifiers of their own**, drawn one after the other. -/
structure Names (o : Orchestrator) (js : List Job) (o' : Orchestrator) : Prop where
  source : o'.ids.name = o.ids.name
  drawn : o.ids.drawn ≤ o'.ids.drawn
  places : ∃ ks : List Nat, js.map Job.id = ks.map (fun k => ⟨o.ids.name k⟩) ∧
    ks.Pairwise (· < ·) ∧ ∀ k ∈ ks, o.ids.drawn ≤ k ∧ k < o'.ids.drawn

theorem Names.refl (o : Orchestrator) : o.Names [] o :=
  ⟨rfl, Nat.le_refl _, [], rfl, .nil, fun _ h => nomatch h⟩

theorem Names.trans {o o' o'' : Orchestrator} {js ks : List Job} (h : o.Names js o')
    (h' : o'.Names ks o'') : o.Names (js ++ ks) o'' := by
  obtain ⟨hsource, hdrawn, as, has, hordered, hbounds⟩ := h
  obtain ⟨hsource', hdrawn', bs, hbs, hordered', hbounds'⟩ := h'
  refine ⟨hsource'.trans hsource, Nat.le_trans hdrawn hdrawn', as ++ bs, ?_, ?_, ?_⟩
  · rw [List.map_append, has, hbs, hsource, List.map_append]
  · refine List.pairwise_append.mpr ⟨hordered, hordered', fun a ha b hb => ?_⟩
    exact Nat.lt_of_lt_of_le (hbounds a ha).2 (hbounds' b hb).1
  · intro k hk
    rcases List.mem_append.mp hk with hk | hk
    · exact ⟨(hbounds k hk).1, Nat.lt_of_lt_of_le (hbounds k hk).2 hdrawn'⟩
    · exact ⟨Nat.le_trans hdrawn (hbounds' k hk).1, (hbounds' k hk).2⟩

/-- A call that makes no job. -/
theorem names_serve (o : Orchestrator) (c : Call) : o.Names [] (o.serve c) :=
  ⟨(o.ids_serve c).1, (o.ids_serve c).2, [], rfl, .nil, fun _ h => nomatch h⟩

theorem names_enlisted (o : Orchestrator) (s : Submission) (environment : Environment)
    (n : QueueName) (part : Plan) :
    o.Names [o.newJob s environment n part] (o.enlisted s environment n part) := by
  refine ⟨rfl, Nat.le_succ _, [o.ids.drawn], rfl, List.pairwise_singleton .., fun k hk => ?_⟩
  obtain rfl := List.mem_singleton.mp hk
  exact ⟨Nat.le_refl _, Nat.lt_succ_self _⟩

/-- If the identifiers that were drawn differ, so do the jobs. -/
theorem Names.nodup {o o' : Orchestrator} {js : List Job} (h : o.Names js o')
    (hd : o'.ids.Distinct) : (js.map Job.id).Nodup := by
  obtain ⟨hsource, -, ks, hks, hordered, hbounds⟩ := h
  rw [hks]
  refine List.Nodup.map_on (fun a ha b hb he => ?_) (hordered.imp Nat.ne_of_lt)
  refine hd a b (hbounds a ha).2 (hbounds b hb).2 ?_
  rw [hsource]
  exact congrArg JobId.uuid he

/-! ## The parts of a plan -/

/-- The queue of a part takes jobs. -/
def takes (o : Orchestrator) (part : QueueName × Plan) : Bool := !(o.queue part.1).closed

/-- A gain opens and closes no queue. -/
theorem Gains.takes_eq {o o' : Orchestrator} {js : List Job} (h : o.Gains js o') :
    o'.takes = o.takes := by
  funext part
  unfold takes
  rw [h.queues, JobQueue.closed_extended]

/-- **The parts of a plan are taken up to the first that is refused**, and the jobs that
were made for them stay. -/
theorem gains_enqueueAll (o : Orchestrator) (s : Submission) (environment : Environment)
    (parts : List (QueueName × Plan)) :
    ∃ js, o.Gains js (o.enqueueAll s environment parts).1 ∧
      o.Names js (o.enqueueAll s environment parts).1 ∧
      List.Forall₂ (fun j part => j.MadeFor s environment part) js (parts.takeWhile o.takes) ∧
      (o.enqueueAll s environment parts).2 =
        match parts.dropWhile o.takes with
        | [] => .ok (js.map Job.id)
        | part :: _ => .error (.queueClosed part.1) := by
  induction parts generalizing o with
  | nil => exact ⟨[], .refl o, .refl o, .nil, rfl⟩
  | cons first rest ih =>
    obtain ⟨n, part⟩ := first
    unfold enqueueAll
    cases ha : o.hall.add? n (o.newJob s environment n part) with
    | none =>
      have hclosed : (o.queue n).closed = true := (QueueHall.add?_eq_none_iff _ n _).mp ha
      have hrefused : ¬ o.takes (n, part) = true := by simp [takes, hclosed]
      rw [enqueue_of_refused ha, List.takeWhile_cons_of_neg hrefused,
        List.dropWhile_cons_of_neg hrefused]
      exact ⟨[], gains_nil (fun _ => rfl) rfl rfl rfl,
        o.names_serve (.create s part (o.newJob s environment n part)), .nil, rfl⟩
    | some hall =>
      have hgain := gains_enlisted ha
      have hopen : o.takes (n, part) = true := by
        have hclosed : ¬ (o.queue n).closed = true := fun hc => by
          cases ha.symm.trans ((QueueHall.add?_eq_none_iff _ n _).mpr hc)
        simpa [takes] using hclosed
      obtain ⟨js, hgains, hnames, hmade, hanswer⟩ := ih (o.enlisted s environment n part)
      rw [hgain.takes_eq] at hmade hanswer
      rw [enqueue_of_added ha, List.takeWhile_cons_of_pos hopen,
        List.dropWhile_cons_of_pos hopen]
      refine ⟨_ :: js, hgain.trans hgains, (o.names_enlisted s environment n part).trans hnames,
        .cons rfl hmade, ?_⟩
      dsimp only
      rw [hanswer]
      cases rest.dropWhile o.takes <;> rfl

/-- A plan with scenarios of both sorts has two parts, and every other plan is its own one
part. -/
theorem partsOf_cases (o : Orchestrator) (p : Plan) :
    (p.isMixed = true ∧ ∃ ordinary security,
      (o.partsOf p).2 = [(.run, ordinary), (.security, security)]) ∨
    (p.isMixed = false ∧ ∃ n, (o.partsOf p).2 = [(n, p)]) := by
  unfold partsOf Plan.splitSecurity Plan.isMixed
  rw [List.partition_eq_filter_filter]
  dsimp only
  split
  · next hnone =>
    refine .inr ⟨?_, .run, rfl⟩
    have : p.cases.any Scenario.isSecurity = false := by
      simpa [List.isEmpty_iff, List.filter_eq_nil_iff] using hnone
    rw [this, Bool.false_and]
  · next hsome =>
    split
    · next hall =>
      refine .inr ⟨?_, .security, rfl⟩
      have : (p.cases.any fun s => !s.isSecurity) = false := by
        simpa [List.isEmpty_iff, List.filter_eq_nil_iff] using hall
      rw [this, Bool.and_false]
    · next hnotAll =>
      refine .inl ⟨?_, _, _, rfl⟩
      simp only [List.isEmpty_iff, List.filter_eq_nil_iff, Function.comp_apply] at hsome hnotAll
      simpa using And.intro hsome hnotAll

/-! ## All or nothing -/

/-- **A submission of which only a part is taken**: it is in order, its plan has ordinary
and security scenarios, and of the two queues only the one for security is closed. -/
structure TakesHalf (o : Orchestrator) (s : Submission) : Prop where
  framework : ∃ f, o.adapters.find s.framework = .ok f
  environment : ∃ e, s.environment.resolve o.host.process = .ok e
  mixed : s.plan.isMixed = true
  ordinary : (o.queue .run).closed = false
  security : (o.queue .security).closed = true

/-- A submission that is not in order is refused at once. -/
theorem submit_eq_or_in_order (o : Orchestrator) (s : Submission) :
    (∃ e, o.submit s = (o, .error (.config e))) ∨
    ∃ f environment, o.adapters.find s.framework = .ok f ∧
      s.environment.resolve o.host.process = .ok environment := by
  unfold submit
  cases o.adapters.find s.framework with
  | error e => exact .inl ⟨e, rfl⟩
  | ok f =>
    cases s.environment.resolve o.host.process with
    | error e => exact .inl ⟨e, rfl⟩
    | ok environment => exact .inr ⟨f, environment, rfl, rfl⟩

/-- **The outcome of a submission that is in order**: it gains the jobs for the parts of its
plan, up to the first part that is refused. -/
theorem gains_submit {o : Orchestrator} {s : Submission} {f : Adapter}
    {environment : Environment} (hf : o.adapters.find s.framework = .ok f)
    (he : s.environment.resolve o.host.process = .ok environment) :
    ∃ js, o.Gains js (o.submit s).1 ∧ o.Names js (o.submit s).1 ∧
      List.Forall₂ (fun j part => j.MadeFor s environment part) js
        ((o.partsOf s.plan).2.takeWhile o.takes) ∧
      (o.submit s).2 =
        match (o.partsOf s.plan).2.dropWhile o.takes with
        | [] => .ok (js.map Job.id)
        | part :: _ => .error (.queueClosed part.1) := by
  have hsubmit : o.submit s =
      (o.partsOf s.plan).1.enqueueAll s environment (o.partsOf s.plan).2 := by
    unfold submit
    rw [hf, he]
  have hfirst : o.Gains [] (o.partsOf s.plan).1 := gains_nil (fun _ => rfl) rfl rfl rfl
  obtain ⟨js, hgains, hnames, hmade, hanswer⟩ :=
    (o.partsOf s.plan).1.gains_enqueueAll s environment (o.partsOf s.plan).2
  rw [hfirst.takes_eq] at hmade hanswer
  rw [hsubmit]
  exact ⟨js, hfirst.trans hgains, (o.names_serve (.accept s)).trans hnames, hmade, hanswer⟩

/-- Where only a part is taken, the other part is refused and the first one stays. -/
theorem TakesHalf.gains {o : Orchestrator} {s : Submission} (h : o.TakesHalf s) :
    (o.submit s).2 = .error (.queueClosed .security) ∧
      ∃ j, j.queue = .run ∧ o.Gains [j] (o.submit s).1 := by
  obtain ⟨⟨f, hf⟩, ⟨environment, he⟩, hmixed, hrun, hsecurity⟩ := h
  obtain ⟨js, hgains, -, hmade, hanswer⟩ := gains_submit hf he
  rcases o.partsOf_cases s.plan with ⟨-, ordinary, security, hparts⟩ | ⟨hnot, -⟩
  · have htaken : o.takes (.run, ordinary) = true := by simp [takes, hrun]
    have hrefused : ¬ o.takes (.security, security) = true := by simp [takes, hsecurity]
    rw [hparts, List.takeWhile_cons_of_pos htaken, List.takeWhile_cons_of_neg hrefused] at hmade
    rw [hparts, List.dropWhile_cons_of_pos htaken, List.dropWhile_cons_of_neg hrefused] at hanswer
    cases hmade with
    | @cons j _ _ _ hj hnone =>
      cases hnone
      exact ⟨hanswer, j, congrArg Job.queue hj, hgains⟩
  · rw [hmixed] at hnot
    cases hnot

/-- A refusal of the first part leaves nothing to be taken. -/
theorem takeWhile_parts_of_refused {o : Orchestrator} {s : Submission} {f : Adapter}
    {environment : Environment} (hf : o.adapters.find s.framework = .ok f)
    (he : s.environment.resolve o.host.process = .ok environment) (hhalf : ¬ o.TakesHalf s)
    (hrest : (o.partsOf s.plan).2.dropWhile o.takes ≠ []) :
    (o.partsOf s.plan).2.takeWhile o.takes = [] := by
  rcases o.partsOf_cases s.plan with ⟨hmixed, ordinary, security, hparts⟩ | ⟨-, n, hparts⟩
  · rw [hparts] at hrest ⊢
    by_cases hrun : o.takes (.run, ordinary) = true
    · have hsecurity : ¬ o.takes (.security, security) = true := fun hs => by
        simp [hrun, hs] at hrest
      refine absurd ⟨⟨f, hf⟩, ⟨environment, he⟩, hmixed, ?_, ?_⟩ hhalf
      · simpa [takes] using hrun
      · simpa [takes] using hsecurity
    · exact List.takeWhile_cons_of_neg hrun
  · rw [hparts] at hrest ⊢
    refine List.takeWhile_cons_of_neg fun htaken => hrest ?_
    rw [List.dropWhile_cons_of_pos htaken, List.dropWhile_nil]

/-- **A submission that fails leaves nothing behind, unless only a part of it is taken**;
then the job for the ordinary scenarios has joined its queue.  A submission that succeeds
gains one job for each part of the plan, and gives their identifiers: each job joined its
queue once, is on the board and was announced. -/
theorem submit_leaves_nothing_iff (o : Orchestrator) (s : Submission) :
    (∀ e, (o.submit s).2 = .error e → (o.Gains [] (o.submit s).1 ↔ ¬ o.TakesHalf s)) ∧
    (o.TakesHalf s → (o.submit s).2 = .error (.queueClosed .security) ∧
      ∃ j, j.queue = .run ∧ o.Gains [j] (o.submit s).1) ∧
    ∀ ids, (o.submit s).2 = .ok ids → ∃ environment js,
      s.environment.resolve o.host.process = .ok environment ∧
      List.Forall₂ (fun j part => j.MadeFor s environment part) js (o.partsOf s.plan).2 ∧
      js.map Job.id = ids ∧ o.Gains js (o.submit s).1 ∧
      (∀ id ∈ ids, id ∈ (o.submit s).1.board.ids) ∧
      ((o.submit s).1.ids.Distinct →
        ids.Nodup ∧ ∀ j ∈ js, (o.submit s).1.board.get? j.id = some j) := by
  refine ⟨fun e herr => ?_, TakesHalf.gains, fun ids hok => ?_⟩
  · by_cases hhalf : o.TakesHalf s
    · obtain ⟨-, j, -, hgains⟩ := hhalf.gains
      rw [hgains.eq_nil_iff]
      exact ⟨nofun, fun hnot => absurd hhalf hnot⟩
    · refine ⟨fun _ => hhalf, fun _ => ?_⟩
      rcases o.submit_eq_or_in_order s with ⟨e', hs⟩ | ⟨f, environment, hf, he⟩
      · rw [hs]
        exact .refl o
      · obtain ⟨js, hgains, -, hmade, hanswer⟩ := gains_submit hf he
        rw [herr] at hanswer
        have hrest : (o.partsOf s.plan).2.dropWhile o.takes ≠ [] := fun hnone => by
          rw [hnone] at hanswer
          cases hanswer
        rw [takeWhile_parts_of_refused hf he hhalf hrest] at hmade
        cases hmade
        exact hgains
  · rcases o.submit_eq_or_in_order s with ⟨e', hs⟩ | ⟨f, environment, hf, he⟩
    · rw [hs] at hok
      cases hok
    · obtain ⟨js, hgains, hnames, hmade, hanswer⟩ := gains_submit hf he
      obtain ⟨hnone, rfl⟩ :
          (o.partsOf s.plan).2.dropWhile o.takes = [] ∧ ids = js.map Job.id := by
        rw [hok] at hanswer
        split at hanswer
        · next hnone => exact ⟨hnone, Except.ok.inj hanswer⟩
        · cases hanswer
      -- no part was refused, so all of them were taken
      have hall := List.takeWhile_append_dropWhile (p := o.takes) (l := (o.partsOf s.plan).2)
      rw [hnone, List.append_nil] at hall
      rw [hall] at hmade
      refine ⟨environment, js, he, hmade, rfl, hgains, fun id hid => ?_, fun hd => ?_⟩
      · rw [hgains.board]
        exact JobBoard.mem_ids_recordAll.mpr (.inr hid)
      · refine ⟨hnames.nodup hd, fun j hj => ?_⟩
        rw [hgains.board]
        exact JobBoard.get?_recordAll (hnames.nodup hd) hj

end Orchestrator

namespace Sample

/-- A request with an ordinary scenario and a security scenario. -/
def mixed : Submission where
  plan := { plan .statement "label=Email" with
    cases := (plan .statement "label=Email").cases ++ (plan .security "label=Email").cases }
  framework := "playwright-ts"

/-- Nothing was submitted yet, and the queue for security is closed. -/
def guarded : Orchestrator :=
  { start.orchestrator with hall := start.orchestrator.hall.close .security }

theorem refused_mixed : (guarded.submit mixed).2 = .error (.queueClosed .security) := by
  decide +kernel

theorem takesHalf_mixed : guarded.TakesHalf mixed where
  framework := ⟨_, rfl⟩
  environment := ⟨_, rfl⟩
  mixed := by decide +kernel
  ordinary := rfl
  security := rfl

end Sample

namespace Orchestrator

/-- The request with both sorts of scenarios is refused, and yet one job was queued, is on
the board and was announced. -/
theorem refused_submission_queues_job :
    (Sample.guarded.submit Sample.mixed).2 = .error (.queueClosed .security) ∧
      (Sample.guarded.queue .run).contents.length = 0 ∧
      ((Sample.guarded.submit Sample.mixed).1.queue .run).contents.length = 1 ∧
      Sample.guarded.board.ids.length = 0 ∧
      (Sample.guarded.submit Sample.mixed).1.board.ids.length = 1 ∧
      Sample.guarded.events.length = 0 ∧
      (Sample.guarded.submit Sample.mixed).1.events.length = 1 := by
  decide +kernel

/-- The same request is taken where both queues are open. -/
theorem mixed_submission_outcomes :
    (Sample.guarded.Gains [] (Sample.guarded.submit Sample.mixed).1 ↔
      ¬ Sample.guarded.TakesHalf Sample.mixed) ∧
    (∃ j, j.queue = .run ∧ Sample.guarded.Gains [j] (Sample.guarded.submit Sample.mixed).1) ∧
    ∃ ids, (Sample.start.orchestrator.submit Sample.mixed).2 = .ok ids ∧ ids.length = 2 ∧
      ids.Nodup := by
  have hrefused := submit_leaves_nothing_iff Sample.guarded Sample.mixed
  have htaken := submit_leaves_nothing_iff Sample.start.orchestrator Sample.mixed
  refine ⟨hrefused.1 _ Sample.refused_mixed, (hrefused.2.1 Sample.takesHalf_mixed).2, ?_⟩
  have hok : (Sample.start.orchestrator.submit Sample.mixed).2 =
      .ok [⟨Sample.uuid 2⟩, ⟨Sample.uuid 3⟩] := by decide +kernel
  obtain ⟨environment, js, -, -, -, -, -, hdistinct⟩ := htaken.2.2 _ hok
  refine ⟨_, hok, rfl, (hdistinct ?_).1⟩
  obtain ⟨cs, hcs⟩ := Sample.start.orchestrator.performs_submit Sample.mixed
  exact Sample.distinct_uuid (hcs.steps [] [] []).name_eq (by decide +kernel)

end Orchestrator

end Testplan
