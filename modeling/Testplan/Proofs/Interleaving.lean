import Testplan.Orchestrator
import Testplan.Proofs.QueueContents
/-!
# Interleaved calls

Whoever submits a plan and every worker that attends to a job runs a **routine**: a
sequence of calls to the parties that all of them share, which are the three queues, the
plan store, the board and the stream of events.  A party serves one call at a time
(`Orchestrator.serve`), and between two calls of one routine any number of calls of
others may be served.

A `Routine` says how far a submission or an attempt has come, and `Moves` which call it
makes next and where that takes it.  An `Interleaving` is the orchestrator with the
routines that are under way and the calls that were served so far; one `Step` serves one
call of one routine, or one that belongs to none of them: somebody asks a queue in vain,
looks whether it is idle, administers it, or time passes.  Nothing bounds the number of
routines, so every number of workers is covered.  A routine that breaks off, because the
counter of versions overflows when it seeks a corrected plan, makes no call any more and
stays where it is.

The calls of `submit`, `start` and `finish` are made here in the order in which these
operations make them; that an uninterrupted routine does what the operation does is shown
in `Testplan.Proofs.Uninterrupted`.
-/
namespace Testplan

/-- A submission that is being taken in. -/
structure Intake where
  submission : Submission
  /-- The environment without placeholders. -/
  environment : Environment
  /-- The parts of the plan that have no job yet, with their queues. -/
  parts : List (QueueName × Plan)

/-- **How far a routine has come.**  Each constructor is named for what comes next. -/
inductive Routine where
  /-- The next part of the plan gets a job. -/
  | submitting (r : Intake)
  | adding (r : Intake) (j : Job)
  /-- The job was added and is put on the board. -/
  | listing (r : Intake) (j : Job)
  | announcing (r : Intake) (j : Job)
  /-- The job was taken from a queue and is put on the board as running. -/
  | opening (n : QueueName) (j : Job)
  | starting (n : QueueName) (j : Job)
  /-- The plan of the job is looked up. -/
  | fetching (n : QueueName) (j : Job)
  /-- The tests of the plan run. -/
  | working (n : QueueName) (j : Job)
  /-- The attempt failed and a corrected plan is sought, or it has broken off. -/
  | correcting (n : QueueName) (j : Job)
  | storing (n : QueueName) (j : Job) (h : HealedPlan)
  /-- The corrected plan is stored and the queue for healing gets the job. -/
  | handing (n : QueueName) (j : Job) (h : HealedPlan)
  /-- The queue for healing has the job, and the queue that it ran on gives it up. -/
  | releasing (n : QueueName) (h : HealedPlan) (healed : Job)
  | relisting (h : HealedPlan) (healed : Job)
  | telling (h : HealedPlan) (healed : Job)
  | requeueing (healed : Job)
  /-- The job has ended and is put on the board. -/
  | concluding (n : QueueName) (j : Job)
  | finishing (n : QueueName) (j : Job)
  | completing (n : QueueName) (j : Job)

/-- What the administration of a queue asks for. -/
inductive Administration where
  | pause
  | resume
  | close
  | drain (force : Bool)
  | clean (grace : Time) (limit : Nat) (status : CleanStatus)

/-- What an administrative request does to a queue. -/
def Administration.apply (now : Time) (q : JobQueue) : Administration → JobQueue
  | pause => q.pause
  | resume => q.resume
  | close => q.close
  | drain force => (q.drain force).1
  | clean grace limit status => (q.clean now grace limit status).1

/-- **A call to one of the parties.** -/
inductive Call where
  /-- A submission is accepted and its plan split. -/
  | accept (s : Submission)
  /-- A part of the plan of a submission is stored and gets a job. -/
  | create (s : Submission) (part : Plan) (j : Job)
  | add (n : QueueName) (j : Job)
  /-- A queue does not take a job. -/
  | refuse (n : QueueName) (id : JobId)
  /-- A queue hands out a job. -/
  | take (n : QueueName) (token : Nat) (j : Job)
  /-- Somebody asks a queue for a job in vain. -/
  | ask (n : QueueName) (token : Nat)
  /-- The plan of a job is looked up for its attempt. -/
  | fetch (j : Job) (answer : Option Plan)
  /-- The tests of a job ended with a verdict. -/
  | judge (j : Job) (v : Verdict)
  /-- The plan of a job is looked up to be corrected. -/
  | consult (j : Job)
  /-- The corrected plan for a job is stored. -/
  | correct (j : Job) (h : HealedPlan)
  | release (n : QueueName) (id : JobId)
  | complete (n : QueueName) (j : Job)
  | record (j : Job)
  | send (id : JobId) (e : JobEvent)
  /-- Somebody looks whether a queue is idle. -/
  | poll (n : QueueName) (idle : Bool)
  | administer (n : QueueName) (a : Administration)
  /-- A job is taken off the board. -/
  | remove (id : JobId)
  /-- The host, the clock and those who wait at the queues change. -/
  | surroundings (host : Host) (hall : QueueHall)

namespace Orchestrator

/-- The queue with a name. -/
def queue (o : Orchestrator) (n : QueueName) : JobQueue := o.hall.queues.get n

/-- The job for a part of a submitted plan, with the next identifier. -/
def newJob (o : Orchestrator) (s : Submission) (environment : Environment) (n : QueueName)
    (part : Plan) : Job where
  id := ⟨o.ids.draw.1⟩
  plan := part.ref
  framework := s.framework
  queue := n
  status := .queued
  environment := environment
  discovery := s.discovery

/-- **What a call does to the orchestrator.** -/
def serve (o : Orchestrator) : Call → Orchestrator
  | .accept s => (o.partsOf s.plan).1
  | .create _ part _ => { o with plans := o.plans.insert part, ids := o.ids.draw.2 }
  | .add n j => { o with hall := (o.hall.add? n j).getD o.hall }
  | .take n token _ | .ask n token => { o with hall := (o.hall.ask n token).1 }
  | .correct _ h => { o with plans := o.plans.insert h.plan }
  | .release n id => { o with hall := o.hall.modify n fun q => q.release id }
  | .complete n j => { o with hall := o.hall.modify n fun q => q.complete o.hall.now j }
  | .record j => o.record j
  | .send id e => o.report id e
  | .administer n a => { o with hall := o.hall.modify n fun q => a.apply o.hall.now q }
  | .remove id => { o with board := o.board.remove id }
  | .surroundings host hall => { o with host, hall := { hall with queues := o.hall.queues } }
  | .refuse .. | .fetch .. | .judge .. | .consult .. | .poll .. => o

end Orchestrator

/-- The routine of a submission, unless all its parts have jobs. -/
def Intake.routine? (r : Intake) : Option Routine :=
  if r.parts.isEmpty then none else some (.submitting r)

theorem Intake.eq_submitting {r : Intake} {t : Routine} (h : r.routine? = some t) :
    t = .submitting r := by
  unfold routine? at h
  split at h
  · cases h
  · exact (Option.some.inj h).symm

/-- **The next call of a routine** and where it takes the routine.  No routine stands for
calls that begin one, on the left, and for calls that end one, on the right. -/
inductive Moves (o : Orchestrator) : Option Routine → Call → Option Routine → Prop where
  | accept {s a environment} (ha : o.adapters.find s.framework = .ok a)
      (he : s.environment.resolve o.host.process = .ok environment) :
      Moves o none (.accept s) (Intake.routine? ⟨s, environment, (o.partsOf s.plan).2⟩)
  | create {s environment n part parts} :
      Moves o (some (.submitting ⟨s, environment, (n, part) :: parts⟩))
        (.create s part (o.newJob s environment n part))
        (some (.adding ⟨s, environment, parts⟩ (o.newJob s environment n part)))
  | add {r j hall} (ha : o.hall.add? j.queue j = some hall) :
      Moves o (some (.adding r j)) (.add j.queue j) (some (.listing r j))
  | decline {r j} (ha : o.hall.add? j.queue j = none) :
      Moves o (some (.adding r j)) (.refuse j.queue j.id) none
  | list {r j} : Moves o (some (.listing r j)) (.record j) (some (.announcing r j))
  | announce {r j} :
      Moves o (some (.announcing r j)) (.send j.id (.queued j.queue j.attempt)) r.routine?
  | take {n token j} (ht : (o.hall.ask n token).2 = .job j) :
      Moves o none (.take n token j) (some (.opening n j))
  | openAttempt {n j} :
      Moves o (some (.opening n j)) (.record (o.start j).2) (some (.starting n (o.start j).2))
  | begin {n j} :
      Moves o (some (.starting n j)) (.send j.id (.started j.queue j.attempt))
        (some (.fetching n j))
  | fetch {n j} :
      Moves o (some (.fetching n j)) (.fetch j (o.plans.get? j.plan)) (some (.working n j))
  | log {n j line} :
      Moves o (some (.working n j)) (.send j.id (.log line)) (some (.working n (o.log j line).2))
  | fail {n j v} (hj : (Orchestrator.judged j v).isHealable = true) :
      Moves o (some (.working n j)) (.judge j v)
        (some (.correcting n (Orchestrator.judged j v)))
  | settle {n j v} (hj : (Orchestrator.judged j v).isHealable = false) :
      Moves o (some (.working n j)) (.judge j v)
        (some (.concluding n (Orchestrator.judged j v)))
  | despair {n j e} (hp : o.healedPlan j = .error e) :
      Moves o (some (.correcting n j)) (.consult j)
        (some (.concluding n (Orchestrator.withRemark j e)))
  | mend {n j h} (hp : o.healedPlan j = .ok h) :
      Moves o (some (.correcting n j)) (.consult j) (some (.storing n j h))
  | store {n j h} : Moves o (some (.storing n j h)) (.correct j h) (some (.handing n j h))
  | hand {n j h healed hall} (hj : j.requeueForHealing? h.plan.ref = some healed)
      (ha : o.hall.add? .healing healed = some hall) :
      Moves o (some (.handing n j h)) (.add .healing healed) (some (.releasing n h healed))
  | reject {n j h} (hj : o.handOff? n j h = none) :
      Moves o (some (.handing n j h)) (.refuse .healing j.id) (some (.concluding n j))
  | release {n h healed} :
      Moves o (some (.releasing n h healed)) (.release n healed.id) (some (.relisting h healed))
  | relist {h healed} :
      Moves o (some (.relisting h healed)) (.record healed) (some (.telling h healed))
  | tell {h healed} :
      Moves o (some (.telling h healed)) (.send healed.id (.healing h.plan.ref h.changes))
        (some (.requeueing healed))
  | requeue {healed} :
      Moves o (some (.requeueing healed)) (.send healed.id (.queued healed.queue healed.attempt))
        none
  | conclude {n j} : Moves o (some (.concluding n j)) (.record j) (some (.finishing n j))
  | finish {n j} :
      Moves o (some (.finishing n j)) (.send j.id (.finished j.queue j.status))
        (some (.completing n j))
  | complete {n j} : Moves o (some (.completing n j)) (.complete n j) none
  | miss {n token} (ht : ∀ j, (o.hall.ask n token).2 ≠ .job j) : Moves o none (.ask n token) none
  | poll {n} : Moves o none (.poll n (o.queue n).isIdle) none
  | administer {n a} : Moves o none (.administer n a) none
  | remove {id} : Moves o none (.remove id) none
  | surroundings {host hall} : Moves o none (.surroundings host hall) none

/-- **An orchestrator with the routines under way** and the calls served so far. -/
structure Interleaving where
  orchestrator : Orchestrator
  tasks : List Routine := []
  calls : List Call := []

namespace Interleaving

/-- **One call is served**: of one routine among the others, or of none. -/
inductive Step : Interleaving → Interleaving → Prop where
  | serve {o : Orchestrator} {t t' : Option Routine} {c : Call} (h : Moves o t c t')
      (l r : List Routine) (calls : List Call) :
      Step ⟨o, l ++ t.toList ++ r, calls⟩ ⟨o.serve c, l ++ t'.toList ++ r, calls ++ [c]⟩

/-- A routine that is under way is the one of the call or another. -/
theorem mem_tasks_iff {l r : List Routine} {t : Option Routine} {y : Routine} :
    y ∈ l ++ t.toList ++ r ↔ t = some y ∨ y ∈ l ++ r := by
  rw [List.mem_append, List.mem_append, List.mem_append, Option.mem_toList, or_assoc,
    or_left_comm]

/-- Any number of calls are served. -/
inductive Steps : Interleaving → Interleaving → Prop where
  | refl (w : Interleaving) : Steps w w
  | tail {u v w : Interleaving} (h : Steps u v) (hs : Step v w) : Steps u w

/-- Nothing was submitted yet. -/
def Initial (w : Interleaving) : Prop :=
  ∃ config adapters host ids, w = ⟨.ofConfiguration config adapters host ids, [], []⟩

/-- **The interleavings that come about.** -/
def Reachable (w : Interleaving) : Prop := ∃ u, Initial u ∧ Steps u w

theorem Steps.trans {u v w : Interleaving} (h : Steps u v) (h' : Steps v w) : Steps u w := by
  induction h' with
  | refl => exact h
  | tail _ hs ih => exact ih.tail hs

theorem Reachable.step {v w : Interleaving} (h : Reachable v) (hs : Step v w) : Reachable w := by
  obtain ⟨u, hu, hv⟩ := h
  exact ⟨u, hu, hv.tail hs⟩

theorem Reachable.steps {v w : Interleaving} (h : Reachable v) (hs : Steps v w) :
    Reachable w := by
  obtain ⟨u, hu, hv⟩ := h
  exact ⟨u, hu, hv.trans hs⟩

theorem reachable_ofConfiguration (config : Configuration) (adapters : AdapterRegistry)
    (host : Host) (ids : IdSource) :
    Reachable ⟨.ofConfiguration config adapters host ids, [], []⟩ :=
  ⟨_, ⟨config, adapters, host, ids, rfl⟩, .refl _⟩

/-- What holds at first and is kept by every step holds in every interleaving. -/
theorem Reachable.invariant {P : Interleaving → Prop} {w : Interleaving} (h : Reachable w)
    (first : ∀ u, Initial u → P u) (step : ∀ v w, Reachable v → P v → Step v w → P w) : P w := by
  obtain ⟨u, hu, hw⟩ := h
  induction hw with
  | refl => exact first u hu
  | tail hv hs ih => exact step _ _ ⟨u, hu, hv⟩ ih hs

/-! ## Histories -/

/-- A step adds one call to the history. -/
theorem Step.calls_eq {v w : Interleaving} (h : Step v w) : ∃ c, w.calls = v.calls ++ [c] := by
  cases h with
  | serve _ _ _ calls => exact ⟨_, rfl⟩

/-- The last call of a history, served by a routine. -/
theorem Step.moves {v w : Interleaving} (h : Step v w) {c : Call}
    (hc : w.calls = v.calls ++ [c]) :
    ∃ t t', Moves v.orchestrator t c t' ∧ w.orchestrator = v.orchestrator.serve c := by
  cases h with
  | @serve o t t' d hm l r calls =>
    obtain rfl : d = c := by simpa using List.append_cancel_left hc
    exact ⟨t, t', hm, rfl⟩

/-- What is read off a history is extended by what is read off its last call. -/
theorem filterMap_append_singleton {α : Type} (f : Call → Option α) (calls : List Call)
    (c : Call) : (calls ++ [c]).filterMap f = calls.filterMap f ++ (f c).toList := by
  rw [List.filterMap_append]
  cases h : f c <;> simp [h]

/-- The history grows at its end. -/
theorem Steps.isPrefix {v w : Interleaving} (h : Steps v w) : v.calls <+: w.calls := by
  induction h with
  | refl => exact List.prefix_rfl
  | tail _ hs ih =>
    obtain ⟨c, hc⟩ := hs.calls_eq
    exact ih.trans ⟨[c], hc.symm⟩

/-- The calls of a stretch are those before its last step and the call of that step. -/
theorem Steps.since_eq {v u w : Interleaving} (h : Steps v u) (hs : Step u w)
    {since : List Call} (hc : w.calls = v.calls ++ since) :
    ∃ before c, since = before ++ [c] ∧ u.calls = v.calls ++ before ∧
      w.calls = u.calls ++ [c] := by
  obtain ⟨c, hcw⟩ := hs.calls_eq
  obtain ⟨before, hb⟩ := h.isPrefix
  refine ⟨before, c, ?_, hb.symm, hcw⟩
  rw [hcw, ← hb, List.append_assoc] at hc
  exact (List.append_cancel_left hc).symm

/-- **Every call was served somewhere along the way**: each beginning of a history is the
history of an interleaving that was passed through. -/
theorem Reachable.split {w : Interleaving} (h : Reachable w) {before after : List Call}
    (hc : w.calls = before ++ after) :
    ∃ v, Reachable v ∧ v.calls = before ∧ Steps v w := by
  obtain ⟨u, hu, hw⟩ := h
  -- the induction peels off the last step, whose call is at the end of `after` if there is one
  induction hw generalizing after with
  | refl =>
    obtain ⟨_, _, _, _, rfl⟩ := hu
    obtain ⟨rfl, -⟩ := List.append_eq_nil_iff.mp hc.symm
    exact ⟨_, ⟨_, ⟨_, _, _, _, rfl⟩, .refl _⟩, rfl, .refl _⟩
  | @tail v w hv hs ih =>
    obtain ⟨c, he⟩ := hs.calls_eq
    rcases List.eq_nil_or_concat after with rfl | ⟨rest, x, rfl⟩
    · exact ⟨w, ⟨u, hu, hv.tail hs⟩, by simpa using hc, .refl w⟩
    · have hrest : v.calls = before ++ rest := by
        have h := he.symm.trans hc
        rw [List.concat_eq_append, ← List.append_assoc] at h
        exact (List.append_inj_left' h rfl)
      obtain ⟨x, hx, hxc, hxs⟩ := ih hrest
      exact ⟨x, hx, hxc, hxs.tail hs⟩

/-- The interleavings before and after a call of the history. -/
theorem Reachable.split_at {w : Interleaving} (h : Reachable w) {before after : List Call}
    {c : Call} (hc : w.calls = before ++ c :: after) :
    ∃ u v, Reachable u ∧ u.calls = before ∧ Step u v ∧ v.calls = before ++ [c] ∧ Steps v w := by
  -- the call is the last one of the beginning that ends with it
  have hc' : w.calls = (before ++ [c]) ++ after := by
    rw [hc, List.append_assoc, List.singleton_append]
  obtain ⟨v, hv, hvc, hvw⟩ := h.split hc'
  obtain ⟨x, hx, hxv⟩ := hv
  cases hxv with
  | refl =>
    obtain ⟨_, _, _, _, rfl⟩ := hx
    simp at hvc
  | @tail u _ hxu hs =>
    obtain ⟨d, hd⟩ := hs.calls_eq
    have hb : u.calls = before := List.append_inj_left' (hd.symm.trans hvc) rfl
    exact ⟨u, v, ⟨x, hx, hxu⟩, hb, hs, hvc, hvw⟩

end Interleaving

/-! ## Identifiers -/

/-- The identifiers drawn so far differ from each other. -/
def IdSource.Distinct (s : IdSource) : Prop :=
  ∀ a b, a < s.drawn → b < s.drawn → s.name a = s.name b → a = b

/-- The identifier was drawn. -/
def IdSource.HasDrawn (s : IdSource) (u : Uuid) : Prop := ∃ k, k < s.drawn ∧ s.name k = u

/-- The next identifier is a new one, if all that are drawn differ. -/
theorem IdSource.not_hasDrawn_draw {s : IdSource} (h : s.draw.2.Distinct) :
    ¬ s.HasDrawn s.draw.1 := by
  rintro ⟨k, hk, he⟩
  have := h k s.drawn (Nat.lt_succ_of_lt hk) (Nat.lt_succ_self _) he
  omega

namespace Orchestrator

/-- A call draws identifiers from the source and changes nothing else of it. -/
theorem ids_serve (o : Orchestrator) (c : Call) :
    (o.serve c).ids.name = o.ids.name ∧ o.ids.drawn ≤ (o.serve c).ids.drawn := by
  cases c with
  | accept s => exact ⟨rfl, by show o.ids.drawn ≤ o.ids.drawn + 1 + 1; omega⟩
  | create s part j => exact ⟨rfl, by show o.ids.drawn ≤ o.ids.drawn + 1; omega⟩
  | _ => exact ⟨rfl, Nat.le_refl _⟩

theorem hasDrawn_serve {o : Orchestrator} {u : Uuid} (h : o.ids.HasDrawn u) (c : Call) :
    (o.serve c).ids.HasDrawn u := by
  obtain ⟨k, hk, he⟩ := h
  obtain ⟨hn, hd⟩ := o.ids_serve c
  exact ⟨k, Nat.lt_of_lt_of_le hk hd, by rw [hn, he]⟩

theorem distinct_of_serve {o : Orchestrator} {c : Call} (h : (o.serve c).ids.Distinct) :
    o.ids.Distinct := by
  obtain ⟨hn, hd⟩ := o.ids_serve c
  intro a b ha hb he
  exact h a b (by omega) (by omega) (by rw [hn, he])

end Orchestrator

namespace Interleaving

/-- **All identifiers that were drawn differ from each other.** -/
def Distinct (w : Interleaving) : Prop := w.orchestrator.ids.Distinct

theorem Step.distinct {v w : Interleaving} (h : Step v w) (hw : w.Distinct) : v.Distinct := by
  cases h with
  | serve => exact Orchestrator.distinct_of_serve hw

/-- All calls draw from one source. -/
theorem Steps.name_eq {v w : Interleaving} (h : Steps v w) :
    w.orchestrator.ids.name = v.orchestrator.ids.name := by
  induction h with
  | refl => rfl
  | tail _ hs ih =>
    cases hs with
    | serve hm => exact (Orchestrator.ids_serve _ _).1.trans ih

theorem Steps.distinct {v w : Interleaving} (h : Steps v w) (hw : w.Distinct) : v.Distinct := by
  induction h with
  | refl => exact hw
  | tail _ hs ih => exact ih (hs.distinct hw)

theorem Steps.hasDrawn {v w : Interleaving} (h : Steps v w) {u : Uuid}
    (hu : v.orchestrator.ids.HasDrawn u) : w.orchestrator.ids.HasDrawn u := by
  induction h with
  | refl => exact hu
  | tail _ hs ih =>
    cases hs with
    | serve => exact Orchestrator.hasDrawn_serve ih _

/-- What holds at first and is kept by every step, as long as no identifier is drawn
twice, holds in every interleaving whose identifiers differ. -/
theorem Reachable.invariant_of_distinct {P : Interleaving → Prop} {w : Interleaving}
    (h : Reachable w) (hd : w.Distinct) (first : ∀ u, Initial u → P u)
    (step : ∀ v w, Reachable v → w.Distinct → P v → Step v w → P w) : P w := by
  have := h.invariant (P := fun w => w.Distinct → P w) (fun u hu _ => first u hu)
    fun v w hv ih hs hw => step v w hv hw (ih (hs.distinct hw)) hs
  exact this hd

end Interleaving

end Testplan
