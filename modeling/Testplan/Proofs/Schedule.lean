import Testplan.Proofs.Interleaving
/-!
# Schedules

A `Turn` says whose call is served next, and with a schedule, a list of turns, an
interleaving can be computed (`Interleaving.follow`).  What a routine calls next is
determined by how far it has come and by the parties (`Routine.next?`), except that the
tests of a plan end with some verdict, which the turn names.  A turn that cannot be taken
changes nothing.

Every computed interleaving is reached by steps (`Interleaving.steps_follow`), so a
schedule whose result can be evaluated shows that something comes about.
-/
namespace Testplan

/-- **Whose call is served next.** -/
inductive Turn where
  /-- A submission begins. -/
  | submit (s : Submission)
  /-- A worker asks a queue for a job. -/
  | take (n : QueueName)
  /-- The routine with a number goes on. -/
  | go (index : Nat)
  /-- The tests of the routine with a number end with a verdict. -/
  | judge (index : Nat) (v : Verdict)
  /-- Somebody looks whether a queue is idle. -/
  | poll (n : QueueName)

/-- The next call of a routine and what becomes of the routine. -/
def Routine.next? (o : Orchestrator) : Routine → Option (Call × Option Routine)
  | submitting ⟨_, _, []⟩ => none
  | submitting ⟨s, environment, (n, part) :: parts⟩ =>
    let j := o.newJob s environment n part
    some (.create s part j, some (.adding ⟨s, environment, parts⟩ j))
  | adding r j =>
    match o.hall.add? j.queue j with
    | some _ => some (.add j.queue j, some (.listing r j))
    | none => some (.refuse j.queue j.id, none)
  | listing r j => some (.record j, some (.announcing r j))
  | announcing r j => some (.send j.id (.queued j.queue j.attempt), r.routine?)
  | opening n j => some (.record (o.start j).2, some (.starting n (o.start j).2))
  | starting n j => some (.send j.id (.started j.queue j.attempt), some (.fetching n j))
  | fetching n j => some (.fetch j (o.plans.get? j.plan), some (.working n j))
  | working .. => none
  | correcting n j =>
    match o.healedPlan j with
    | .error e => some (.consult j, some (.concluding n (Orchestrator.withRemark j e)))
    | .ok h => some (.consult j, some (.storing n j h))
    | .overflow => none
  | storing n j h => some (.correct j h, some (.handing n j h))
  | handing n j h =>
    match j.requeueForHealing? h.plan.ref with
    | none => none
    | some healed =>
      match o.hall.add? .healing healed with
      | some _ => some (.add .healing healed, some (.releasing n h healed))
      | none => some (.refuse .healing j.id, some (.concluding n j))
  | releasing n h healed => some (.release n healed.id, some (.relisting h healed))
  | relisting h healed => some (.record healed, some (.telling h healed))
  | telling h healed =>
    some (.send healed.id (.healing h.plan.ref h.changes), some (.requeueing healed))
  | requeueing healed => some (.send healed.id (.queued healed.queue healed.attempt), none)
  | concluding n j => some (.record j, some (.finishing n j))
  | finishing n j => some (.send j.id (.finished j.queue j.status), some (.completing n j))
  | completing n j => some (.complete n j, none)

theorem Routine.moves_of_next? {o : Orchestrator} {t : Routine} {c : Call} {t' : Option Routine}
    (h : t.next? o = some (c, t')) : Moves o (some t) c t' := by
  cases t with
  | submitting r =>
    obtain ⟨s, environment, parts⟩ := r
    cases parts with
    | nil => cases h
    | cons p rest =>
      cases h
      exact .create
  | adding r j =>
    simp only [next?] at h
    cases ha : o.hall.add? j.queue j with
    | some hall =>
      rw [ha] at h
      cases h
      exact .add ha
    | none =>
      rw [ha] at h
      cases h
      exact .decline ha
  | correcting n j =>
    simp only [next?] at h
    cases hp : o.healedPlan j with
    | error e =>
      rw [hp] at h
      cases h
      exact .despair hp
    | ok p =>
      rw [hp] at h
      cases h
      exact .mend hp
    | overflow =>
      rw [hp] at h
      cases h
  | handing n j p =>
    simp only [next?] at h
    cases hj : j.requeueForHealing? p.plan.ref with
    | none =>
      rw [hj] at h
      cases h
    | some healed =>
      rw [hj] at h
      dsimp only at h
      cases ha : o.hall.add? .healing healed with
      | some hall =>
        rw [ha] at h
        cases h
        exact .hand hj ha
      | none =>
        rw [ha] at h
        cases h
        refine .reject ?_
        simp [Orchestrator.handOff?, hj, ha]
  | working n j => cases h
  | listing r j => cases h; exact .list
  | announcing r j => cases h; exact .announce
  | opening n j => cases h; exact .openAttempt
  | starting n j => cases h; exact .begin
  | fetching n j => cases h; exact .fetch
  | storing n j p => cases h; exact .store
  | releasing n p healed => cases h; exact .release
  | relisting p healed => cases h; exact .relist
  | telling p healed => cases h; exact .tell
  | requeueing healed => cases h; exact .requeue
  | concluding n j => cases h; exact .conclude
  | finishing n j => cases h; exact .finish
  | completing n j => cases h; exact .complete

namespace Interleaving

/-- Serves a call of the routine with a number, or of a new one. -/
def serveAt (w : Interleaving) (index : Nat) (c : Call) (t' : Option Routine) : Interleaving where
  orchestrator := w.orchestrator.serve c
  tasks := w.tasks.take index ++ t'.toList ++ w.tasks.drop (index + 1)
  calls := w.calls ++ [c]

theorem step_serveAt {w : Interleaving} {index : Nat} {t : Routine} {c : Call}
    {t' : Option Routine} (ht : w.tasks[index]? = some t)
    (h : Moves w.orchestrator (some t) c t') : Step w (w.serveAt index c t') := by
  have hs : Step _ (w.serveAt index c t') :=
    .serve h (w.tasks.take index) (w.tasks.drop (index + 1)) w.calls
  obtain ⟨hi, rfl⟩ := List.getElem?_eq_some_iff.mp ht
  have hw : w.tasks.take index ++ (some w.tasks[index]).toList ++ w.tasks.drop (index + 1) =
      w.tasks := by
    rw [Option.toList_some, List.append_assoc, List.singleton_append, List.getElem_cons_drop,
      List.take_append_drop]
  rwa [hw] at hs

theorem step_serveAt_length {w : Interleaving} {c : Call} {t' : Option Routine}
    (h : Moves w.orchestrator none c t') : Step w (w.serveAt w.tasks.length c t') := by
  have hs := Step.serve h w.tasks [] w.calls
  have hw : w.tasks ++ (none : Option Routine).toList ++ [] = w.tasks := by simp
  have he : w.tasks ++ t'.toList ++ [] =
      w.tasks.take w.tasks.length ++ t'.toList ++ w.tasks.drop (w.tasks.length + 1) := by
    simp
  rw [hw, he] at hs
  exact hs

/-- **The interleaving after a turn.** -/
def turn (w : Interleaving) : Turn → Interleaving
  | .submit s =>
    match w.orchestrator.adapters.find s.framework,
      s.environment.resolve w.orchestrator.host.process with
    | .ok _, .ok environment =>
      w.serveAt w.tasks.length (.accept s)
        (Intake.routine? ⟨s, environment, (w.orchestrator.partsOf s.plan).2⟩)
    | _, _ => w
  | .take n =>
    let token := w.orchestrator.hall.token
    match (w.orchestrator.hall.ask n token).2 with
    | .job j => w.serveAt w.tasks.length (.take n token j) (some (.opening n j))
    | _ => w
  | .go index =>
    match w.tasks[index]? with
    | none => w
    | some t =>
      match t.next? w.orchestrator with
      | none => w
      | some (c, t') => w.serveAt index c t'
  | .judge index v =>
    match w.tasks[index]? with
    | some (.working n j) =>
      let ended := Orchestrator.judged j v
      w.serveAt index (.judge j v)
        (some (if ended.isHealable then .correcting n ended else .concluding n ended))
    | _ => w
  | .poll n => w.serveAt w.tasks.length (.poll n (w.orchestrator.queue n).isIdle) none

/-- **The interleaving after a schedule.** -/
def follow (w : Interleaving) (schedule : List Turn) : Interleaving := schedule.foldl turn w

theorem steps_turn (w : Interleaving) (turn : Turn) : Steps w (w.turn turn) := by
  have one : ∀ {w' : Interleaving}, Step w w' → Steps w w' := fun h => (Steps.refl w).tail h
  cases turn with
  | submit s =>
    simp only [Interleaving.turn]
    split
    · next ha he => exact one (step_serveAt_length (.accept ha he))
    · exact .refl w
  | take n =>
    simp only [Interleaving.turn]
    split
    · next j ht => exact one (step_serveAt_length (.take ht))
    · exact .refl w
  | go index =>
    simp only [Interleaving.turn]
    split
    · exact .refl w
    · next t ht =>
      split
      · exact .refl w
      · next c t' hn => exact one (step_serveAt ht (Routine.moves_of_next? hn))
  | judge index v =>
    simp only [Interleaving.turn]
    split
    · next n j ht =>
      cases hj : (Orchestrator.judged j v).isHealable with
      | true => exact one (step_serveAt ht (.fail hj))
      | false => exact one (step_serveAt ht (.settle hj))
    · exact .refl w
  | poll n => exact one (step_serveAt_length .poll)

/-- **A schedule is followed in steps.** -/
theorem steps_follow (w : Interleaving) (schedule : List Turn) : Steps w (w.follow schedule) := by
  induction schedule generalizing w with
  | nil => exact .refl w
  | cons turn rest ih => exact (w.steps_turn turn).trans (ih (w.turn turn))

theorem Reachable.follow {w : Interleaving} (h : Reachable w) (schedule : List Turn) :
    Reachable (w.follow schedule) := h.steps (w.steps_follow schedule)

/-- What a schedule adds to the history comes after what was there. -/
theorem calls_follow (w : Interleaving) (schedule : List Turn) :
    (w.follow schedule).calls = w.calls ++ (w.follow schedule).calls.drop w.calls.length := by
  obtain ⟨rest, hr⟩ := (w.steps_follow schedule).isPrefix
  rw [← hr, List.drop_left]

end Interleaving

/-! ## A small plan -/

namespace Sample

/-- Identifiers that count up. -/
def uuid (n : Nat) : Uuid := ⟨BitVec.ofNat 128 n⟩

/-- An application whose one field has a label and a name. -/
def discovery (name : String) : Discovery where
  pages := [{
    path := "/"
    forms := [{ fields := [{ label := some "Email", name := some name }] }] }]

/-- A plan with one scenario, which fills the field that a locator finds. -/
def plan (coverage : CoverageType) (locator : String) : Plan where
  id := ⟨uuid 1000, 1, none⟩
  baseUrl := "/"
  cases := [{ id := "fill", title := "Fill", coverage, steps := [.fill locator "x"] }]
  info := ⟨"sdet", 1, ⟨0, 0⟩⟩

/-- The plan that finds the field by its name, as a correction of the plan. -/
def correction (name : String) : Plan :=
  { plan .statement ("name=" ++ name) with id := ⟨uuid 1000, 2, some ⟨uuid 1000, 1⟩⟩ }

/-- A request to run the plan that finds the field by its label, where the field has a
name. -/
def submission (coverage : CoverageType) (name : String) : Submission where
  plan := plan coverage "label=Email"
  framework := "playwright-ts"
  discovery := some (discovery name)

/-- The failure of a run that does not find the field. -/
def notFound : Verdict :=
  .failed { kind := .selectorNotFound, message := "getByLabel('Email')" }

/-- Nothing was submitted yet. -/
def start : Interleaving :=
  ⟨.ofConfiguration { workRoot := "work" } (.builtin {}) {} { name := uuid }, [], []⟩

theorem reachable_start : start.Reachable := Interleaving.reachable_ofConfiguration ..

/-- Few identifiers differ from each other. -/
theorem distinct_uuid {s : IdSource} (hs : s.name = uuid) (hd : s.drawn ≤ 100) : s.Distinct := by
  intro a b ha hb he
  rw [hs] at he
  have := congrArg (fun u => u.val.toNat) he
  simp only [uuid, BitVec.toNat_ofNat] at this
  rw [Nat.mod_eq_of_lt (by omega), Nat.mod_eq_of_lt (by omega)] at this
  exact this

theorem distinct_of_drawn_le {w : Interleaving} (h : Interleaving.Steps start w)
    (hd : w.orchestrator.ids.drawn ≤ 100) : w.Distinct :=
  distinct_uuid h.name_eq hd

end Sample

end Testplan
