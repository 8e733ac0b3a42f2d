import Mathlib.Data.List.TakeWhile
import Testplan.Proofs.ExactHealing
import Testplan.Proofs.Submissions
/-!
# Splitting a plan for security

The scenarios that probe security run in a queue of their own.  A plan is split into the part
with the ordinary scenarios and the part with the security scenarios, and every scenario is in
one of them (`Plan.Split`).  A plan with scenarios of one sort is its own one part, and only the
parts of a mixed plan are new plans (`Plan.CutFrom`).

A submission queues one job for each part.  The job knows its part by its version, and finds it
in the plan store if no other plan was stored under the version before
(`Orchestrator.submit_split`).
-/
namespace Testplan

/-! ## The parts of a plan -/

/-- The scenarios of a part; a part that is absent has none. -/
def Plan.scenariosOf (part : Option Plan) : List Scenario := part.elim [] Plan.cases

/-- **The plan was cut out of another**: it begins a lineage of its own, whose parent is the
other plan, and keeps all but the scenarios, which it counts. -/
structure Plan.CutFrom (part p : Plan) (fresh : Uuid) : Prop where
  id : part.id = ⟨fresh, 1, some p.ref⟩
  baseUrl : part.baseUrl = p.baseUrl
  persona : part.info.persona = p.info.persona
  generatedAt : part.info.generatedAt = p.info.generatedAt
  coverage : part.coverage = p.coverage
  counted : part.Counted

/-- **How a plan is split** into an ordinary part and a security part. -/
structure Plan.Split (p : Plan) (freshOrdinary freshSecurity : Uuid)
    (ordinary security : Option Plan) : Prop where
  ordinary_cases : scenariosOf ordinary = p.cases.filter fun s => !s.isSecurity
  security_cases : scenariosOf security = p.cases.filter Scenario.isSecurity
  /-- Every scenario is in one part, as often as in the plan. -/
  conserved : (scenariosOf ordinary ++ scenariosOf security).Perm p.cases
  /-- A plan without scenarios is ordinary. -/
  ordinary_absent : ordinary = none ↔ p.cases ≠ [] ∧ ∀ s ∈ p.cases, s.isSecurity = true
  security_absent : security = none ↔ ∀ s ∈ p.cases, s.isSecurity = false
  /-- A plan with scenarios of one sort is handed on as it is. -/
  whole : p.isMixed = false →
    (ordinary = some p ∧ security = none) ∨ (ordinary = none ∧ security = some p)
  cut : p.isMixed = true → ∃ a b, ordinary = some a ∧ security = some b ∧
    a.CutFrom p freshOrdinary ∧ b.CutFrom p freshSecurity
  /-- A part says how many scenarios it has, unless it is the plan itself and that does not. -/
  counted : ∀ part, ordinary = some part ∨ security = some part →
    (part.Counted ↔ p.isMixed = true ∨ p.Counted)

namespace Plan

theorem cutFrom_fork (p : Plan) (fresh : Uuid) (cases : List Scenario) :
    (p.fork fresh cases).CutFrom p fresh :=
  ⟨rfl, rfl, rfl, rfl, rfl, p.counted_derived _ cases⟩

/-- The plan is ordinary, probes security, or does both. -/
theorem splitSecurity_cases (p : Plan) (a b : Uuid) :
    (p.isMixed = false ∧ (∀ s ∈ p.cases, s.isSecurity = false) ∧
      p.splitSecurity a b = (some p, none)) ∨
    (p.isMixed = false ∧ p.cases ≠ [] ∧ (∀ s ∈ p.cases, s.isSecurity = true) ∧
      p.splitSecurity a b = (none, some p)) ∨
    (p.isMixed = true ∧ (∃ s ∈ p.cases, s.isSecurity = true) ∧
      (∃ s ∈ p.cases, s.isSecurity = false) ∧
      p.splitSecurity a b =
        (some (p.fork a (p.cases.filter fun s => !s.isSecurity)),
          some (p.fork b (p.cases.filter Scenario.isSecurity)))) := by
  have hsplit : p.splitSecurity a b =
      if (p.cases.filter Scenario.isSecurity).isEmpty then (some p, none)
      else if (p.cases.filter fun s => !s.isSecurity).isEmpty then (none, some p)
      else (some (p.fork a (p.cases.filter fun s => !s.isSecurity)),
        some (p.fork b (p.cases.filter Scenario.isSecurity))) := by
    unfold splitSecurity
    rw [List.partition_eq_filter_filter]
    rfl
  by_cases hnone : ∀ s ∈ p.cases, s.isSecurity = false
  · refine .inl ⟨?_, hnone, ?_⟩
    · simp only [isMixed, Bool.and_eq_false_iff, List.any_eq_false]
      exact .inl fun s hs => by simp [hnone s hs]
    · rw [hsplit, if_pos]
      simpa [List.isEmpty_iff, List.filter_eq_nil_iff] using hnone
  · have hsome : ∃ s ∈ p.cases, s.isSecurity = true := by simpa using hnone
    have hnot : ¬ (p.cases.filter Scenario.isSecurity).isEmpty = true := by
      simpa [List.isEmpty_iff, List.filter_eq_nil_iff] using hsome
    rw [hsplit, if_neg hnot]
    by_cases hall : ∀ s ∈ p.cases, s.isSecurity = true
    · obtain ⟨s, hs, -⟩ := hsome
      refine .inr (.inl ⟨?_, List.ne_nil_of_mem hs, hall, ?_⟩)
      · simp only [isMixed, Bool.and_eq_false_iff, List.any_eq_false]
        exact .inr fun s hs => by simp [hall s hs]
      · rw [if_pos]
        simpa [List.isEmpty_iff, List.filter_eq_nil_iff] using hall
    · have hother : ∃ s ∈ p.cases, s.isSecurity = false := by simpa using hall
      refine .inr (.inr ⟨?_, hsome, hother, ?_⟩)
      · simpa [isMixed] using And.intro hsome hother
      · rw [if_neg]
        simpa [List.isEmpty_iff, List.filter_eq_nil_iff] using hother

/-- **Splitting a plan loses and mixes nothing.** -/
theorem split_splitSecurity (p : Plan) (a b : Uuid) :
    p.Split a b (p.splitSecurity a b).1 (p.splitSecurity a b).2 := by
  have conserved {ordinary security : Option Plan}
      (ho : scenariosOf ordinary = p.cases.filter fun s => !s.isSecurity)
      (hs : scenariosOf security = p.cases.filter Scenario.isSecurity) :
      (scenariosOf ordinary ++ scenariosOf security).Perm p.cases := by
    rw [ho, hs]
    simpa using List.filter_append_perm (fun s => !s.isSecurity) p.cases
  rcases p.splitSecurity_cases a b with
    ⟨hmixed, hnone, hsplit⟩ | ⟨hmixed, hne, hall, hsplit⟩ | ⟨hmixed, ⟨s, hs, hsec⟩, ⟨t, ht, hord⟩, hsplit⟩
  · have ho : scenariosOf (some p) = p.cases.filter fun s => !s.isSecurity :=
      (List.filter_eq_self.mpr fun s hs => by simp [hnone s hs]).symm
    have hsec : scenariosOf none = p.cases.filter Scenario.isSecurity :=
      (List.filter_eq_nil_iff.mpr fun s hs => by simp [hnone s hs]).symm
    rw [hsplit]
    refine ⟨ho, hsec, conserved ho hsec, ?_, iff_of_true rfl hnone, fun _ => .inl ⟨rfl, rfl⟩,
      fun h => by simp [hmixed] at h, ?_⟩
    · refine iff_of_false nofun ?_
      rintro ⟨hne, hall⟩
      obtain ⟨s, hs⟩ := List.exists_mem_of_ne_nil _ hne
      simpa [hnone s hs] using hall s hs
    · rintro part (h | h) <;> cases h
      simp [hmixed]
  · have ho : scenariosOf none = p.cases.filter fun s => !s.isSecurity :=
      (List.filter_eq_nil_iff.mpr fun s hs => by simp [hall s hs]).symm
    have hsec : scenariosOf (some p) = p.cases.filter Scenario.isSecurity :=
      (List.filter_eq_self.mpr hall).symm
    rw [hsplit]
    refine ⟨ho, hsec, conserved ho hsec, iff_of_true rfl ⟨hne, hall⟩, ?_,
      fun _ => .inr ⟨rfl, rfl⟩, fun h => by simp [hmixed] at h, ?_⟩
    · refine iff_of_false nofun fun hnone => ?_
      obtain ⟨s, hs⟩ := List.exists_mem_of_ne_nil _ hne
      simpa [hnone s hs] using hall s hs
    · rintro part (h | h) <;> cases h
      simp [hmixed]
  · rw [hsplit]
    refine ⟨rfl, rfl, conserved rfl rfl, iff_of_false nofun ?_, iff_of_false nofun ?_,
      fun h => by simp [hmixed] at h,
      fun _ => ⟨_, _, rfl, rfl, p.cutFrom_fork a _, p.cutFrom_fork b _⟩, ?_⟩
    · rintro ⟨-, hall⟩
      simpa [hord] using hall t ht
    · intro hnone
      simpa [hsec] using hnone s hs
    · rintro part (h | h) <;> cases h
      · exact iff_of_true (p.counted_derived _ _) (.inl hmixed)
      · exact iff_of_true (p.counted_derived _ _) (.inl hmixed)

end Plan

/-! ## The plan store -/

/-- Plans with different versions, none of which is stored yet, are found after they are
stored. -/
theorem PlanStore.get?_insertAll {store : PlanStore} {plans : List Plan}
    (hdistinct : (plans.map Plan.ref).Nodup) (hnew : ∀ p ∈ plans, store.get? p.ref = none) :
    ∀ p ∈ plans, (plans.foldl insert store).get? p.ref = some p := by
  -- what was stored before stays
  have stays (store : PlanStore) (plans : List Plan) {r : PlanRef} {p : Plan}
      (h : store.get? r = some p) : (plans.foldl insert store).get? r = some p := by
    induction plans generalizing store with
    | nil => exact h
    | cons q rest ih => exact ih _ (by rw [get?_insert, h, Option.some_or])
  induction plans generalizing store with
  | nil => nofun
  | cons first rest ih =>
    rw [List.map_cons, List.nodup_cons] at hdistinct
    intro p hp
    rw [List.foldl_cons]
    rcases List.mem_cons.mp hp with rfl | hp
    · refine stays _ rest ?_
      rw [get?_insert, hnew _ hp, Option.none_or, if_pos rfl]
    · refine ih hdistinct.2 (fun q hq => ?_) p hp
      have hne : first.ref ≠ q.ref := fun h => hdistinct.1 (h ▸ List.mem_map_of_mem hq)
      rw [get?_insert, hnew q (List.mem_cons_of_mem _ hq), Option.none_or, if_neg hne]

namespace Orchestrator

/-- No stored plan has an identifier that is still to be drawn. -/
def NamesNew (o : Orchestrator) : Prop :=
  ∀ k, o.ids.drawn ≤ k → ∀ version, o.plans.get? ⟨o.ids.name k, version⟩ = none

/-- If no part is refused, all parts are stored. -/
theorem plans_enqueueAll (o : Orchestrator) (s : Submission) (environment : Environment)
    {parts : List (QueueName × Plan)} (h : ∀ part ∈ parts, o.takes part = true) :
    (o.enqueueAll s environment parts).1.plans =
      (parts.map Prod.snd).foldl PlanStore.insert o.plans := by
  induction parts generalizing o with
  | nil => rfl
  | cons first rest ih =>
    obtain ⟨n, part⟩ := first
    obtain ⟨hfirst, hrest⟩ := List.forall_mem_cons.mp h
    unfold enqueueAll
    cases ha : o.hall.add? n (o.newJob s environment n part) with
    | none =>
      have hclosed : (o.queue n).closed = true := (QueueHall.add?_eq_none_iff _ n _).mp ha
      simp [takes, hclosed] at hfirst
    | some hall =>
      rw [enqueue_of_added ha]
      refine ih _ ?_
      rwa [(gains_enlisted ha).takes_eq]

/-- The parts of a plan with their queues: first the ordinary part, then that for security. -/
def queueParts (ordinary security : Option Plan) : List (QueueName × Plan) :=
  (ordinary.map fun part => (.run, part)).toList ++
    (security.map fun part => (.security, part)).toList

theorem partsOf_eq (o : Orchestrator) (p : Plan) : (o.partsOf p).2 =
    queueParts (p.splitSecurity (o.ids.name o.ids.drawn) (o.ids.name (o.ids.drawn + 1))).1
      (p.splitSecurity (o.ids.name o.ids.drawn) (o.ids.name (o.ids.drawn + 1))).2 := rfl

/-- The parts have versions of their own, and none of them is stored yet. -/
theorem parts_new {o : Orchestrator} {p : Plan} (hstored : o.plans.get? p.ref = none)
    (hnew : o.NamesNew) (hdistinct : o.ids.name o.ids.drawn ≠ o.ids.name (o.ids.drawn + 1)) :
    (((o.partsOf p).2.map Prod.snd).map Plan.ref).Nodup ∧
      ∀ part ∈ (o.partsOf p).2.map Prod.snd, o.plans.get? part.ref = none := by
  rw [partsOf_eq]
  rcases p.splitSecurity_cases (o.ids.name o.ids.drawn) (o.ids.name (o.ids.drawn + 1)) with
    ⟨-, -, hsplit⟩ | ⟨-, -, -, hsplit⟩ | ⟨-, -, -, hsplit⟩
  · rw [hsplit]
    exact ⟨List.nodup_singleton _, List.forall_mem_singleton.mpr hstored⟩
  · rw [hsplit]
    exact ⟨List.nodup_singleton _, List.forall_mem_singleton.mpr hstored⟩
  · rw [hsplit]
    refine ⟨List.nodup_cons.mpr ⟨fun h => hdistinct ?_, List.nodup_singleton _⟩,
      List.forall_mem_cons.mpr ⟨hnew _ (Nat.le_refl _) 1, List.forall_mem_singleton.mpr ?_⟩⟩
    · exact congrArg PlanRef.id (List.mem_singleton.mp h)
    · exact hnew _ (Nat.le_succ _) 1

/-- Where both queues are open, no part is refused. -/
theorem takes_parts {o : Orchestrator} (hrun : (o.queue .run).closed = false)
    (hsecurity : (o.queue .security).closed = false) (p : Plan) :
    ∀ part ∈ (o.partsOf p).2, o.takes part = true := by
  intro part hpart
  rw [partsOf_eq, queueParts] at hpart
  simp only [List.mem_append, Option.mem_toList, Option.map_eq_some_iff] at hpart
  rcases hpart with ⟨_, -, rfl⟩ | ⟨_, -, rfl⟩
  · simp [takes, hrun]
  · simp [takes, hsecurity]

section InOrder

variable {o : Orchestrator} {s : Submission} {f : Adapter} {environment : Environment}
  (hf : o.adapters.find s.framework = .ok f)
  (he : s.environment.resolve o.host.process = .ok environment)
include hf he

theorem submit_eq_enqueueAll :
    o.submit s = (o.partsOf s.plan).1.enqueueAll s environment (o.partsOf s.plan).2 := by
  unfold submit
  rw [hf, he]

/-- The parts of a plan are named before the jobs. -/
theorem names_apart (hdistinct : (o.submit s).1.ids.Distinct) :
    o.ids.name o.ids.drawn ≠ o.ids.name (o.ids.drawn + 1) := by
  obtain ⟨-, -, ⟨hsource, hdrawn, -⟩, -⟩ :=
    (o.partsOf s.plan).1.gains_enqueueAll s environment (o.partsOf s.plan).2
  rw [← submit_eq_enqueueAll hf he] at hsource hdrawn
  have hname : (o.submit s).1.ids.name = o.ids.name := hsource
  have htwo : o.ids.drawn + 2 ≤ (o.submit s).1.ids.drawn := hdrawn
  intro h
  have heq := hdistinct o.ids.drawn (o.ids.drawn + 1) (by omega) (by omega) (by rw [hname, h])
  omega

/-- Every part is found under its version. -/
theorem get?_plans_submit (hrun : (o.queue .run).closed = false)
    (hsecurity : (o.queue .security).closed = false)
    (hstored : o.plans.get? s.plan.ref = none) (hnew : o.NamesNew)
    (hdistinct : (o.submit s).1.ids.Distinct) :
    ∀ part ∈ (o.partsOf s.plan).2, (o.submit s).1.plans.get? part.2.ref = some part.2 := by
  have hplans : (o.submit s).1.plans =
      ((o.partsOf s.plan).2.map Prod.snd).foldl PlanStore.insert o.plans := by
    rw [submit_eq_enqueueAll hf he]
    exact plans_enqueueAll _ s environment (takes_parts hrun hsecurity s.plan)
  obtain ⟨hnodup, hunknown⟩ := parts_new hstored hnew (names_apart hf he hdistinct)
  rw [hplans]
  exact fun part hpart =>
    PlanStore.get?_insertAll hnodup hunknown _ (List.mem_map_of_mem hpart)

end InOrder

/-- **A submission queues the parts of its plan.**  The plan is split, and where both queues
are open and the submission is in order, one job for each part joins the queue of the part, the
ordinary one before the other; the plan store has the part under the version that the job
keeps. -/
theorem submit_split (o : Orchestrator) (s : Submission)
    (hrun : (o.queue .run).closed = false) (hsecurity : (o.queue .security).closed = false)
    (hstored : o.plans.get? s.plan.ref = none) (hnew : o.NamesNew)
    (hdistinct : (o.submit s).1.ids.Distinct) :
    ∃ ordinary security, s.plan.splitSecurity (o.ids.name o.ids.drawn)
        (o.ids.name (o.ids.drawn + 1)) = (ordinary, security) ∧
      s.plan.Split (o.ids.name o.ids.drawn) (o.ids.name (o.ids.drawn + 1)) ordinary security ∧
      ((∃ e, o.submit s = (o, .error (.config e))) ↔
        ∀ f environment, ¬ (o.adapters.find s.framework = .ok f ∧
          s.environment.resolve o.host.process = .ok environment)) ∧
      ∀ f environment, o.adapters.find s.framework = .ok f →
        s.environment.resolve o.host.process = .ok environment →
        ∃ js, (o.submit s).2 = .ok (js.map Job.id) ∧ (js.map Job.id).Nodup ∧
          o.Gains js (o.submit s).1 ∧
          List.Forall₂ (fun j part => j.MadeFor s environment part ∧
              (o.submit s).1.plans.get? j.plan = some part.2)
            js (queueParts ordinary security) := by
  refine ⟨(s.plan.splitSecurity _ _).1, (s.plan.splitSecurity _ _).2, rfl,
    s.plan.split_splitSecurity _ _, ?_, ?_⟩
  · constructor
    · rintro ⟨e, herror⟩ f environment ⟨hf, he⟩
      obtain ⟨js, -, -, -, hanswer⟩ := gains_submit hf he
      rw [herror] at hanswer
      split at hanswer <;> cases hanswer
    · intro hnot
      rcases o.submit_eq_or_in_order s with h | ⟨f, environment, hf, he⟩
      · exact h
      · exact absurd ⟨hf, he⟩ (hnot f environment)
  · intro f environment hf he
    have htaken := takes_parts hrun hsecurity s.plan
    obtain ⟨js, hgains, hnames, hmade, hanswer⟩ := gains_submit hf he
    rw [List.takeWhile_eq_self_iff.mpr htaken] at hmade
    rw [List.dropWhile_eq_nil_iff.mpr htaken] at hanswer
    have hfound := get?_plans_submit hf he hrun hsecurity hstored hnew hdistinct
    refine ⟨js, hanswer, hnames.nodup hdistinct, hgains, ?_⟩
    rw [← partsOf_eq]
    refine List.forall₂_iff_zip.mpr ⟨hmade.length_eq, fun {j part} hzip => ?_⟩
    have hj : j.MadeFor s environment part := (List.forall₂_iff_zip.mp hmade).2 hzip
    have hplan : j.plan = part.2.ref := congrArg Job.plan hj
    exact ⟨hj, hplan ▸ hfound part (List.of_mem_zip hzip).2⟩

/-- The request with both sorts of scenarios is split, and both its jobs find their parts. -/
theorem mixed_submission_split : ∃ (ordinary security : Plan) (js : List Job),
    Sample.mixed.plan.Split (Sample.uuid 0) (Sample.uuid 1) (some ordinary) (some security) ∧
    (Sample.start.orchestrator.submit Sample.mixed).2 = .ok (js.map Job.id) ∧
    js.map Job.queue = [.run, .security] ∧
    js.map (fun j => (Sample.start.orchestrator.submit Sample.mixed).1.plans.get? j.plan) =
      [some ordinary, some security] := by
  have hdistinct : (Sample.start.orchestrator.submit Sample.mixed).1.ids.Distinct := by
    obtain ⟨cs, hcs⟩ := Sample.start.orchestrator.performs_submit Sample.mixed
    exact Sample.distinct_uuid (hcs.steps [] [] []).name_eq (by decide +kernel)
  obtain ⟨ordinary, security, -, hsplit, -, hjobs⟩ :=
    submit_split Sample.start.orchestrator Sample.mixed rfl rfl rfl (fun _ _ _ => rfl) hdistinct
  obtain ⟨a, b, rfl, rfl, -, -⟩ := hsplit.cut (by decide +kernel)
  obtain ⟨js, hok, -, -, hmade⟩ := hjobs _ _ rfl rfl
  cases hmade with
  | @cons i _ js _ hi hrest =>
    cases hrest with
    | @cons j _ js _ hj hnone =>
      cases hnone
      refine ⟨a, b, [i, j], hsplit, hok, ?_, ?_⟩
      · rw [List.map_cons, List.map_cons, congrArg Job.queue hi.1, congrArg Job.queue hj.1]
        rfl
      · rw [List.map_cons, List.map_cons, hi.2, hj.2]
        rfl

end Orchestrator

end Testplan
