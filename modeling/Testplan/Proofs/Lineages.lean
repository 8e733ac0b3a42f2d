import Testplan.Compile
import Testplan.Proofs.SecuritySplit
/-!
# Lineages

Plans are derived from plans, in any number and in any shape: each can be revised, healed,
forked, split and given a coverage profile, and so can what comes out of that.  A
`PlanFamily` is a first plan with all that was derived from it so far, and one `Step`
derives from any plan of the family.

What is derived keeps where the first plan came from, counts its scenarios, and names the
plan that it was derived from as its parent; a profile, or a split that divides nothing,
keeps the identity of the plan.  So who follows the parents from any plan of a family comes
to the first plan and meets no version twice (`PlanFamily.Reachable.descent`): within a
lineage the versions fall, and a lineage that was left is not entered again, since its
identifier was new when it began.
-/
namespace Testplan

namespace Plan

/-- **A first plan**: one that was compiled, made from scenarios, or read from a file. -/
inductive Original : Plan → Prop
  | created (fresh : Uuid) (baseUrl persona : String) (cases : List Scenario)
      (generatedAt : Timestamp) : Original (create fresh baseUrl persona cases generatedAt)
  | compiled {fresh d env process persona library generatedAt p}
      (h : compilePlan fresh d env process persona library generatedAt = .ok p) : Original p
  | loaded {bytes p} (h : ofBytes bytes = .ok p) : Original p

theorem counted_of_compilePlan {fresh : Uuid} {d : Discovery} {env : Environment}
    {process : Variables} {persona : String} {library : PatternLibrary} {generatedAt : Timestamp}
    {p : Plan} (h : compilePlan fresh d env process persona library generatedAt = .ok p) :
    p.Counted := by
  unfold compilePlan at h
  cases hb : library.bundle persona with
  | error e => simp [hb, bind, Except.bind] at h
  | ok patterns =>
    cases hr : env.resolve process with
    | error e => simp [hb, hr, bind, Except.bind] at h
    | ok resolved =>
      simp only [hb, hr, bind, Except.bind, pure, Except.pure, Except.ok.injEq] at h
      subst h
      rfl

theorem Original.counted {p : Plan} (h : p.Original) : p.Counted := by
  cases h with
  | created => exact counted_create ..
  | compiled h => exact counted_of_compilePlan h
  | @loaded bytes _ h =>
    unfold ofBytes at h
    split at h
    · cases h
    · exact counted_of_ofFileDocument h

/-- A plan has the base URL, the persona and the time of another. -/
structure SameSource (p q : Plan) : Prop where
  baseUrl : q.baseUrl = p.baseUrl
  persona : q.info.persona = p.info.persona
  generatedAt : q.info.generatedAt = p.info.generatedAt

theorem SameSource.trans {p q r : Plan} (h : p.SameSource q) (h' : q.SameSource r) :
    p.SameSource r :=
  ⟨h'.baseUrl.trans h.baseUrl, h'.persona.trans h.persona, h'.generatedAt.trans h.generatedAt⟩

theorem ref_congr {p q : Plan} (h : q.id = p.id) : q.ref = p.ref := by
  rw [ref, h, ref]

end Plan

/-! ## Derivations -/

/-- **What can be done with a plan.** -/
inductive Derivation where
  | revise (cases : List Scenario)
  | heal (d : Discovery) (evidence : String)
  | fork (fresh : Uuid) (cases : List Scenario)
  | withCoverage (profile : CoverageProfile)
  | splitSecurity (freshOrdinary freshSecurity : Uuid)

namespace Derivation

/-- The plans that come out; none if there is no next version or a plan cannot be healed. -/
def results (p : Plan) : Derivation → List Plan
  | revise cases => (p.revise? cases).toList
  | heal d evidence =>
    match p.heal d evidence with
    | .ok h => [h.plan]
    | .error _ | .overflow => []
  | fork fresh cases => [p.fork fresh cases]
  | withCoverage profile => [p.withCoverage profile]
  | splitSecurity a b => (p.splitSecurity a b).1.toList ++ (p.splitSecurity a b).2.toList

/-- The identifiers that are drawn. -/
def fresh : Derivation → List Uuid
  | fork u _ => [u]
  | splitSecurity a b => [a, b]
  | _ => []

/-- The lineage goes on with the next version. -/
def raises : Derivation → Bool
  | revise _ | heal .. => true
  | _ => false

/-- **The identity of what comes out**: the next version of the lineage, or the first one of
a new lineage, with the plan as its parent; or that of the plan. -/
def Identifies (p q : Plan) : Derivation → Prop
  | revise _ | heal .. =>
    q.id = ⟨p.id.id, p.id.version + 1, some p.ref⟩ ∧
      q.id.version.toNat = p.id.version.toNat + 1
  | fork u _ => q.id = ⟨u, 1, some p.ref⟩
  | withCoverage _ => q.id = p.id
  | splitSecurity a b =>
    if p.isMixed then q.id = ⟨a, 1, some p.ref⟩ ∨ q.id = ⟨b, 1, some p.ref⟩ else q = p

variable {p q : Plan} {d : Derivation}

theorem revise?_of_mem_results {cases : List Scenario} (h : q ∈ (revise cases).results p) :
    p.revise? cases = some q := Option.mem_toList.mp h

/-- A plan that was healed is a revision. -/
theorem exists_revise?_of_mem_results {e : Discovery} {evidence : String}
    (h : q ∈ (heal e evidence).results p) : ∃ cases, p.revise? cases = some q := by
  simp only [results] at h
  split at h
  · next healed hh =>
    obtain rfl := List.mem_singleton.mp h
    exact Plan.exists_revise?_of_heal hh
  · cases h
  · cases h

theorem sameSource (h : q ∈ d.results p) : p.SameSource q ∧ (p.Counted → q.Counted) := by
  have derived (id : PlanId) (cases : List Scenario) :
      p.SameSource (p.derived id cases) ∧ (p.Counted → (p.derived id cases).Counted) :=
    ⟨⟨rfl, rfl, rfl⟩, fun _ => rfl⟩
  cases d with
  | revise cases =>
    obtain ⟨-, rfl⟩ := Plan.revise?_eq_some_iff.mp (revise?_of_mem_results h)
    exact derived _ _
  | heal e evidence =>
    obtain ⟨cases, hq⟩ := exists_revise?_of_mem_results h
    obtain ⟨-, rfl⟩ := Plan.revise?_eq_some_iff.mp hq
    exact derived _ _
  | fork u cases =>
    obtain rfl := List.mem_singleton.mp h
    exact derived _ _
  | withCoverage profile =>
    obtain rfl := List.mem_singleton.mp h
    exact ⟨⟨rfl, rfl, rfl⟩, fun hc => hc⟩
  | splitSecurity a b =>
    simp only [results] at h
    rcases p.splitSecurity_cases a b with ⟨-, -, he⟩ | ⟨-, -, -, he⟩ | ⟨-, -, -, he⟩
    · rw [he] at h
      obtain rfl := List.mem_singleton.mp h
      exact ⟨⟨rfl, rfl, rfl⟩, fun hc => hc⟩
    · rw [he] at h
      obtain rfl := List.mem_singleton.mp h
      exact ⟨⟨rfl, rfl, rfl⟩, fun hc => hc⟩
    · rw [he] at h
      rcases List.mem_cons.mp h with rfl | h
      · exact derived _ _
      · obtain rfl := List.mem_singleton.mp h
        exact derived _ _

/-- **What comes out has its identity from the plan.** -/
theorem identifies (h : q ∈ d.results p) : d.Identifies p q := by
  cases d with
  | revise cases =>
    obtain ⟨hroom, rfl⟩ := Plan.revise?_eq_some_iff.mp (revise?_of_mem_results h)
    exact ⟨rfl, toNat_next_version hroom⟩
  | heal e evidence =>
    obtain ⟨cases, hq⟩ := exists_revise?_of_mem_results h
    obtain ⟨hroom, rfl⟩ := Plan.revise?_eq_some_iff.mp hq
    exact ⟨rfl, toNat_next_version hroom⟩
  | fork u cases =>
    obtain rfl := List.mem_singleton.mp h
    rfl
  | withCoverage profile =>
    obtain rfl := List.mem_singleton.mp h
    rfl
  | splitSecurity a b =>
    simp only [results] at h
    simp only [Identifies]
    rcases p.splitSecurity_cases a b with ⟨hm, -, he⟩ | ⟨hm, -, -, he⟩ | ⟨hm, -, -, he⟩
    · rw [he] at h
      rw [if_neg (by simp [hm])]
      exact List.mem_singleton.mp h
    · rw [he] at h
      rw [if_neg (by simp [hm])]
      exact List.mem_singleton.mp h
    · rw [he] at h
      rw [if_pos hm]
      rcases List.mem_cons.mp h with rfl | h
      · exact .inl rfl
      · obtain rfl := List.mem_singleton.mp h
        exact .inr rfl

end Derivation

/-- **How a plan follows another**: with its identity, as its next version, or as the first
version of a new lineage. -/
inductive Plan.Follows (p : Plan) (fresh : List Uuid) (q : Plan) : Prop
  | same (h : q.id = p.id)
  | next (h : q.id = ⟨p.id.id, p.id.version + 1, some p.ref⟩)
      (hv : q.id.version.toNat = p.id.version.toNat + 1)
  | branch (u : Uuid) (hu : u ∈ fresh) (h : q.id = ⟨u, 1, some p.ref⟩)

theorem Derivation.Identifies.follows {p q : Plan} {d : Derivation} (h : d.Identifies p q) :
    p.Follows d.fresh q := by
  cases d with
  | revise cases => exact .next h.1 h.2
  | heal e evidence => exact .next h.1 h.2
  | fork u cases => exact .branch u (by simp [fresh]) h
  | withCoverage profile => exact .same h
  | splitSecurity a b =>
    simp only [Identifies] at h
    split at h
    · rcases h with h | h
      · exact .branch a (by simp [fresh]) h
      · exact .branch b (by simp [fresh]) h
    · exact .same (congrArg Plan.id h)

/-! ## Families -/

/-- **A plan with all that was derived from it**, and the identifiers drawn for that. -/
structure PlanFamily where
  first : Plan
  plans : List Plan := [first]
  drawn : List Uuid := []

namespace PlanFamily

/-- **One derivation**, from any plan of the family.  The identifiers that it draws are
new, and a version that is raised is not the last one that there is. -/
inductive Step : PlanFamily → PlanFamily → Prop
  | derive {w : PlanFamily} {p : Plan} (hp : p ∈ w.plans) (d : Derivation)
      (hfresh : ∀ u ∈ d.fresh, u ≠ w.first.id.id ∧ u ∉ w.drawn)
      (hv : d.raises = true → p.id.version.toNat + 1 < UInt32.size) :
      Step w { w with plans := w.plans ++ d.results p, drawn := w.drawn ++ d.fresh }

/-- **The families that come about.** -/
inductive Reachable : PlanFamily → Prop
  | first {p : Plan} (h : p.Original) : Reachable { first := p }
  | step {v w : PlanFamily} (h : Reachable v) (hs : Step v w) : Reachable w

/-- **The way up from a plan**: the versions that one meets who follows the parents up to
the first plan. -/
inductive Ascends (w : PlanFamily) : Plan → List PlanRef → Prop
  | first {q : Plan} (h : q.ref = w.first.ref) : Ascends w q [q.ref]
  | parent {q p : Plan} {path : List PlanRef} (hne : q.ref ≠ w.first.ref) (hp : p ∈ w.plans)
      (hq : q.id.parent = some p.ref) (h : Ascends w p path) : Ascends w q (q.ref :: path)

/-- The version with which a lineage begins. -/
def base (w : PlanFamily) (u : Uuid) : Nat :=
  if u = w.first.id.id then w.first.id.version.toNat else 1

/-- **A way up on which no version is met twice.**  The versions of the plan's own lineage on
it are not above its own. -/
structure Rises (w : PlanFamily) (q : Plan) (path : List PlanRef) : Prop where
  ascends : w.Ascends q path
  nodup : path.Nodup
  below : ∀ r ∈ path, r.id = q.id.id → r.version.toNat ≤ q.id.version.toNat
  made : ∀ r ∈ path, ∃ p ∈ w.plans, p.ref = r

/-- **The lineages are in order.** -/
structure Sound (w : PlanFamily) : Prop where
  first : w.first ∈ w.plans
  source : ∀ q ∈ w.plans, w.first.SameSource q ∧ q.Counted
  known : ∀ q ∈ w.plans, q.id.id = w.first.id.id ∨ q.id.id ∈ w.drawn
  above : ∀ q ∈ w.plans, w.base q.id.id ≤ q.id.version.toNat
  /-- A version that its lineage did not begin with comes after the version before it. -/
  raised : ∀ q ∈ w.plans, q.id.version.toNat ≠ w.base q.id.id →
    ∃ v, q.id.parent = some ⟨q.id.id, v⟩ ∧ v.toNat + 1 = q.id.version.toNat
  /-- A version has one parent. -/
  same : ∀ p ∈ w.plans, ∀ q ∈ w.plans, p.ref = q.ref → p.id = q.id
  rises : ∀ q ∈ w.plans, ∃ path, w.Rises q path

variable {v w : PlanFamily} {p q : Plan} {path : List PlanRef}

theorem Sound.start (h : p.Original) : Sound { first := p } := by
  have one : ∀ q ∈ ({ first := p } : PlanFamily).plans, q = p := fun q => List.mem_singleton.mp
  exact {
    first := List.mem_singleton.mpr rfl
    source := fun q hq => by
      obtain rfl := one q hq
      exact ⟨⟨rfl, rfl, rfl⟩, h.counted⟩
    known := fun q hq => .inl (congrArg (·.id.id) (one q hq))
    above := fun q hq => by
      obtain rfl := one q hq
      simp [base]
    raised := fun q hq hne => by
      obtain rfl := one q hq
      simp [base] at hne
    same := fun q hq r hr _ => by
      rw [one q hq, one r hr]
    rises := fun q hq => by
      obtain rfl := one q hq
      refine ⟨[q.ref], .first rfl, List.nodup_singleton _, ?_, ?_⟩
      · intro r hr _
        rw [List.mem_singleton.mp hr]
        exact Nat.le_refl _
      · intro r hr
        exact ⟨q, hq, (List.mem_singleton.mp hr).symm⟩ }

/-! ## The way up -/

theorem Ascends.mono (h : v.Ascends q path) (hfirst : w.first = v.first)
    (hplans : ∀ p ∈ v.plans, p ∈ w.plans) : w.Ascends q path := by
  induction h with
  | first hq => exact .first (hfirst ▸ hq)
  | parent hne hp hq _ ih => exact .parent (hfirst ▸ hne) (hplans _ hp) hq ih

theorem Ascends.of_id_eq (h : w.Ascends p path) (hid : q.id = p.id) : w.Ascends q path := by
  have href := Plan.ref_congr hid
  cases h with
  | first hp =>
    rw [← href] at hp ⊢
    exact .first hp
  | parent hne hp hq h =>
    rw [← href] at hne ⊢
    exact .parent hne hp (hid ▸ hq) h

/-- **There is one way up.** -/
theorem Ascends.unique (hsame : ∀ p ∈ w.plans, ∀ q ∈ w.plans, p.ref = q.ref → p.id = q.id)
    (h : w.Ascends p path) {other : List PlanRef} (ho : w.Ascends q other) (hid : q.id = p.id) :
    other = path := by
  induction h generalizing q other with
  | @first p hp =>
    have href := Plan.ref_congr hid
    cases ho with
    | first _ => rw [href]
    | parent hne => exact absurd (href.trans hp) hne
  | @parent p above path hne habove hparent _ ih =>
    have href := Plan.ref_congr hid
    cases ho with
    | first hq => exact absurd (href.symm.trans hq) hne
    | @parent _ above' path' _ habove' hparent' ho =>
      rw [hid, hparent] at hparent'
      have hsameref := Option.some.inj hparent'
      rw [href, ih ho (hsame _ habove' _ habove hsameref.symm)]

/-- More plans leave the way up as it is. -/
theorem Rises.mono (h : v.Rises q path) (hfirst : w.first = v.first)
    (hplans : ∀ p ∈ v.plans, p ∈ w.plans) : w.Rises q path := by
  refine ⟨h.ascends.mono hfirst hplans, h.nodup, h.below, ?_⟩
  intro r hr
  obtain ⟨x, hx, hxr⟩ := h.made r hr
  exact ⟨x, hplans x hx, hxr⟩

/-- Plans with one identity have one way up. -/
theorem Rises.of_id_eq (h : w.Rises p path) (hid : q.id = p.id) : w.Rises q path := by
  refine ⟨h.ascends.of_id_eq hid, h.nodup, ?_, h.made⟩
  rw [hid]
  exact h.below

/-- **The way up goes on below**, from a plan whose version was not met on it. -/
theorem Rises.child (h : w.Rises p path) (hp : p ∈ w.plans) (hq : q ∈ w.plans)
    (hne : q.ref ≠ w.first.ref) (hparent : q.id.parent = some p.ref) (hnew : q.ref ∉ path)
    (hbelow : ∀ r ∈ path, r.id = q.id.id → r.version.toNat ≤ q.id.version.toNat) :
    w.Rises q (q.ref :: path) := by
  refine ⟨.parent hne hp hparent h.ascends, List.nodup_cons.mpr ⟨hnew, h.nodup⟩, ?_, ?_⟩
  · intro r hr hid
    rcases List.mem_cons.mp hr with rfl | hr
    · exact Nat.le_refl _
    · exact hbelow r hr hid
  · intro r hr
    rcases List.mem_cons.mp hr with rfl | hr
    · exact ⟨q, hq, rfl⟩
    · exact h.made r hr

theorem Ascends.getLast?_eq (h : w.Ascends q path) : path.getLast? = some w.first.ref := by
  induction h with
  | first hq => rw [hq]; rfl
  | parent _ _ _ h ih =>
    cases h with
    | first => exact ih
    | parent => exact ih

/-! ## One derivation -/

/-- What came out of a plan of the family, by a derivation that draws new identifiers. -/
structure Joins (w : PlanFamily) (p : Plan) (fresh : List Uuid) (q : Plan) : Prop where
  mem : p ∈ w.plans
  new : ∀ u ∈ fresh, u ≠ w.first.id.id ∧ u ∉ w.drawn
  follows : p.Follows fresh q

section Joins
variable {fresh : List Uuid}

theorem Sound.not_mem_of_new (h : w.Sound) {u : Uuid}
    (hu : u ≠ w.first.id.id ∧ u ∉ w.drawn) : ∀ q ∈ w.plans, q.id.id ≠ u := by
  rintro q hq rfl
  rcases h.known q hq with he | hd
  · exact hu.1 he
  · exact hu.2 hd

theorem Sound.known_of_joins (h : w.Sound) (hj : w.Joins p fresh q) :
    q.id.id = w.first.id.id ∨ q.id.id ∈ w.drawn ++ fresh := by
  have hp := (h.known p hj.mem).imp_right (List.mem_append_left fresh)
  cases hj.follows with
  | same hid => rwa [hid]
  | next hid _ => rwa [hid]
  | branch u hu hid =>
    rw [hid]
    exact .inr (List.mem_append_right _ hu)

theorem Sound.above_of_joins (h : w.Sound) (hj : w.Joins p fresh q) :
    w.base q.id.id ≤ q.id.version.toNat := by
  have hp := h.above p hj.mem
  cases hj.follows with
  | same hid => rwa [hid]
  | next hid hv =>
    have hlineage : q.id.id = p.id.id := by rw [hid]
    rw [hlineage, hv]
    omega
  | branch u hu hid =>
    rw [hid, base, if_neg (hj.new u hu).1]
    exact Nat.le_refl _

theorem Sound.raised_of_joins (h : w.Sound) (hj : w.Joins p fresh q)
    (hne : q.id.version.toNat ≠ w.base q.id.id) :
    ∃ v, q.id.parent = some ⟨q.id.id, v⟩ ∧ v.toNat + 1 = q.id.version.toNat := by
  cases hj.follows with
  | same hid =>
    rw [hid] at hne ⊢
    exact h.raised p hj.mem hne
  | next hid hv =>
    refine ⟨p.id.version, ?_, hv.symm⟩
    rw [hid]
    rfl
  | branch u hu hid =>
    rw [hid, base, if_neg (hj.new u hu).1] at hne
    exact absurd rfl hne

/-- A version that is made again has the parent that it had. -/
theorem Sound.same_of_joins (h : w.Sound) (hj : w.Joins p fresh q) :
    ∀ r ∈ w.plans, r.ref = q.ref → r.id = q.id := by
  intro r hr href
  have hlineage : r.id.id = q.id.id := congrArg PlanRef.id href
  have hversion : r.id.version = q.id.version := congrArg PlanRef.version href
  cases hj.follows with
  | same hid =>
    rw [hid]
    exact h.same r hr p hj.mem (href.trans (Plan.ref_congr hid))
  | next hid hv =>
    have hown : q.id.id = p.id.id := by rw [hid]
    -- the lineage began no later than with the plan that was raised
    have habove := h.above p hj.mem
    obtain ⟨v, hparent, hpred⟩ := h.raised r hr (by rw [hversion, hlineage, hown]; omega)
    have hv' : v = p.id.version := by
      apply UInt32.toNat_inj.mp
      rw [hversion] at hpred
      omega
    have hsame : r.id = ⟨r.id.id, r.id.version, r.id.parent⟩ := rfl
    rw [hsame, hparent, hlineage, hversion, hv', hown, hid]
    rfl
  | branch u hu hid =>
    have hfresh := h.not_mem_of_new (hj.new u hu) r hr
    rw [hlineage, hid] at hfresh
    exact absurd rfl hfresh

/-- Two plans that came out of one derivation with one version have one parent. -/
theorem Sound.same_of_joins_joins (h : w.Sound) {r : Plan} (hq : w.Joins p fresh q)
    (hr : w.Joins p fresh r) (href : q.ref = r.ref) : q.id = r.id := by
  have hlineage : q.id.id = r.id.id := congrArg PlanRef.id href
  have hversion : q.id.version = r.id.version := congrArg PlanRef.version href
  cases hr.follows with
  | same hid =>
    rw [hid]
    exact (h.same_of_joins hq p hq.mem ((Plan.ref_congr hid).symm.trans href.symm)).symm
  | next hid hv =>
    cases hq.follows with
    | same hid' =>
      rw [hid'] at hversion
      rw [← hversion] at hv
      omega
    | next hid' _ => rw [hid, hid']
    | branch u hu hid' =>
      have hfresh := h.not_mem_of_new (hq.new u hu) p hq.mem
      rw [hid, hid'] at hlineage
      exact absurd hlineage.symm hfresh
  | branch u hu hid =>
    have hfresh := h.not_mem_of_new (hr.new u hu) p hr.mem
    cases hq.follows with
    | same hid' =>
      rw [hid, hid'] at hlineage
      exact absurd hlineage hfresh
    | next hid' _ =>
      rw [hid, hid'] at hlineage
      exact absurd hlineage hfresh
    | branch u' hu' hid' =>
      rw [hid, hid'] at hlineage
      obtain rfl : u' = u := hlineage
      rw [hid, hid']

/-- **A plan that came out has a way up**: that of the plan, with its own version before it
if that is another. -/
theorem Sound.rises_of_joins (h : v.Sound) (hj : v.Joins p fresh q)
    (hfirst : w.first = v.first) (hplans : ∀ p ∈ v.plans, p ∈ w.plans) (hq : q ∈ w.plans) :
    ∃ path, w.Rises q path := by
  obtain ⟨path, hpath⟩ := h.rises p hj.mem
  have hup : w.Rises p path := hpath.mono hfirst hplans
  have hp : p ∈ w.plans := hplans p hj.mem
  cases hj.follows with
  | same hid => exact ⟨path, hup.of_id_eq hid⟩
  | next hid hv =>
    have hown : q.id.id = p.id.id := by rw [hid]
    refine ⟨_, hup.child hp hq ?_ (by rw [hid]) ?_ ?_⟩
    · -- the first version of the first lineage is the first plan's, and this one is above it
      intro href
      have hbase := h.above p hj.mem
      have hlineage : q.id.id = w.first.id.id := congrArg PlanRef.id href
      have hversion : q.id.version = w.first.id.version := congrArg PlanRef.version href
      rw [base, if_pos (by rw [← hown, hlineage, hfirst]), ← hfirst, ← hversion] at hbase
      omega
    · intro hin
      have hle : q.id.version.toNat ≤ p.id.version.toNat := hup.below q.ref hin hown
      omega
    · intro r hr hrid
      have hle := hup.below r hr (hrid.trans hown)
      omega
  | branch u hu hid =>
    have hnew := hj.new u hu
    have hown : q.id.id = u := by rw [hid]
    have habsent : ∀ r ∈ path, r.id ≠ u := by
      intro r hr hru
      obtain ⟨x, hx, rfl⟩ := hpath.made r hr
      exact h.not_mem_of_new hnew x hx hru
    refine ⟨_, hup.child hp hq ?_ (by rw [hid]) (fun hin => habsent _ hin hown) ?_⟩
    · intro href
      refine hnew.1 ?_
      rw [← hown, ← hfirst]
      exact congrArg PlanRef.id href
    · intro r hr hrid
      exact absurd (hrid.trans hown) (habsent r hr)

end Joins

/-- **One derivation leaves the lineages in order.** -/
theorem Sound.step (h : v.Sound) (hs : Step v w) : w.Sound := by
  cases hs with
  | @derive p hp d hfresh hv =>
    have hjoins : ∀ q ∈ d.results p, v.Joins p d.fresh q :=
      fun q hq => ⟨hp, hfresh, (d.identifies hq).follows⟩
    have hold : ∀ q ∈ v.plans, q ∈ v.plans ++ d.results p :=
      fun q hq => List.mem_append_left _ hq
    exact {
      first := hold _ h.first
      source := fun q hq => by
        rcases List.mem_append.mp hq with hq | hq
        · exact h.source q hq
        · obtain ⟨hsource, hcounted⟩ := Derivation.sameSource hq
          exact ⟨(h.source p hp).1.trans hsource, hcounted (h.source p hp).2⟩
      known := fun q hq => by
        rcases List.mem_append.mp hq with hq | hq
        · exact (h.known q hq).imp_right (List.mem_append_left _)
        · exact h.known_of_joins (hjoins q hq)
      above := fun q hq => by
        rcases List.mem_append.mp hq with hq | hq
        · exact h.above q hq
        · exact h.above_of_joins (hjoins q hq)
      raised := fun q hq => by
        rcases List.mem_append.mp hq with hq | hq
        · exact h.raised q hq
        · exact h.raised_of_joins (hjoins q hq)
      same := fun q hq r hr href => by
        rcases List.mem_append.mp hq with hq | hq
        · rcases List.mem_append.mp hr with hr | hr
          · exact h.same q hq r hr href
          · exact h.same_of_joins (hjoins r hr) q hq href
        · rcases List.mem_append.mp hr with hr | hr
          · exact (h.same_of_joins (hjoins q hq) r hr href.symm).symm
          · exact h.same_of_joins_joins (hjoins q hq) (hjoins r hr) href
      rises := fun q hq => by
        rcases List.mem_append.mp hq with hold' | hnew
        · obtain ⟨path, hpath⟩ := h.rises q hold'
          exact ⟨path, hpath.mono rfl hold⟩
        · exact h.rises_of_joins (hjoins q hnew) rfl hold hq }

theorem Reachable.sound (h : Reachable w) : w.Sound := by
  induction h with
  | first hp => exact Sound.start hp
  | step _ hs ih => exact ih.step hs

/-- **Every plan of a family comes from the first one.**  It counts its scenarios and keeps
base URL, persona and time of the first plan; what is derived from it has the identity
that says so; and who follows the parents from it meets no version twice and comes to
the first plan. -/
theorem Reachable.descent (h : Reachable w) :
    (∀ q ∈ w.plans, q.info.count = q.cases.length ∧ q.baseUrl = w.first.baseUrl ∧
      q.info.persona = w.first.info.persona ∧ q.info.generatedAt = w.first.info.generatedAt) ∧
    (∀ p ∈ w.plans, ∀ (d : Derivation), ∀ q ∈ d.results p,
      (d.raises = true → p.id.version.toNat + 1 < UInt32.size) → d.Identifies p q) ∧
    (∀ p ∈ w.plans, ∀ q ∈ w.plans, p.ref = q.ref → p.id = q.id) ∧
    (∀ q ∈ w.plans, ∃ path, w.Ascends q path ∧ path.Nodup ∧
      path.getLast? = some w.first.ref ∧ (∀ r ∈ path, ∃ p ∈ w.plans, p.ref = r) ∧
      ∀ other, w.Ascends q other → other = path) := by
  have hsound := h.sound
  refine ⟨?_, fun p _ d q hq _ => d.identifies hq, hsound.same, ?_⟩
  · intro q hq
    obtain ⟨hsource, hcounted⟩ := hsound.source q hq
    exact ⟨hcounted, hsource.baseUrl, hsource.persona, hsource.generatedAt⟩
  · intro q hq
    obtain ⟨path, hpath⟩ := hsound.rises q hq
    exact ⟨path, hpath.ascends, hpath.nodup, hpath.ascends.getLast?_eq, hpath.made,
      fun other ho => hpath.ascends.unique hsound.same ho rfl⟩

end PlanFamily

namespace Sample

/-- A plan with scenarios of both sorts. -/
def twofold : Plan := .create (uuid 1000) "/" "sdet" mixed.plan.cases ⟨0, 0⟩

/-- The part of the plan with the ordinary scenarios. -/
def ordinaryPart : Plan :=
  twofold.fork (uuid 0) (twofold.cases.filter fun s => !s.isSecurity)

/-- The next version of the part, with no scenarios. -/
def emptiedPart : Plan := ordinaryPart.derived ⟨uuid 0, 2, some ⟨uuid 0, 1⟩⟩ []

end Sample

namespace PlanFamily
open Sample

/-- A plan is split and one part revised.  The way up from the revision leads over the part. -/
theorem descent_of_revised_part : ∃ w, Reachable w ∧ w.first = twofold ∧
    emptiedPart ∈ w.plans ∧ ∃ path, w.Ascends emptiedPart path ∧
      path = [⟨uuid 0, 2⟩, ⟨uuid 0, 1⟩, ⟨uuid 1000, 1⟩] ∧ path.Nodup := by
  have hfirst : Reachable { first := twofold } :=
    .first (.created ..)
  have hsplit := hfirst.step (.derive (List.mem_singleton.mpr rfl)
    (.splitSecurity (uuid 0) (uuid 1)) (by decide +kernel) nofun)
  have hpart : ordinaryPart ∈ [twofold] ++
      (Derivation.splitSecurity (uuid 0) (uuid 1)).results twofold := by
    decide +kernel
  have hrevised := hsplit.step (.derive hpart (.revise []) nofun fun _ => by decide +kernel)
  have hemptied : emptiedPart ∈ (Derivation.revise []).results ordinaryPart := by decide +kernel
  refine ⟨_, hrevised, rfl, List.mem_append_right _ hemptied, ?_⟩
  obtain ⟨-, -, -, hways⟩ := hrevised.descent
  obtain ⟨path, hpath, hnodup, -, -, hunique⟩ :=
    hways emptiedPart (List.mem_append_right _ hemptied)
  refine ⟨path, hpath, (hunique _ ?_).symm, hnodup⟩
  refine .parent (p := ordinaryPart) (by decide +kernel) (List.mem_append_left _ hpart) rfl ?_
  refine .parent (p := twofold) (by decide +kernel) ?_ rfl (.first rfl)
  exact List.mem_append_left _ (List.mem_append_left _ (List.mem_singleton.mpr rfl))

end PlanFamily

end Testplan
