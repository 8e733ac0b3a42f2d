import Testplan.Roster
import Testplan.Scenario
import Testplan.SinglePrecision
import Testplan.Timestamp
import Testplan.Uuid
/-!
# Test plans and their lineages

A **plan** is the result of a compilation: a base URL, scenarios, and where they
came from.  Plans are never changed.  A correction is a new version of the same
lineage (`Plan.revise?`), a selection starts a lineage of its own (`Plan.fork`),
and both name the plan that they were derived from as their parent.  Versions are counted
with 32 bits, and the last of them has no next one.

`Plan.splitSecurity` separates the scenarios that probe security from the others;
a plan with only one sort is handed on as it is.

A `PlanStore` keeps plans by their version.  The first plan that is stored under a
version stays; the store never forgets.
-/
namespace Testplan

/-- A version of a lineage of plans. -/
structure PlanRef where
  id : Uuid
  version : UInt32
deriving DecidableEq, Inhabited

/-- The written form of a reference: identifier and version. -/
def PlanRef.render (r : PlanRef) : String := r.id.render ++ "@v" ++ toString r.version

instance : ToString PlanRef := ⟨PlanRef.render⟩

/-- The identity of a plan: its version and the version that it was derived from. -/
structure PlanId where
  id : Uuid
  version : UInt32
  parent : Option PlanRef := none
deriving DecidableEq

/-- Where a plan came from. -/
structure PlanMeta where
  persona : String
  count : Nat
  generatedAt : Timestamp
deriving DecidableEq

/-- How the scenarios of a plan are shared out among the kinds of coverage, in percent. -/
structure CoverageProfile where
  statement : Option Single := none
  branch : Option Single := none
  decision : Option Single := none
  edge : Option Single := none
  security : Option Single := none
  notes : List String := []
deriving DecidableEq

/-- **A test plan.** -/
structure Plan where
  id : PlanId
  baseUrl : String
  cases : List Scenario
  info : PlanMeta
  coverage : Option CoverageProfile := none
deriving DecidableEq

namespace Plan

/-- The first version of a new lineage with identifier `fresh`. -/
def create (fresh : Uuid) (baseUrl persona : String) (cases : List Scenario)
    (generatedAt : Timestamp) : Plan where
  id := { id := fresh, version := 1 }
  baseUrl := baseUrl
  cases := cases
  info := { persona, count := cases.length, generatedAt }

/-- The plan with a coverage profile. -/
def withCoverage (p : Plan) (profile : CoverageProfile) : Plan :=
  { p with coverage := some profile }

/-- The version of a plan. -/
def ref (p : Plan) : PlanRef := ⟨p.id.id, p.id.version⟩

/-- A plan with another identity and other scenarios, and all else the same. -/
def derived (p : Plan) (id : PlanId) (cases : List Scenario) : Plan :=
  { p with id, cases, info := { p.info with count := cases.length } }

/-- The next version of the lineage, unless the counter of versions overflows. -/
def revise? (p : Plan) (cases : List Scenario) : Option Plan :=
  if p.id.version.toNat + 1 < UInt32.size then
    some (p.derived { id := p.id.id, version := p.id.version + 1, parent := some p.ref } cases)
  else none

theorem revise?_eq_some_iff {p q : Plan} {cases : List Scenario} :
    p.revise? cases = some q ↔ p.id.version.toNat + 1 < UInt32.size ∧
      q = p.derived { id := p.id.id, version := p.id.version + 1, parent := some p.ref } cases := by
  unfold revise?
  by_cases h : p.id.version.toNat + 1 < UInt32.size
  · simp [h, eq_comm]
  · simp [h]

theorem revise?_eq_none_iff {p : Plan} {cases : List Scenario} :
    p.revise? cases = none ↔ p.id.version.toNat + 1 = UInt32.size := by
  have hbound := p.id.version.toNat_lt_size
  unfold revise?
  split
  · next h => exact iff_of_false nofun (Nat.ne_of_lt h)
  · next h => exact iff_of_true rfl (by omega)

/-- The first version of a new lineage with identifier `fresh`. -/
def fork (p : Plan) (fresh : Uuid) (cases : List Scenario) : Plan :=
  p.derived { id := fresh, version := 1, parent := some p.ref } cases

/-- A plan has scenarios of both sorts. -/
def isMixed (p : Plan) : Bool :=
  p.cases.any Scenario.isSecurity && p.cases.any fun s => !s.isSecurity

/-- The part with the ordinary scenarios and the part with the security scenarios.
Only a plan with both sorts is divided, into lineages with the identifiers
`freshOrdinary` and `freshSecurity`; a plan without scenarios is ordinary. -/
def splitSecurity (p : Plan) (freshOrdinary freshSecurity : Uuid) :
    Option Plan × Option Plan :=
  let (security, ordinary) := p.cases.partition Scenario.isSecurity
  if security.isEmpty then (some p, none)
  else if ordinary.isEmpty then (none, some p)
  else (some (p.fork freshOrdinary ordinary), some (p.fork freshSecurity security))

/-- A plan without scenarios. -/
def isEmpty (p : Plan) : Bool := p.cases.isEmpty

end Plan

/-! ## Stored plans -/

/-- **The stored plans.** -/
structure PlanStore where
  plans : Roster PlanRef Plan

namespace PlanStore

/-- Nothing is stored yet. -/
def empty : PlanStore := ⟨.empty⟩

instance : Inhabited PlanStore := ⟨empty⟩

/-- The plan with a version. -/
def get? (s : PlanStore) (r : PlanRef) : Option Plan := s.plans.get? r

/-- Stores a plan unless its version is there already. -/
def insert (s : PlanStore) (p : Plan) : PlanStore :=
  match s.get? p.ref with
  | some _ => s
  | none => ⟨s.plans.insert p.ref p⟩

/-- The number of plans. -/
def size (s : PlanStore) : Nat := s.plans.keys.length

/-- Nothing is stored. -/
def isEmpty (s : PlanStore) : Bool := s.size = 0

end PlanStore

end Testplan
