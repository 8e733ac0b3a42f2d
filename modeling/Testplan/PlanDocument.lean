import Testplan.Document
import Testplan.Plan
/-!
# Plans as documents

How steps, scenarios and plans are written as documents and read from them.
Optional members are left out when they have no value, so that an absent text and
an empty one stay apart; tags are written in order, whatever order they are read in.
-/
namespace Testplan

open Document

/-! ## Steps and scenarios -/

/-- A name of one of finitely many things: a text, a tag on nothing, or the only key of a
mapping to nothing. -/
def asName? {α : Type} (ofName? : String → Option α) : Document → Option α
  | .tagged tag d => match tag.toList, d with
    | '!' :: name, .plain s => if isNullText s then ofName? (String.ofList name) else none
    | '!' :: _, _ => none
    | _, d => d.asText?.bind ofName?
  | .map [(name, .null)] => ofName? name
  | d => d.asText?.bind ofName?

def Step.toDocument (s : Step) : Document :=
  .map <| always "kind" (.text s.kind.name) ++ ifSome "target" s.target .text ++
    ifSome "value" s.value .text ++ ifSome "note" s.note .text

def Step.ofDocument? (d : Document) : Option Step := do
  let ms ← d.record? ["kind", "target", "value", "note"]
  return {
    kind := ← required? ms "kind" (asName? StepKind.ofName?)
    target := ← optional? ms "target" asText?
    value := ← optional? ms "value" asText?
    note := ← optional? ms "note" asText? }

def Scenario.toDocument (s : Scenario) : Document :=
  .map <| always "id" (.text s.id) ++ always "title" (.text s.title) ++
    always "coverage_type" (.text s.coverage.name) ++
    ifSome "description" s.description .text ++ always "tags" (texts s.tags.keys) ++
    ifSome "risk" s.risk (fun r => .text r.name) ++
    always "steps" (.list (s.steps.map Step.toDocument))

def Scenario.ofDocument? (d : Document) : Option Scenario := do
  let ms ← d.record? ["id", "title", "coverage_type", "description", "tags", "risk", "steps"]
  return {
    id := ← required? ms "id" asText?
    title := ← required? ms "title" asText?
    coverage := ← required? ms "coverage_type" (asName? CoverageType.ofName?)
    description := ← optional? ms "description" asText?
    tags := .ofTags (← withDefault? ms "tags" (asList? asText?) [])
    risk := ← optional? ms "risk" (asName? Risk.ofName?)
    steps := ← required? ms "steps" (asList? Step.ofDocument?) }

/-! ## Plans -/

def asUuid? (d : Document) : Option Uuid := d.asText?.bind Uuid.parse?

def asVersion? (d : Document) : Option UInt32 := (d.asNat? (1 <<< 32)).map UInt32.ofNat

def asTimestamp? (d : Document) : Option Timestamp := d.asText?.bind Timestamp.parse?

def PlanRef.toDocument (r : PlanRef) : Document :=
  .map <| always "id" (.text r.id.render) ++ always "version" (natural r.version.toNat)

def PlanRef.ofDocument? (d : Document) : Option PlanRef := do
  let ms ← d.record? ["id", "version"]
  return { id := ← required? ms "id" asUuid?, version := ← required? ms "version" asVersion? }

def PlanId.toDocument (i : PlanId) : Document :=
  .map <| always "id" (.text i.id.render) ++ always "version" (natural i.version.toNat) ++
    ifSome "parent" i.parent PlanRef.toDocument

def PlanId.ofDocument? (d : Document) : Option PlanId := do
  let ms ← d.record? ["id", "version", "parent"]
  return {
    id := ← required? ms "id" asUuid?
    version := ← required? ms "version" asVersion?
    parent := ← optional? ms "parent" PlanRef.ofDocument? }

def PlanMeta.toDocument (m : PlanMeta) : Document :=
  .map <| always "persona" (.text m.persona) ++ always "count" (natural m.count) ++
    always "generated_at" (.text m.generatedAt.render)

def PlanMeta.ofDocument? (d : Document) : Option PlanMeta := do
  let ms ← d.record? ["persona", "count", "generated_at"]
  return {
    persona := ← required? ms "persona" asText?
    count := ← required? ms "count" asNat64?
    generatedAt := ← required? ms "generated_at" asTimestamp? }

def CoverageProfile.toDocument (c : CoverageProfile) : Document :=
  .map <| ifSome "statement" c.statement .float ++ ifSome "branch" c.branch .float ++
    ifSome "decision" c.decision .float ++ ifSome "edge" c.edge .float ++
    ifSome "security" c.security .float ++ always "notes" (texts c.notes)

def CoverageProfile.ofDocument? (d : Document) : Option CoverageProfile := do
  let ms ← d.record? ["statement", "branch", "decision", "edge", "security", "notes"]
  return {
    statement := ← optional? ms "statement" asFloat?
    branch := ← optional? ms "branch" asFloat?
    decision := ← optional? ms "decision" asFloat?
    edge := ← optional? ms "edge" asFloat?
    security := ← optional? ms "security" asFloat?
    notes := ← withDefault? ms "notes" (asList? asText?) [] }

def Plan.toDocument (p : Plan) : Document :=
  .map <| always "id" p.id.toDocument ++ always "base_url" (.text p.baseUrl) ++
    always "cases" (.list (p.cases.map Scenario.toDocument)) ++
    always "meta" p.info.toDocument ++
    ifSome "coverage" p.coverage CoverageProfile.toDocument

def Plan.ofDocument? (d : Document) : Option Plan := do
  let ms ← d.record? ["id", "base_url", "cases", "meta", "coverage"]
  return {
    id := ← required? ms "id" PlanId.ofDocument?
    baseUrl := ← required? ms "base_url" asText?
    cases := ← required? ms "cases" (asList? Scenario.ofDocument?)
    info := ← required? ms "meta" PlanMeta.ofDocument?
    coverage := ← optional? ms "coverage" CoverageProfile.ofDocument? }

end Testplan
