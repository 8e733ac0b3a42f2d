import Testplan.Healing
import Testplan.PlanDocument
import Testplan.Rendering
/-!
# Renderings and corrections as documents

How renderings, with what was left out of them, and corrected plans, with what was
changed in them, are written as documents.
-/
namespace Testplan

open Document

/-- The name of a status of a rendering. -/
def RenderStatus.name : RenderStatus → String
  | .complete => "complete"
  | .incomplete => "partial"
  | .notImplemented => "not_implemented"

def RenderFailure.toDocument (f : RenderFailure) : Document :=
  .map <| always "scenario_id" (.text f.scenarioId) ++
    always "scenario_title" (.text f.scenarioTitle) ++
    always "step_index" (natural f.stepIndex) ++ always "reason" (.text f.reason.message) ++
    always "text" (.text f.message)

def Manifest.toDocument (m : Manifest) : Document :=
  .map <| always "adapter" (.text m.adapter) ++ always "pages" (texts m.pages) ++
    always "count" (natural m.count)

def Manifest.ofDocument? (d : Document) : Option Manifest := do
  let ms ← d.record? ["adapter", "pages", "count"]
  return {
    adapter := ← required? ms "adapter" asText?
    pages := ← required? ms "pages" (asList? asText?)
    count := ← required? ms "count" asNat64? }

def RenderedFile.toDocument (f : RenderedFile) : Document :=
  .map <| always "path" (.text f.path) ++ always "content" (.text f.content)

def Rendering.toDocument (r : Rendering) : Document :=
  .map <| always "status" (.text r.status.name) ++ always "manifest" r.manifest.toDocument ++
    always "files" (.list (r.files.map RenderedFile.toDocument)) ++
    always "failures" (.list (r.failures.map RenderFailure.toDocument))

def HealedStep.toDocument (s : HealedStep) : Document :=
  .map <| always "scenario_id" (.text s.scenarioId) ++ always "step_index" (natural s.stepIndex) ++
    always "from" (.text s.old) ++ always "to" (.text s.new) ++ always "text" (.text s.message)

def HealedPlan.toDocument (h : HealedPlan) : Document :=
  .map <| always "plan" h.plan.toDocument ++
    always "changes" (.list (h.changes.map HealedStep.toDocument))

end Testplan
