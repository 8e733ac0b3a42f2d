import Testplan.Configuration
import Testplan.DiscoveryDocument
import Testplan.FileTree
import Testplan.PlanDocument
import Testplan.YamlPrinter
/-!
# Files of plans, discoveries, environments and configurations

All are read from YAML.  A plan must moreover say how many scenarios it has, and be
right about it.  In a configuration the placeholders are replaced first, in the whole
text; no variables are at hand there but those of the process.
-/
namespace Testplan

/-! ## Plans -/

/-- Why a file is no plan. -/
inductive PlanFileError where
  /-- The bytes are no text. -/
  | notText
  /-- The text does not describe a plan. -/
  | malformed
  /-- The plan has another number of scenarios than it says. -/
  | countMismatch (stated actual : Nat)
deriving DecidableEq, Repr

/-- The wording of a wrong count. -/
def countMismatchMessage (stated actual : Nat) : String :=
  "플랜 메타 개수(" ++ toString stated ++ ")가 시나리오 수(" ++ toString actual ++ ")와 다릅니다."

namespace Plan

/-- The plan that a document describes. -/
def ofFileDocument (d : Option Document) : Except PlanFileError Plan :=
  match d.bind Plan.ofDocument? with
  | none => .error .malformed
  | some p =>
    if p.info.count = p.cases.length then .ok p
    else .error (.countMismatch p.info.count p.cases.length)

/-- The plan that a text describes. -/
def ofYaml (s : String) : Except PlanFileError Plan := ofFileDocument (Document.ofYaml? s)

/-- The plan in a file with these bytes. -/
def ofBytes (bytes : ByteArray) : Except PlanFileError Plan :=
  match String.fromUTF8? bytes with
  | none => .error .notText
  | some s => ofYaml s

/-- The text of a plan. -/
def toYaml (p : Plan) : String := p.toDocument.toYaml

end Plan

/-! ## What else is read -/

/-- The discovery that a text describes. -/
def Discovery.ofYaml? (s : String) : Option Discovery :=
  (Document.ofYaml? s).bind Discovery.ofDocument?

/-- The environment that a text describes. -/
def Environment.ofYaml? (s : String) : Option Environment :=
  (Document.ofYaml? s).bind Environment.ofDocument?

/-- The configuration that a text describes; `origin` names the text in errors. -/
def Configuration.ofYaml (process : Variables) (s origin : String) :
    Except ConfigError Configuration := do
  let expanded ← Variables.expandRequired .empty process s origin
  match (Document.ofYaml? expanded).bind (ofDocument? (default process)) with
  | some c => .ok c
  | none => .error (.unreadable origin)

/-! ## From files -/

namespace FileTree

/-- Reads a file with `parse?`. -/
def load {α : Type} (t : FileTree) (cwd : Place) (parse? : String → Option α) (path : String) :
    Except ConfigError α :=
  match (t.read? cwd path).bind parse? with
  | some a => .ok a
  | none => .error (.unreadable path)

def loadDiscovery (t : FileTree) (cwd : Place) : String → Except ConfigError Discovery :=
  t.load cwd Discovery.ofYaml?

def loadEnvironment (t : FileTree) (cwd : Place) : String → Except ConfigError Environment :=
  t.load cwd Environment.ofYaml?

def loadConfiguration (t : FileTree) (cwd : Place) (process : Variables) (path : String) :
    Except ConfigError Configuration :=
  match t.read? cwd path with
  | none => .error (.unreadable path)
  | some s => Configuration.ofYaml process s path

/-- The plan in a file; nothing if the file is not there or no plan. -/
def loadPlan? (t : FileTree) (cwd : Place) (path : String) : Option Plan :=
  (t.read? cwd path).bind fun s => (Plan.ofYaml s).toOption

end FileTree

end Testplan
