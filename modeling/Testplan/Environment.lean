import Testplan.Placeholder
import Testplan.TextBlank
/-!
# Environments

An `Environment` says where and as whom the tests run: a base URL, credentials and
variables.  `resolve` replaces all placeholders, in the variables by name, then in
the base URL, then in the credentials; the first value that is missing is the
error.  A base URL that is blank counts as none, a blank user name is an error.

`runnerVariables` is what a test process gets: the variables, over them the base
URL under the four names that the frameworks read, and over them the credentials.
-/
namespace Testplan

/-- User name and password. -/
structure Credentials where
  username : String
  password : String := ""
deriving DecidableEq

/-- **Where and as whom tests run.** -/
structure Environment where
  baseUrl : Option String := none
  auth : Option Credentials := none
  vars : Variables := .empty
deriving DecidableEq

namespace Environment

/-- The field name of a variable in errors. -/
def fieldOf (name : String) : String := "vars." ++ name

/-- The variables with their placeholders replaced. -/
def resolveVars (vars process : Variables) : Except ConfigError Variables := do
  let entries ← vars.entries.mapM fun (name, value) => do
    return (name, ← vars.expandRequired process value (fieldOf name))
  return .ofList entries

/-- The base URL with its placeholders replaced, if it is then not blank. -/
def resolveBaseUrl (e : Environment) (process : Variables) :
    Except ConfigError (Option String) :=
  match e.baseUrl with
  | none => .ok none
  | some url => do
    let expanded ← e.vars.expandRequired process url "baseUrl"
    return if Text.isBlankText expanded then none else some expanded

/-- The credentials with their placeholders replaced. -/
def resolveAuth (e : Environment) (process : Variables) :
    Except ConfigError (Option Credentials) :=
  match e.auth with
  | none => .ok none
  | some auth => do
    let username ← e.vars.expandRequired process auth.username "auth.username"
    if Text.isBlankText username then .error (.missingValue "auth.username" .blank)
    else
      let password ← e.vars.expandRequired process auth.password "auth.password"
      return some { username, password }

/-- **The environment with all placeholders replaced.** -/
def resolve (e : Environment) (process : Variables) : Except ConfigError Environment := do
  let vars ← resolveVars e.vars process
  let baseUrl ← e.resolveBaseUrl process
  let auth ← e.resolveAuth process
  return { baseUrl, auth, vars }

/-- The names under which frameworks look for the base URL. -/
def baseUrlNames : List String :=
  ["TM_BASE_URL", "BASE_URL", "PW_BASE_URL", "CYPRESS_BASE_URL"]

/-- The variables of a test process; `planBaseUrl` counts if the environment gives no
base URL. -/
def runnerVariables (e : Environment) (planBaseUrl : String) : Variables :=
  let withUrl := baseUrlNames.foldl (fun t name => t.insert name (e.baseUrl.getD planBaseUrl))
    e.vars
  match e.auth with
  | none => withUrl
  | some auth =>
    (withUrl.insert "TM_AUTH_USERNAME" auth.username).insert "TM_AUTH_PASSWORD" auth.password

end Environment

end Testplan
