import Testplan.Failure
import Testplan.RenderAppium
import Testplan.RenderCucumber
import Testplan.RenderCypress
import Testplan.RenderPlaywright
/-!
# Test frameworks

The five frameworks that plans can be rendered for.  Four generate test projects;
the native one only says how it would name elements, and reports that it is not
implemented.
-/
namespace Testplan

/-- **The test frameworks.** -/
inductive Framework where
  | playwright
  | cypress
  | cucumber
  | appium
  | xctest
deriving DecidableEq, Repr

namespace Framework

/-- All frameworks, in the order of their registration. -/
def all : List Framework := [playwright, cypress, cucumber, appium, xctest]

/-- The name by which a framework is asked for. -/
def id : Framework → String
  | playwright => Playwright.id
  | cypress => Cypress.id
  | cucumber => Cucumber.id
  | appium => Appium.id
  | xctest => "xctest"

/-- The name to show. -/
def displayName : Framework → String
  | playwright => Playwright.displayName
  | cypress => Cypress.displayName
  | cucumber => Cucumber.displayName
  | appium => Appium.displayName
  | xctest => "XCTest (iOS)"

/-- The framework with an identifier. -/
def find (id : String) : Except ConfigError Framework :=
  match all.find? fun f => f.id = id with
  | some f => .ok f
  | none => .error (.unknownFramework id)

/-- How the native framework names an element. -/
def nativeExpression : Locator → String
  | .label t | .placeholder t | .name t => "app.textFields[" ++ Text.quoted t ++ "]"
  | .role .button n => "app.buttons[" ++ Text.quoted n ++ "]"
  | .role .link n => "app.links[" ++ Text.quoted n ++ "]"
  | .firstOfRole .button => "app.buttons.firstMatch"
  | .firstOfRole .link => "app.links.firstMatch"
  | .firstField => "app.textFields.firstMatch"
  | .text t => "app.staticTexts[" ++ Text.quoted t ++ "]"
  | .inputType t | .css t => "app.otherElements[" ++ Text.quoted t ++ "]"

/-- The expression by which a framework finds an element. -/
def expression : Framework → Locator → String
  | playwright => Playwright.expression
  | cypress => Cypress.expression
  | cucumber => Cucumber.expression
  | appium => Appium.expression
  | xctest => nativeExpression

/-- What the native framework renders: nothing. -/
def notImplemented : Rendering where
  files := []
  manifest := { adapter := "xctest", pages := [], count := 0 }
  status := .notImplemented
  failures := []

/-- **Renders a plan.** -/
def render : Framework → RenderSettings → Plan → Rendering
  | playwright => Playwright.render
  | cypress => Cypress.render
  | cucumber => Cucumber.render
  | appium => Appium.render
  | xctest => fun _ _ => notImplemented

/-- The arguments that start the rendered tests; none for a framework without runner. -/
def runnerArgs? : Framework → Option (List String)
  | playwright => some Playwright.runnerArgs
  | cypress => some Cypress.runnerArgs
  | cucumber => some Cucumber.runnerArgs
  | appium => some Appium.runnerArgs
  | xctest => none

end Framework

end Testplan
