import Testplan.Proofs.AttemptOutcome
import Testplan.Proofs.FailureSigns
/-!
# What scenarios that were left out do to a diagnosis

The log of an attempt begins with a line about each scenario that was left out, with its
title and identifier, and the failure of the tests is diagnosed from all lines of the log.
So these lines are read as if the tests had printed them.

They do no harm as long as they are **silent**, that is, no pattern that a diagnosis looks
for occurs in them: the lines before those of the tests can then be taken away
(`Diagnosis.diagnose_append_of_silent`).  A line that is not silent turns the diagnosis of
some output into another (`Diagnosis.exists_misled`).  Two plans that differ in the names of
scenarios that are left out have the same tests (`Plan.Twins.sameTests`), but not always the
same failures (`Plan.Twins.same_failure_iff`).
-/
namespace Testplan

/-! ## Silent lines -/

namespace Diagnosis

open LinePattern

/-- The patterns that a diagnosis looks for. -/
def patterns : List LinePattern :=
  [processStart, actionTimeout, waitingFor, missingElement, testTimeout, networkError,
    failedAssertion]

/-- **Silent lines** show nothing that a diagnosis looks for. -/
def Silent (lines : List String) : Prop := ∀ p ∈ patterns, ¬ Shown p lines

instance (lines : List String) : Decidable (Silent lines) :=
  inferInstanceAs (Decidable (∀ p ∈ patterns, ¬ Shown p lines))

variable {notes : List String} {p : LinePattern}

theorem firstLine_append_of_not_shown (h : ¬ Shown p notes) (lines : List String) :
    firstLine p (notes ++ lines) = firstLine p lines := by
  have hnone : notes.find? p.occursIn = none := firstLine_eq_none_iff.mpr h
  unfold firstLine
  rw [List.find?_append, hnone, Option.none_or]

/-- **Silent lines make no difference**, whatever comes after them. -/
theorem diagnose_append_of_silent (h : Silent notes) (lines : List String) :
    diagnose (notes ++ lines) = diagnose lines := by
  have first : ∀ p ∈ patterns, firstLine p (notes ++ lines) = firstLine p lines :=
    fun p hp => firstLine_append_of_not_shown (h p hp) lines
  have hany : (notes ++ lines).any actionTimeout.occursIn = lines.any actionTimeout.occursIn := by
    rw [List.any_append, Bool.eq_false_iff.mpr fun ht => h actionTimeout (by simp [patterns])
      (any_occursIn_iff.mp ht), Bool.false_or]
  have hmissing : missingElementLine (notes ++ lines) = missingElementLine lines := by
    unfold missingElementLine
    rw [hany, first waitingFor (by simp [patterns]), first missingElement (by simp [patterns])]
  simp only [diagnose, rules, List.findSome?_cons, List.findSome?_nil, hmissing,
    first processStart (by simp [patterns]), first testTimeout (by simp [patterns]),
    first networkError (by simp [patterns]), first failedAssertion (by simp [patterns])]

/-- What an action was waiting for. -/
def waitingLine : String := "waiting for locator("

/-- An action timed out. -/
def actionTimeoutLine : String := "locator.click: Timeout 0ms exceeded"

/-- **Lines that are not silent mislead** the diagnosis of some lines after them. -/
theorem exists_misled (h : ¬ Silent notes) :
    ∃ lines, (diagnose (notes ++ lines)).kind ≠ (diagnose lines).kind := by
  have misled : ∀ {k} lines, (diagnose lines).kind = .unknown → Shows (notes ++ lines) k →
      ∃ lines, (diagnose (notes ++ lines)).kind ≠ (diagnose lines).kind := by
    intro k lines hunknown hk
    refine ⟨lines, fun he => ?_⟩
    rw [hunknown] at he
    rcases kind_diagnose_iff.mp he with hleads | ⟨-, hnone⟩
    · exact not_shows_unknown hleads.1
    · exact hnone k hk
  have alone : ∀ {k}, Shows notes k →
      ∃ lines, (diagnose (notes ++ lines)).kind ≠ (diagnose lines).kind :=
    fun hk => misled [] rfl (hk.mono (List.subset_append_left notes []))
  have mine : ∀ {p} lines, Shown p notes → Shown p (notes ++ lines) :=
    fun lines hp => hp.mono (List.subset_append_left notes lines)
  have other : ∀ {p lines}, Shown p lines → Shown p (notes ++ lines) :=
    fun hp => hp.mono (List.subset_append_right notes _)
  have hshown : ∃ p ∈ patterns, Shown p notes := by
    unfold Silent at h
    push Not at h
    exact h
  obtain ⟨p, hp, hshown⟩ := hshown
  simp only [patterns, List.mem_cons, List.not_mem_nil, or_false] at hp
  rcases hp with rfl | rfl | rfl | rfl | rfl | rfl | rfl
  · exact alone ⟨_, .processStart hshown⟩
  · -- the tests say what some action was waiting for
    have hwaiting : Shown waitingFor [waitingLine] := by decide +kernel
    exact misled [waitingLine] (by decide +kernel)
      ⟨_, .waiting ⟨mine _ hshown, other hwaiting⟩⟩
  · -- the tests say that some action timed out
    have htimeout : Shown actionTimeout [actionTimeoutLine] := by decide +kernel
    exact misled [actionTimeoutLine] (by decide +kernel)
      ⟨_, .waiting ⟨other htimeout, mine _ hshown⟩⟩
  · exact alone (shows_iff_selectorNotFound.mpr (.inl hshown))
  · exact alone ⟨_, .timeout hshown⟩
  · exact alone ⟨_, .network hshown⟩
  · exact alone ⟨_, .assertion hshown⟩

end Diagnosis

open Diagnosis

/-! ## Plans with the same tests -/

/-- **Twins** are the same scenario, or both are left out and differ in their names only. -/
inductive Scenario.Twins : Scenario → Scenario → Prop
  | same (s : Scenario) : Twins s s
  | renamed {s : Scenario} {i reason} (h : s.StopsAt i reason) (id title : String) :
      Twins s { s with id, title }

/-- **Plans that differ in the names of scenarios that are left out**, and in their own. -/
structure Plan.Twins (p q : Plan) : Prop where
  baseUrl : q.baseUrl = p.baseUrl
  cases : List.Forall₂ Scenario.Twins p.cases q.cases

/-- Two renderings are the same but for what they say of the scenarios that are left out. -/
structure Rendering.SameTests (r r' : Rendering) : Prop where
  files : r'.files = r.files
  manifest : r'.manifest = r.manifest
  status : r'.status = r.status

/-- A sieve keeps the same scenarios of twins. -/
theorem Sieved.twins {cases others : List Scenario} {rendered : List ReadScenario}
    {failures : List RenderFailure} (h : Sieved cases rendered failures)
    (htwins : List.Forall₂ Scenario.Twins cases others) :
    ∃ failures', Sieved others rendered failures' ∧ failures'.length = failures.length := by
  induction h generalizing others with
  | nil =>
    cases htwins
    exact ⟨[], .nil, rfl⟩
  | read hr _ ih =>
    cases htwins with
    | cons ht hrest =>
      obtain ⟨failures', hsieved, hlength⟩ := ih hrest
      cases ht with
      | same => exact ⟨failures', .read hr hsieved, hlength⟩
      | renamed hstop => exact absurd hstop hr.not_stopsAt
  | stop hstop _ ih =>
    cases htwins with
    | cons ht hrest =>
      obtain ⟨failures', hsieved, hlength⟩ := ih hrest
      cases ht with
      | same => exact ⟨_, .stop hstop hsieved, congrArg (· + 1) hlength⟩
      | renamed _ id title => exact ⟨_, .stop hstop hsieved, congrArg (· + 1) hlength⟩

/-- **Plans that differ in such names have the same tests**, in every framework. -/
theorem Plan.Twins.sameTests {p q : Plan} (h : p.Twins q) (f : Framework)
    (settings : RenderSettings) : (f.render settings p).SameTests (f.render settings q) := by
  by_cases hf : f = .xctest
  · subst hf
    exact ⟨rfl, rfl, rfl⟩
  obtain ⟨l, hl⟩ := Framework.exists_layout hf
  obtain ⟨failures, hq, hlength⟩ := p.sieved.twins h.cases
  have hreadable : q.readable = p.readable := q.sieved.unique hq
  have hempty : q.failures.isEmpty = p.failures.isEmpty := by
    have hp := p.sieved.length_eq
    have hq := q.sieved.length_eq
    rw [hreadable, ← h.cases.length_eq] at hq
    rw [Bool.eq_iff_iff, List.isEmpty_iff_length_eq_zero, List.isEmpty_iff_length_eq_zero]
    omega
  rw [Framework.render_eq_assemble hl, Framework.render_eq_assemble hl, h.baseUrl]
  have hgroups := Plan.groups_congr hreadable
  exact ⟨by simp only [Plan.assemble, hgroups], by simp only [Plan.assemble, hgroups],
    by simp only [Plan.assemble, hempty]⟩

/-! ## Failures of plans with the same tests -/

namespace Attempt

variable {a b : Attempt}

/-- Whether everything is ready does not depend on the scenarios that are left out. -/
theorem Ready.of_sameTests (h : a.Ready) (hsame : a.rendering.SameTests b.rendering)
    (hhost : b.host = a.host) (hdirectory : b.directory = a.directory) : b.Ready where
  implemented := by
    unfold IsStub
    rw [hsame.status]
    exact h.implemented
  nonempty := by
    rw [hsame.manifest]
    exact h.nonempty
  written := by
    unfold Attempt.written
    rw [hsame.files, hsame.manifest, hhost, hdirectory]
    exact h.written

/-- Tests that end in time have all their lines in the log. -/
theorem Exits.lines {code : Int} (h : a.Exits code) :
    linesOf a.course.steps = a.exclusions ++ linesOf a.stages.steps := by
  rw [course_of_ready h.ready]
  show linesOf (_ ++ _) = _
  rw [linesOf_append, linesOf_map_line, withinTime_of_le h.inTime]

/-- **The failure after an exit code**, if the tail of the log has room for all lines. -/
theorem Exits.status_eq {code : Int} (h : a.Exits code) (hc : code ≠ 0) {capacity : Nat}
    (hroom : (linesOf a.course.steps).length ≤ capacity) :
    a.status capacity = .failed {
      kind := (diagnose (a.exclusions ++ linesOf a.stages.steps)).kind
      message := ((diagnose (a.exclusions ++ linesOf a.stages.steps)).evidence.map
        Text.strip).getD ("종료 코드 " ++ toString code)
      exitCode := some code } := by
  have htail : (LogTail.ofLines capacity (linesOf a.course.steps)).lines =
      a.exclusions ++ linesOf a.stages.steps := by
    rw [LogTail.lines_ofLines, Nat.sub_eq_zero_of_le hroom, List.drop_zero, h.lines]
  have hverdict := (a.ends_iff _).mp (.exited h hc)
  unfold status
  rw [hverdict, ← htail]
  rfl

end Attempt

/-- **Failures of plans with the same tests.**  Two plans that differ in the names of
scenarios that are left out have the same tests.  If the lines about these scenarios are
silent for one of the plans, then the two fail alike, with the same kind and message for
the same output and exit code of the tests, exactly if they are silent for the other. -/
theorem Plan.Twins.same_failure_iff {p q : Plan} (h : p.Twins q) (f : Framework)
    (settings : RenderSettings) {a b : Attempt} (hap : a.plan = p) (hbq : b.plan = q)
    (haf : a.adapter.render = f.render settings) (hbf : b.adapter.render = f.render settings)
    (ha : a.Ready) (hb : b.Ready) (hsilent : Silent b.exclusions) :
    a.rendering.SameTests b.rendering ∧
    (Silent a.exclusions ↔ ∀ (runner runner' : Runner) (code : Int) (capacity : Nat), code ≠ 0 →
      (a.withRunner runner).Exits code → (b.withRunner runner').Exits code →
      linesOf (a.withRunner runner).stages.steps = linesOf (b.withRunner runner').stages.steps →
      (linesOf (a.withRunner runner).course.steps).length ≤ capacity →
      (linesOf (b.withRunner runner').course.steps).length ≤ capacity →
      (a.withRunner runner).status capacity = (b.withRunner runner').status capacity) := by
  constructor
  · unfold Attempt.rendering
    rw [haf, hbf, hap, hbq]
    exact h.sameTests f settings
  constructor
  · intro hnotes runner runner' code capacity hc hea heb hlines hroom hroom'
    rw [hea.status_eq hc hroom, heb.status_eq hc hroom', ← hlines]
    have hsame : ∀ lines, diagnose ((a.withRunner runner).exclusions ++ lines) =
        diagnose ((b.withRunner runner').exclusions ++ lines) := fun lines =>
      (diagnose_append_of_silent hnotes lines).trans (diagnose_append_of_silent hsilent lines).symm
    rw [hsame]
  · intro hall
    by_contra hnotes
    obtain ⟨lines, hne⟩ := exists_misled hnotes
    obtain ⟨hea, hla⟩ := Attempt.exits_scripted ha lines 1
    obtain ⟨heb, hlb⟩ := Attempt.exits_scripted hb lines 1
    have hstatus := hall _ _ 1 _ Int.one_ne_zero hea heb (hla.trans hlb.symm)
      (Nat.le_add_right _ _) (Nat.le_add_left _ _)
    rw [hea.status_eq Int.one_ne_zero (Nat.le_add_right _ _),
      heb.status_eq Int.one_ne_zero (Nat.le_add_left _ _), hla, hlb] at hstatus
    have hkind := congrArg JobFailure.kind (JobStatus.failed.inj hstatus)
    refine hne (hkind.trans ?_)
    exact congrArg Diagnosis.kind (diagnose_append_of_silent hsilent lines)

namespace Sample

/-- A plan with a scenario that opens a page and one that opens nothing, with a title. -/
def broken (title : String) : Plan where
  id := ⟨uuid 1000, 1, none⟩
  baseUrl := "/"
  cases := [
    { id := "open", title := "Open", coverage := .statement, steps := [.goto "/"] },
    { id := "bad", title, coverage := .statement, steps := [{ kind := .goto }] }]
  info := ⟨"sdet", 2, ⟨0, 0⟩⟩

/-- The attempt to run the plan with one framework. -/
def brokenAttempt (title : String) : Attempt where
  adapter := Framework.cucumber.adapter {}
  limitSecs := 900
  host := {}
  plan := broken title
  environment := {}
  directory := "work"

theorem twins_broken (title title' : String) : (broken title).Twins (broken title') := by
  have hstops : Scenario.StopsAt
      { id := "bad", title, coverage := .statement, steps := [{ kind := .goto }] } 0
      (.missing "goto 대상 URL") :=
    ⟨⟨_, rfl, rfl⟩, fun j hj => absurd hj (Nat.not_lt_zero j)⟩
  exact ⟨rfl, .cons (.same _) (.cons (.renamed hstops "bad" title') .nil)⟩

theorem ready_broken (title : String) : (brokenAttempt title).Ready := by
  have hready : (brokenAttempt "").Ready :=
    ⟨by decide +kernel, by decide +kernel, by decide +kernel⟩
  exact hready.of_sameTests ((twins_broken "" title).sameTests .cucumber {}) rfl rfl

theorem exclusions_broken (title : String) : (brokenAttempt title).exclusions =
    [exclusionLine ⟨"bad", title, 0, .missing "goto 대상 URL"⟩] := rfl

/-- How the attempt fails if its tests print lines and end with code 1. -/
theorem status_broken (title : String) (lines : List String) (capacity : Nat) :
    ((brokenAttempt title).withRunner (.scripted lines 1)).status capacity =
      .failed (failureOf 1 (.ofLines capacity
        (exclusionLine ⟨"bad", title, 0, .missing "goto 대상 URL"⟩ :: lines))) := by
  obtain ⟨he, hl⟩ := Attempt.exits_scripted (ready_broken title) lines 1
  have hlines : linesOf ((brokenAttempt title).withRunner (.scripted lines 1)).course.steps =
      exclusionLine ⟨"bad", title, 0, .missing "goto 대상 URL"⟩ :: lines := by
    rw [he.lines, hl]
    rfl
  have hverdict := (Attempt.ends_iff _ _).mp (.exited he Int.one_ne_zero)
  unfold Attempt.status
  rw [hverdict, hlines]
  rfl

theorem silent_broken_step : Silent (brokenAttempt "Broken step").exclusions := by
  rw [exclusions_broken]
  decide +kernel

theorem silent_broken_page : Silent (brokenAttempt "Broken page").exclusions := by
  rw [exclusions_broken]
  decide +kernel

end Sample

/-- Two plans with inconspicuous titles fail alike. -/
theorem Plan.inconspicuous_titles :
    (Sample.broken "Broken step").Twins (Sample.broken "Broken page") ∧
    ∀ lines, ((Sample.brokenAttempt "Broken step").withRunner (.scripted lines 1)).status
        (lines.length + 1) =
      ((Sample.brokenAttempt "Broken page").withRunner (.scripted lines 1)).status
        (lines.length + 1) := by
  have htwins := Sample.twins_broken "Broken step" "Broken page"
  have hstep := Sample.ready_broken "Broken step"
  have hpage := Sample.ready_broken "Broken page"
  obtain ⟨-, hiff⟩ := htwins.same_failure_iff .cucumber {} rfl rfl rfl rfl hstep hpage
    Sample.silent_broken_page
  refine ⟨htwins, fun lines => ?_⟩
  have hroom : ∀ {a : Attempt}, a.Exits 1 → linesOf a.stages.steps = lines →
      a.exclusions.length = 1 → (linesOf a.course.steps).length ≤ lines.length + 1 := by
    intro a ha hlines hlength
    refine Nat.le_of_eq ?_
    rw [ha.lines, hlines, List.length_append, hlength, Nat.add_comm]
  obtain ⟨he, hl⟩ := Attempt.exits_scripted hstep lines 1
  obtain ⟨he', hl'⟩ := Attempt.exits_scripted hpage lines 1
  exact hiff.mp Sample.silent_broken_step _ _ 1 _ Int.one_ne_zero he he' (hl.trans hl'.symm)
    (hroom he hl rfl) (hroom he' hl' rfl)

/-- **The title of a scenario that was left out decides the failure**: with the same tests and
the same output, of which nothing can be said, one of two plans fails as if the program that
runs the tests had not been found. -/
theorem Plan.title_taken_for_output :
    (Sample.broken "Shows command not found").Twins (Sample.broken "Broken step") ∧
    ((Sample.brokenAttempt "Shows command not found").withRunner
      (.scripted ["Running 1 test", "1 failed"] 1)).status 200 = .failed {
        kind := .processStart
        message := "렌더링 제외: 시나리오 'Shows command not found'(bad)의 " ++
          "0번째 Step 렌더링 실패: goto 대상 URL이(가) 없습니다"
        exitCode := some 1 } ∧
    ((Sample.brokenAttempt "Broken step").withRunner
      (.scripted ["Running 1 test", "1 failed"] 1)).status 200 = .failed {
        kind := .unknown, message := "종료 코드 1", exitCode := some 1 } := by
  rw [Sample.status_broken, Sample.status_broken]
  exact ⟨Sample.twins_broken _ _, by decide +kernel, by decide +kernel⟩

end Testplan
