import Testplan.Compile
import Testplan.Proofs.HintRoundTrip
import Testplan.Proofs.RenderedPages
/-!
# Compiled plans are traceable

A scenario that a pattern makes belongs to one page of the discovery, and each of its steps
is there for something that was found (`Discovery.Gives`): a visit to the page or to the
target of a link, a field to fill, to see or to give a file to, a button or a link to click,
the landmark of a page to expect.  A step names its element by a hint, and what the
adapters read from the hint is the locator that the hint was written for.  So a step has the
action that it was meant to have, or it has none; and it has none only if it visits a blank
address (`Discovery.Gives.action_or_blank`).

From this follows which scenarios of a compiled plan cannot be rendered: those of a page with
a blank path, and those that follow a link with neither text nor address
(`Scenario.MadeOn.stops_iff`).
-/
namespace Testplan

/-! ## The actions of single steps -/

namespace Step

theorem action_goto (url : String) :
    (Step.goto url).action =
      if Text.isBlankText url then .error (.missing "goto 대상 URL")
      else .ok (.goto (Text.strip url)) := by
  show (requiredText (some url) "goto 대상 URL").map Action.goto = _
  rw [requiredText, Text.present?_some]
  cases Text.isBlankText url <;> rfl

theorem action_expectText {t : String} (h : Text.isBlankText t = false) :
    (Step.expectText t).action = .ok (.expectText (Text.strip t)) := by
  show (requiredText (some t) "expect-text 기대 텍스트").map Action.expectText = _
  rw [requiredText, Text.present?_some, h]
  rfl

variable {hint : String} {l : Locator}

theorem action_click (h : Locator.parse hint = .ok l) :
    (Step.click hint).action = .ok (.click l) := by
  show (locatorOf hint).map Action.click = _
  rw [locatorOf, h]
  rfl

theorem action_expectVisible (h : Locator.parse hint = .ok l) :
    (Step.expectVisible hint).action = .ok (.expectVisible l) := by
  show (locatorOf hint).map Action.expectVisible = _
  rw [locatorOf, h]
  rfl

theorem action_fill (h : Locator.parse hint = .ok l) (value : String) :
    (Step.fill hint value).action = .ok (.fill l value) := by
  show (do let locator ← locatorOf hint; return Action.fill locator value) = _
  rw [locatorOf, h]
  rfl

theorem action_upload (h : Locator.parse hint = .ok l) {path : String}
    (hp : Text.Trimmed path) : (Step.upload hint path).action = .ok (.upload l path) := by
  have hpath : requiredText (some path) "upload 파일 경로" = .ok path := by
    rw [requiredText, Text.present?_eq_some_iff.mpr ⟨path, rfl, hp⟩]
  show (do
    let locator ← locatorOf hint
    let path ← requiredText (some path) "upload 파일 경로"
    return Action.upload locator path) = _
  rw [locatorOf, h, hpath]
  rfl

end Step

/-! ## What steps are for -/

/-- A landmark is not blank. -/
theorem DiscoveredPage.landmark_not_blank {P : DiscoveredPage} {t : String}
    (h : P.landmark = some t) : Text.isBlankText t = false := by
  unfold landmark at h
  cases htitle : P.title.filter fun t => !Text.isBlankText t with
  | some title =>
    rw [htitle] at h
    cases h
    simpa using (Option.filter_eq_some_iff.mp htitle).2
  | none =>
    rw [htitle] at h
    have hheading : P.headings.find? (fun h => !Text.isBlankText h) = some t := h
    simpa using List.find?_some hheading

/-- **What a step of a page's scenarios is there for**, with the action that is meant. -/
inductive Discovery.Gives (d : Discovery) (P : DiscoveredPage) : Step → Action → Prop
  | visit : Gives d P (.goto P.path) (.goto (Text.strip P.path))
  /-- A link without a text is followed by its address. -/
  | follow {link} (hl : link ∈ P.links) (ht : Text.present? link.text = none) :
      Gives d P (.goto link.href) (.goto (Text.strip link.href))
  | clickLink {link} (hl : link ∈ P.links) :
      Gives d P (.click (Locator.link link.text).render) (.click (Locator.link link.text))
  | submit {form} (hf : form ∈ P.forms) :
      Gives d P (.click (Locator.button form.submit).render) (.click (Locator.button form.submit))
  | fill {f} (hf : f ∈ P.fields) :
      Gives d P (.fill f.locator.render f.fillValue) (.fill f.locator f.fillValue)
  | inject {f payload} (hf : f ∈ P.fields) (hp : payload ∈ Pattern.payloads) :
      Gives d P (.fill f.locator.render payload.2) (.fill f.locator payload.2)
  | upload {f} (hf : f ∈ P.fields) :
      Gives d P (.upload f.locator.render Pattern.uploadFixture)
        (.upload f.locator Pattern.uploadFixture)
  | see {f} (hf : f ∈ P.fields) :
      Gives d P (.expectVisible f.locator.render) (.expectVisible f.locator)
  /-- The landmark of this page, or of the page that a link leads to. -/
  | landmark {Q t} (hQ : Q ∈ d.pages) (ht : Q.landmark = some t) :
      Gives d P (.expectText t) (.expectText (Text.strip t))
  | note (text : String) : Gives d P (.custom text) (.custom text)

/-- **A step has the action that is meant, or it visits a blank address.** -/
theorem Discovery.Gives.action_or_blank {d : Discovery} {P : DiscoveredPage} {step : Step}
    {a : Action} (h : d.Gives P step a) :
    step.action = .ok a ∨ ∃ url, step = .goto url ∧ Text.isBlankText url = true := by
  -- a visit is the only step that can fail
  have visit : ∀ url, (Step.goto url).action = .ok (.goto (Text.strip url)) ∨
      ∃ blank, Step.goto url = .goto blank ∧ Text.isBlankText blank = true := by
    intro url
    by_cases hurl : Text.isBlankText url = true
    · exact .inr ⟨url, rfl, hurl⟩
    · exact .inl (by rw [Step.action_goto, if_neg hurl])
  cases h with
  | visit => exact visit _
  | follow => exact visit _
  | clickLink => exact .inl (Step.action_click (Locator.parse_render_ofRole ..))
  | submit => exact .inl (Step.action_click (Locator.parse_render_ofRole ..))
  | @fill f => exact .inl (Step.action_fill f.parse_render_locator _)
  | @inject f => exact .inl (Step.action_fill f.parse_render_locator _)
  | @upload f => exact .inl (Step.action_upload f.parse_render_locator (by decide))
  | @see f => exact .inl (Step.action_expectVisible f.parse_render_locator)
  | landmark hQ ht => exact .inl (Step.action_expectText (DiscoveredPage.landmark_not_blank ht))
  | note => exact .inl rfl

/-! ## Where scenarios come from -/

namespace Pattern

/-- The scenario that follows a link of a page. -/
def linkCase (d : Discovery) (page : DiscoveredPage) (link : DiscoveredLink) (index : Nat) :
    Scenario where
  id := linkNavigation.caseId page.path (some index)
  title := "Navigate from " ++ page.path ++ " to " ++
    (Text.present? link.text).getD link.href
  coverage := .decision
  tags := .ofTags ["navigation"]
  risk := some .low
  steps := .goto page.path :: followStep link :: landmarkSteps (d.page? link.href)

/-- Links are followed one by one, page by page. -/
theorem linkScenarios_eq (d : Discovery) :
    linkScenarios d = d.pages.flatMap fun page =>
      (page.links.take followedLinks).zipIdx.map fun (link, index) =>
        linkCase d page link index := rfl

/-- After its first visit, the scenario visits the address of a link without a text. -/
theorem goto_mem_tail_linkCase_iff {d : Discovery} {page : DiscoveredPage}
    {link : DiscoveredLink} {index : Nat} {url : String} :
    Step.goto url ∈ (linkCase d page link index).steps.tail ↔
      Text.present? link.text = none ∧ url = link.href := by
  have hlandmark : Step.goto url ∉ landmarkSteps (d.page? link.href) := by
    intro h
    obtain ⟨t, -, ht⟩ := Option.map_eq_some_iff.mp (Option.mem_toList.mp h)
    cases ht
  have hfollow : Step.goto url = followStep link ↔
      Text.present? link.text = none ∧ url = link.href := by
    unfold followStep
    cases Text.present? link.text with
    | none => simp [Step.goto]
    | some t => simp [Step.goto, Step.click]
  show Step.goto url ∈ followStep link :: landmarkSteps (d.page? link.href) ↔ _
  rw [List.mem_cons, or_iff_left hlandmark, hfollow]

end Pattern

/-- **A scenario was made for a page** by a pattern: it begins with a visit to the page, each
of its steps is there for something that was found, and it visits nothing else unless it
follows a link. -/
structure Scenario.MadeOn (s : Scenario) (d : Discovery) (p : Pattern) (P : DiscoveredPage) :
    Prop where
  page : P ∈ d.pages
  first : s.steps.head? = some (.goto P.path)
  given : ∀ step ∈ s.steps, ∃ a, d.Gives P step a
  visits : (∀ step ∈ s.steps.tail, step.kind ≠ .goto) ∨
    p = .linkNavigation ∧ ∃ link index,
      (link, index) ∈ (P.links.take Pattern.followedLinks).zipIdx ∧
        s = Pattern.linkCase d P link index

namespace Pattern

variable {d : Discovery} {P : DiscoveredPage} {s : Scenario}

/-- The step is there for something else than a visit. -/
def Attends (d : Discovery) (P : DiscoveredPage) (step : Step) : Prop :=
  (∃ a, d.Gives P step a) ∧ step.kind ≠ .goto

/-- A scenario that visits its page and then stays there. -/
theorem madeOn_of_attends {p : Pattern} {rest : List Step} (hP : P ∈ d.pages)
    (hs : s.steps = .goto P.path :: rest) (hrest : ∀ step ∈ rest, Attends d P step) :
    s.MadeOn d p P where
  page := hP
  first := by rw [hs, List.head?_cons]
  given := by
    rw [hs]
    intro step hstep
    rcases List.mem_cons.mp hstep with rfl | hstep
    · exact ⟨_, .visit⟩
    · exact (hrest step hstep).1
  visits := by
    rw [hs, List.tail_cons]
    exact .inl fun step hstep => (hrest step hstep).2

theorem attends_landmark {Q : Option DiscoveredPage} (hQ : ∀ page, Q = some page → page ∈ d.pages) :
    ∀ step ∈ landmarkSteps Q, Attends d P step := by
  intro step hstep
  obtain ⟨t, ht, rfl⟩ := Option.map_eq_some_iff.mp (Option.mem_toList.mp hstep)
  obtain ⟨page, hpage, hlandmark⟩ := Option.bind_eq_some_iff.mp ht
  exact ⟨⟨_, .landmark (hQ page hpage) hlandmark⟩, nofun⟩

theorem attends_submit {form : DiscoveredForm} (hf : form ∈ P.forms) :
    Attends d P (submitStep form) :=
  ⟨⟨_, .submit hf⟩, nofun⟩

variable {f : FieldDescriptor}

theorem attends_fill (hf : f ∈ P.fields) : Attends d P (fillStep f) := by
  unfold fillStep
  split
  · exact ⟨⟨_, .upload hf⟩, nofun⟩
  · exact ⟨⟨_, .fill hf⟩, nofun⟩

theorem attends_visible (hf : f ∈ P.fields) : Attends d P (visibleStep f) :=
  ⟨⟨_, .see hf⟩, nofun⟩

/-- The fields of a form are fields of its page. -/
theorem mem_fields {form : DiscoveredForm} (hform : form ∈ P.forms) (hf : f ∈ form.fields) :
    f ∈ P.fields :=
  List.mem_flatMap.mpr ⟨form, hform, hf⟩

/-- Scenarios are made form by form, page by page. -/
theorem exists_form_of_mem_perForm
    {scenario : DiscoveredPage → Option Nat → DiscoveredForm → Option Scenario}
    (h : s ∈ perForm d scenario) :
    ∃ page ∈ d.pages, ∃ form ∈ page.forms, ∃ index, scenario page index form = some s := by
  obtain ⟨page, hpage, h⟩ := List.mem_flatMap.mp h
  obtain ⟨⟨index, form⟩, hform, hs⟩ := List.mem_filterMap.mp h
  obtain ⟨⟨numbered, i⟩, hi, he⟩ := List.mem_map.mp hform
  cases he
  exact ⟨page, hpage, form, List.fst_mem_of_mem_zipIdx hi, _, hs⟩

/-- **What a pattern makes of a page**: a scenario that visits it and goes on in one of these
ways. -/
inductive Makes (d : Discovery) (P : DiscoveredPage) (s : Scenario) : Pattern → Prop
  | smoke (hs : s.steps = .goto P.path :: landmarkSteps (some P)) : Makes d P s pageSmoke
  | happyPath {form} (hform : form ∈ P.forms)
      (hs : s.steps = .goto P.path :: (form.fields.map fillStep ++ [submitStep form])) :
      Makes d P s formHappyPath
  | validation {form} (hform : form ∈ P.forms)
      (hs : s.steps = .goto P.path :: submitStep form ::
        (form.fields.filter fun f => f.required && !f.isFile).map visibleStep) :
      Makes d P s requiredValidation
  | upload {form} (hform : form ∈ P.forms)
      (hs : s.steps = .goto P.path :: ((form.fields.filter FieldDescriptor.isFile).map
        (fun f => .upload f.locator.render uploadFixture) ++ [submitStep form])) :
      Makes d P s fileUpload
  | follow {link index} (hlink : (link, index) ∈ (P.links.take followedLinks).zipIdx)
      (hs : s = linkCase d P link index) : Makes d P s linkNavigation
  | labels (hs : s.steps = .goto P.path ::
        (P.fields.filter fun f => (Text.present? f.label).isSome).map visibleStep) :
      Makes d P s labelledFields
  | probe {form tag payload} (hform : form ∈ P.forms) (hpayload : (tag, payload) ∈ payloads)
      (hs : s.steps = .goto P.path :: ((form.fields.filter fun f => f.isTextual && !f.isFile).map
        (fun f => .fill f.locator.render payload) ++ [submitStep form,
          .custom (tag ++ " payload must not execute or surface a server error")])) :
      Makes d P s injectionProbe

/-- Every scenario of a pattern is made of a page. -/
theorem exists_makes {p : Pattern} (h : s ∈ p.scenarios d) : ∃ P ∈ d.pages, Makes d P s p := by
  cases p with
  | pageSmoke =>
    obtain ⟨P, hP, rfl⟩ := List.mem_map.mp h
    exact ⟨P, hP, .smoke rfl⟩
  | formHappyPath =>
    unfold scenarios happyPathScenarios at h
    obtain ⟨P, hP, form, hform, index, hs⟩ := exists_form_of_mem_perForm h
    split at hs
    · cases hs
    · obtain rfl := Option.some.inj hs
      exact ⟨P, hP, .happyPath hform rfl⟩
  | requiredValidation =>
    unfold scenarios validationScenarios at h
    obtain ⟨P, hP, form, hform, index, hs⟩ := exists_form_of_mem_perForm h
    dsimp only at hs
    split at hs
    · cases hs
    · obtain rfl := Option.some.inj hs
      exact ⟨P, hP, .validation hform rfl⟩
  | fileUpload =>
    unfold scenarios uploadScenarios at h
    obtain ⟨P, hP, form, hform, index, hs⟩ := exists_form_of_mem_perForm h
    dsimp only at hs
    split at hs
    · cases hs
    · obtain rfl := Option.some.inj hs
      exact ⟨P, hP, .upload hform rfl⟩
  | linkNavigation =>
    have h : s ∈ linkScenarios d := h
    rw [linkScenarios_eq] at h
    obtain ⟨P, hP, h⟩ := List.mem_flatMap.mp h
    obtain ⟨⟨link, index⟩, hlink, rfl⟩ := List.mem_map.mp h
    exact ⟨P, hP, .follow hlink rfl⟩
  | labelledFields =>
    obtain ⟨P, hP, hs⟩ := List.mem_filterMap.mp h
    dsimp only at hs
    split at hs
    · cases hs
    · obtain rfl := Option.some.inj hs
      exact ⟨P, hP, .labels rfl⟩
  | injectionProbe =>
    obtain ⟨P, hP, h⟩ := List.mem_flatMap.mp h
    obtain ⟨⟨form, index⟩, hform, h⟩ := List.mem_flatMap.mp h
    dsimp only at h
    split at h
    · cases h
    · obtain ⟨⟨tag, payload⟩, hpayload, rfl⟩ := List.mem_map.mp h
      refine ⟨P, hP, .probe (List.fst_mem_of_mem_zipIdx hform) hpayload ?_⟩
      dsimp only
      rw [List.map_map]
      rfl

/-- A text-less link is followed by its address, and every other link by its text. -/
theorem gives_follow {link : DiscoveredLink} (hl : link ∈ P.links) :
    ∃ a, d.Gives P (followStep link) a := by
  unfold followStep
  cases ht : Text.present? link.text with
  | none => exact ⟨_, .follow hl ht⟩
  | some t =>
    -- the text of a link without the blanks at its ends makes the same locator
    have htrimmed := Text.trimmed_of_present? ht
    have hsame : Locator.link (some t) = Locator.link link.text := by
      unfold Locator.link Locator.ofRole
      rw [ht, Text.present?_eq_some_iff.mpr ⟨t, rfl, htrimmed⟩]
    dsimp only
    rw [hsame]
    exact ⟨_, .clickLink hl⟩

/-- A known page that a link leads to is a page of the discovery. -/
theorem mem_pages_of_page? {url : String} {page : DiscoveredPage} (h : d.page? url = some page) :
    page ∈ d.pages :=
  List.mem_of_find?_eq_some h

/-- **Every scenario of a pattern was made for a page.** -/
theorem exists_madeOn {p : Pattern} (h : s ∈ p.scenarios d) : ∃ P, s.MadeOn d p P := by
  obtain ⟨P, hP, hmakes⟩ := exists_makes h
  refine ⟨P, ?_⟩
  cases hmakes with
  | smoke hs =>
    refine madeOn_of_attends hP hs (attends_landmark fun page hpage => ?_)
    cases hpage
    exact hP
  | happyPath hform hs =>
    refine madeOn_of_attends hP hs fun step hstep => ?_
    rcases List.mem_append.mp hstep with hstep | hstep
    · obtain ⟨f, hf, rfl⟩ := List.mem_map.mp hstep
      exact attends_fill (mem_fields hform hf)
    · obtain rfl := List.mem_singleton.mp hstep
      exact attends_submit hform
  | validation hform hs =>
    refine madeOn_of_attends hP hs fun step hstep => ?_
    rcases List.mem_cons.mp hstep with rfl | hstep
    · exact attends_submit hform
    · obtain ⟨f, hf, rfl⟩ := List.mem_map.mp hstep
      exact attends_visible (mem_fields hform (List.mem_of_mem_filter hf))
  | upload hform hs =>
    refine madeOn_of_attends hP hs fun step hstep => ?_
    rcases List.mem_append.mp hstep with hstep | hstep
    · obtain ⟨f, hf, rfl⟩ := List.mem_map.mp hstep
      exact ⟨⟨_, .upload (mem_fields hform (List.mem_of_mem_filter hf))⟩, nofun⟩
    · obtain rfl := List.mem_singleton.mp hstep
      exact attends_submit hform
  | @follow link index hlink hs =>
    subst hs
    have hl : link ∈ P.links := List.mem_of_mem_take (List.fst_mem_of_mem_zipIdx hlink)
    refine ⟨hP, rfl, fun step hstep => ?_, .inr ⟨rfl, link, index, hlink, rfl⟩⟩
    rcases List.mem_cons.mp hstep with rfl | hstep
    · exact ⟨_, .visit⟩
    · rcases List.mem_cons.mp hstep with rfl | hstep
      · exact gives_follow hl
      · exact (attends_landmark (fun _ => mem_pages_of_page?) step hstep).1
  | labels hs =>
    refine madeOn_of_attends hP hs fun step hstep => ?_
    obtain ⟨f, hf, rfl⟩ := List.mem_map.mp hstep
    exact attends_visible (List.mem_of_mem_filter hf)
  | probe hform hpayload hs =>
    refine madeOn_of_attends hP hs fun step hstep => ?_
    rcases List.mem_append.mp hstep with hstep | hstep
    · obtain ⟨f, hf, rfl⟩ := List.mem_map.mp hstep
      exact ⟨⟨_, .inject (mem_fields hform (List.mem_of_mem_filter hf)) hpayload⟩, nofun⟩
    · rcases List.mem_cons.mp hstep with rfl | hstep
      · exact attends_submit hform
      · obtain rfl := List.mem_singleton.mp hstep
        exact ⟨⟨_, .note _⟩, nofun⟩

end Pattern

/-! ## Scenarios that cannot be rendered -/

namespace Scenario

variable {s : Scenario} {d : Discovery} {P : DiscoveredPage}

/-- A scenario stops if one of its steps has no action. -/
theorem stops_iff :
    (∃ i reason, s.StopsAt i reason) ↔ ∃ step ∈ s.steps, ∃ e, step.action = .error e := by
  constructor
  · rintro ⟨i, reason, ⟨step, hstep, hreason⟩, -⟩
    exact ⟨step, List.mem_of_getElem? hstep, reason, hreason⟩
  · rintro ⟨step, hstep, e, he⟩
    refine s.reads_or_stops.resolve_left ?_
    rintro ⟨actions, hreads⟩
    obtain ⟨i, hi, rfl⟩ := List.getElem_of_mem hstep
    have hi' : i < actions.length := hreads.length_eq ▸ hi
    cases he.symm.trans (hreads.get hi hi')

/-- The scenario follows a link of the page that has neither a text nor an address. -/
def FollowsNothing (s : Scenario) (d : Discovery) (P : DiscoveredPage) : Prop :=
  ∃ link index, (link, index) ∈ (P.links.take Pattern.followedLinks).zipIdx ∧
    s = Pattern.linkCase d P link index ∧
    Text.present? link.text = none ∧ Text.isBlankText link.href = true

/-- A visit to a blank address is a step without action. -/
theorem stops_of_blank {url : String} (h : Step.goto url ∈ s.steps)
    (hurl : Text.isBlankText url = true) : ∃ i reason, s.StopsAt i reason :=
  stops_iff.mpr ⟨_, h, _, by rw [Step.action_goto, if_pos hurl]⟩

/-- **Which scenarios of a page stop**: all if the path of the page is blank, and those that
follow a link with neither text nor address. -/
theorem MadeOn.stops_iff {p : Pattern} (h : s.MadeOn d p P) :
    (∃ i reason, s.StopsAt i reason) ↔
      Text.isBlankText P.path = true ∨ s.FollowsNothing d P := by
  obtain ⟨rest, hsteps⟩ := List.head?_eq_some_iff.mp h.first
  constructor
  · intro hstops
    obtain ⟨step, hstep, e, he⟩ := Scenario.stops_iff.mp hstops
    obtain ⟨a, ha⟩ := h.given step hstep
    obtain ⟨url, rfl, hurl⟩ := ha.action_or_blank.resolve_left fun hok => by
      cases he.symm.trans hok
    rw [hsteps] at hstep
    rcases List.mem_cons.mp hstep with hfirst | hlater
    · cases hfirst
      exact .inl hurl
    · -- a visit after the first is the one of a link without a text
      have htail : Step.goto url ∈ s.steps.tail := by rwa [hsteps, List.tail_cons]
      rcases h.visits with hnone | ⟨-, link, index, hlink, rfl⟩
      · exact absurd rfl (hnone _ htail)
      · obtain ⟨htext, rfl⟩ := Pattern.goto_mem_tail_linkCase_iff.mp htail
        exact .inr ⟨link, index, hlink, rfl, htext, hurl⟩
  · rintro (hblank | ⟨link, index, hlink, rfl, htext, hhref⟩)
    · exact stops_of_blank (hsteps ▸ List.mem_cons_self) hblank
    · have htail : Step.goto link.href ∈ (Pattern.linkCase d P link index).steps.tail :=
        Pattern.goto_mem_tail_linkCase_iff.mpr ⟨htext, rfl⟩
      exact stops_of_blank (List.mem_of_mem_tail htail) hhref

/-- The rendering of a plan reports that the scenario stops. -/
def FailsIn (s : Scenario) (f : Framework) (settings : RenderSettings) (p : Plan) : Prop :=
  ∃ i reason, s.StopsAt i reason ∧ ⟨s.id, s.title, i, reason⟩ ∈ (f.render settings p).failures

/-- Every framework that generates code reports the scenarios that stop. -/
theorem failsIn_iff {p : Plan} (hs : s ∈ p.cases) {f : Framework} (hf : f ≠ .xctest)
    (settings : RenderSettings) : s.FailsIn f settings p ↔ ∃ i reason, s.StopsAt i reason := by
  constructor
  · rintro ⟨i, reason, hstops, -⟩
    exact ⟨i, reason, hstops⟩
  · rintro ⟨i, reason, hstops⟩
    obtain ⟨l, hl⟩ := Framework.exists_layout hf
    cases hactions : s.actions with
    | ok actions => exact absurd hstops (actions_eq_ok_iff.mp hactions).not_stopsAt
    | error failure =>
      obtain ⟨hfailure, hstops⟩ := stopsAt_of_actions_eq_error hactions
      refine ⟨_, _, hstops, ?_⟩
      rw [← hfailure, Framework.render_eq_assemble hl]
      refine List.mem_filterMap.mpr ⟨.error failure, List.mem_map.mpr ⟨s, hs, ?_⟩, rfl⟩
      rw [hactions]
      rfl

end Scenario

/-- **A compiled plan is traceable and can be rendered.**  It is made of scenarios that a
pattern made for a page.  Each step of a scenario has the action that it is there for, or
none; and a scenario fails in a framework that generates code exactly if the path of its
page is blank or it follows a link with neither text nor address.  Every other scenario is
in the group of its page, with all its actions. -/
theorem compilePlan_traceable (fresh : Uuid) (d : Discovery) {env resolved : Environment}
    {process : Variables} (he : env.resolve process = .ok resolved) {library : PatternLibrary}
    {persona : String} {patterns : List Pattern} (hb : library.bundle persona = .ok patterns)
    (generatedAt : Timestamp) :
    ∃ p, compilePlan fresh d env process persona library generatedAt = .ok p ∧
      ∀ s ∈ p.cases, ∃ pattern ∈ patterns, ∃ P ∈ d.pages, s ∈ pattern.scenarios d ∧
        s.steps.head? = some (.goto P.path) ∧ s.pageKey = urlPath P.path ∧
        (∀ step ∈ s.steps, ∃ a, d.Gives P step a ∧
          (step.action = .ok a ∨ ∃ e, step.action = .error e)) ∧
        ∀ (f : Framework) (settings : RenderSettings), f ≠ .xctest →
          (s.FailsIn f settings p ↔ Text.isBlankText P.path = true ∨ s.FollowsNothing d P) ∧
          (¬ s.FailsIn f settings p →
            ∃ actions, s.Reads actions ∧ ∃ g ∈ p.groups, (s, actions) ∈ g.cases) := by
  have hcompile : ∃ p, compilePlan fresh d env process persona library generatedAt = .ok p ∧
      p.cases = patterns.flatMap fun pattern => pattern.scenarios d := by
    unfold compilePlan
    rw [hb, he]
    exact ⟨_, rfl, rfl⟩
  obtain ⟨p, hp, hcases⟩ := hcompile
  refine ⟨p, hp, fun s hs => ?_⟩
  obtain ⟨pattern, hpattern, hscenario⟩ := List.mem_flatMap.mp (hcases ▸ hs)
  obtain ⟨P, hmade⟩ := Pattern.exists_madeOn hscenario
  refine ⟨pattern, hpattern, P, hmade.page, hscenario, hmade.first, ?_, ?_, ?_⟩
  · obtain ⟨rest, hsteps⟩ := List.head?_eq_some_iff.mp hmade.first
    unfold Scenario.pageKey
    rw [hsteps]
    rfl
  · intro step hstep
    obtain ⟨a, ha⟩ := hmade.given step hstep
    refine ⟨a, ha, ha.action_or_blank.imp_right ?_⟩
    rintro ⟨url, rfl, hurl⟩
    exact ⟨_, by rw [Step.action_goto, if_pos hurl]⟩
  · intro f settings hf
    rw [Scenario.failsIn_iff hs hf settings, hmade.stops_iff]
    refine ⟨Iff.rfl, fun hnot => ?_⟩
    rw [← hmade.stops_iff] at hnot
    obtain ⟨actions, hreads⟩ := s.reads_or_stops.resolve_right hnot
    obtain ⟨g, ⟨hg, hmem⟩, -⟩ := p.sharedOut.one_group _ (p.sieved.mem_of_reads hs hreads)
    exact ⟨actions, hreads, g, hg, hmem⟩

namespace Sample

/-- A link with neither text nor address. -/
def deadLink : DiscoveredLink := { href := " ", text := some "" }

/-- A page with nothing but that link. -/
def deadEnd : DiscoveredPage := { path := "/", links := [deadLink] }

/-- The application with that page. -/
def deadEnds : Discovery := { pages := [deadEnd] }

end Sample

/-- The scenario that follows a link to nowhere is compiled, but not rendered. -/
theorem dead_link_not_rendered : ∃ p,
    compilePlan ⟨1⟩ Sample.deadEnds {} .empty "sdet" .builtin ⟨0, 0⟩ = .ok p ∧
    Pattern.linkCase Sample.deadEnds Sample.deadEnd Sample.deadLink 0 ∈ p.cases ∧
    (Pattern.linkCase Sample.deadEnds Sample.deadEnd Sample.deadLink 0).FailsIn
      .playwright {} p := by
  have hresolve : ({} : Environment).resolve .empty = .ok {} := rfl
  have hbundle : PatternLibrary.builtin.bundle "sdet" = .ok
      [.pageSmoke, .formHappyPath, .requiredValidation, .fileUpload, .linkNavigation] := rfl
  obtain ⟨p, hp, htraced⟩ :=
    compilePlan_traceable ⟨1⟩ Sample.deadEnds hresolve hbundle ⟨0, 0⟩
  have hmem : Pattern.linkCase Sample.deadEnds Sample.deadEnd Sample.deadLink 0 ∈ p.cases := by
    cases hp
    exact List.mem_cons_of_mem _ List.mem_cons_self
  obtain ⟨-, -, P, hP, -, -, -, -, hfails⟩ := htraced _ hmem
  obtain rfl := List.mem_singleton.mp hP
  refine ⟨p, hp, hmem, (hfails .playwright {} nofun).1.mpr (.inr ?_)⟩
  exact ⟨Sample.deadLink, 0, List.mem_cons_self, rfl, by decide, by decide⟩

end Testplan
