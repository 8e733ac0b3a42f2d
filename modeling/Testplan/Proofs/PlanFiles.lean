import Mathlib.Algebra.Group.Nat.Defs
import Testplan.Loading
import Testplan.Proofs.DocumentReading
import Testplan.Proofs.ExactHealing
import Testplan.Proofs.IdentifierText
import Testplan.Proofs.TimestampText
/-!
# Plans are read as they are written

A plan goes to its file as a document, and the document goes there as indented text.  On the
way back the text is read as a document and the plan is taken out of it.  The two documents
need not be equal, since a scalar without quotes is read as plain; `Document.GivenBack` says
which documents may come back, and every record of a plan is read from all of them.

Each record has a lemma `readsAs_toDocument` of its own, and all of these go the same way.  The
keys that are written are keys that the reader knows, none of them twice; each is looked up
among the members; and what is found there is read by the lemma for its kind.  A step keeps
what is absent apart from what is empty, since an absent value has no member.

A reader of files also compares the number of scenarios that a plan says with the number that
it has, and refuses the plan if they differ (`Plan.ofBytes_toYaml`).
-/
namespace Testplan

open Document

/-! ## Steps and scenarios -/

theorem StepKind.ofName?_name (k : StepKind) : ofName? k.name = some k := by cases k <;> rfl

theorem CoverageType.ofName?_name (c : CoverageType) : ofName? c.name = some c := by
  cases c <;> rfl

theorem Risk.ofName?_name (r : Risk) : ofName? r.name = some r := by cases r <;> rfl

theorem Step.readsAs_toDocument (s : Step) : s.toDocument.ReadsAs Step.ofDocument? s := by
  rintro _ h
  cases h with
  | @map _ others h =>
    have hrecord : (Document.map others).record? ["kind", "target", "value", "note"] = some others :=
      h.record? (((keysIn_always ..).append (keysIn_ifSome ..)).append (keysIn_ifSome ..) |>.append
        (keysIn_ifSome ..)) (by decide)
    have hkind : required? others "kind" (asName? StepKind.ofName?) = some s.kind :=
      h.required? (by simp [List.lookup_append])
        (readsAs_name (StepKind.ofName?_name s.kind))
    have htarget : optional? others "target" asText? = some s.target :=
      h.optional? (by simp [List.lookup_append]) fun t _ => readsAs_text t
    have hvalue : optional? others "value" asText? = some s.value :=
      h.optional? (by simp [List.lookup_append]) fun t _ => readsAs_text t
    have hnote : optional? others "note" asText? = some s.note :=
      h.optional? (by simp [List.lookup_append]) fun t _ => readsAs_text t
    unfold Step.ofDocument?
    rw [hrecord]
    simp only [Option.bind_eq_bind, Option.bind_some, hkind, htarget, hvalue, hnote]
    rfl

theorem TagSet.ofTags_keys (tags : TagSet) : TagSet.ofTags tags.keys = tags := by
  have hentries : (tags.keys.map fun t => (t, ())) = tags.entries := by
    rw [KeyTable.keys, List.map_map]
    exact List.map_id _
  rw [TagSet.ofTags, hentries, KeyTable.ofList_entries]

theorem Scenario.readsAs_toDocument (s : Scenario) :
    s.toDocument.ReadsAs Scenario.ofDocument? s := by
  rintro _ h
  cases h with
  | @map _ others h =>
    have hrecord : (Document.map others).record?
        ["id", "title", "coverage_type", "description", "tags", "risk", "steps"] = some others :=
      h.record? ((keysIn_always ..).append (keysIn_always ..) |>.append (keysIn_always ..)
        |>.append (keysIn_ifSome ..) |>.append (keysIn_always ..) |>.append (keysIn_ifSome ..)
        |>.append (keysIn_always ..)) (by decide)
    have hid : required? others "id" asText? = some s.id :=
      h.required? (by simp [List.lookup_append]) (readsAs_text s.id)
    have htitle : required? others "title" asText? = some s.title :=
      h.required? (by simp [List.lookup_append]) (readsAs_text s.title)
    have hcoverage : required? others "coverage_type" (asName? CoverageType.ofName?) =
        some s.coverage :=
      h.required? (by simp [List.lookup_append]) (readsAs_name s.coverage.ofName?_name)
    have hdescription : optional? others "description" asText? = some s.description :=
      h.optional? (by simp [List.lookup_append]) fun t _ => readsAs_text t
    have htags : withDefault? others "tags" (asList? asText?) [] = some s.tags.keys :=
      h.withDefault? (by simp [List.lookup_append]) (readsAs_texts s.tags.keys)
    have hrisk : optional? others "risk" (asName? Risk.ofName?) = some s.risk :=
      h.optional? (by simp [List.lookup_append]) fun r _ => readsAs_name r.ofName?_name
    have hsteps : required? others "steps" (asList? Step.ofDocument?) = some s.steps :=
      h.required? (by simp [List.lookup_append])
        (readsAs_list fun step _ => step.readsAs_toDocument)
    unfold Scenario.ofDocument?
    rw [hrecord]
    simp only [Option.bind_eq_bind, Option.bind_some, hid, htitle, hcoverage, hdescription, htags,
      hrisk, hsteps, TagSet.ofTags_keys]
    rfl

/-! ## Identities -/

theorem readsAs_uuid (u : Uuid) : (text u.render).ReadsAs asUuid? u :=
  (readsAs_text u.render).bind u.parse?_render

theorem readsAs_version (v : UInt32) : (natural v.toNat).ReadsAs asVersion? v := by
  have h := (readsAs_natural (1 <<< 32) v.toNat_lt).map UInt32.ofNat
  rwa [UInt32.ofNat_toNat] at h

theorem readsAs_timestamp {t : Timestamp} (h : t.Valid) : (text t.render).ReadsAs asTimestamp? t :=
  (readsAs_text t.render).bind (Timestamp.parse?_render h)

theorem PlanRef.readsAs_toDocument (r : PlanRef) :
    r.toDocument.ReadsAs PlanRef.ofDocument? r := by
  rintro _ h
  cases h with
  | @map _ others h =>
    have hrecord : (Document.map others).record? ["id", "version"] = some others :=
      h.record? ((keysIn_always ..).append (keysIn_always ..)) (by decide)
    have hid : required? others "id" asUuid? = some r.id :=
      h.required? (by simp [List.lookup_append]) (readsAs_uuid r.id)
    have hversion : required? others "version" asVersion? = some r.version :=
      h.required? (by simp [List.lookup_append]) (readsAs_version r.version)
    unfold PlanRef.ofDocument?
    rw [hrecord]
    simp only [Option.bind_eq_bind, Option.bind_some, hid, hversion]
    rfl

theorem PlanId.readsAs_toDocument (i : PlanId) : i.toDocument.ReadsAs PlanId.ofDocument? i := by
  rintro _ h
  cases h with
  | @map _ others h =>
    have hrecord : (Document.map others).record? ["id", "version", "parent"] = some others :=
      h.record? ((keysIn_always ..).append (keysIn_always ..) |>.append (keysIn_ifSome ..))
        (by decide)
    have hid : required? others "id" asUuid? = some i.id :=
      h.required? (by simp [List.lookup_append]) (readsAs_uuid i.id)
    have hversion : required? others "version" asVersion? = some i.version :=
      h.required? (by simp [List.lookup_append]) (readsAs_version i.version)
    have hparent : optional? others "parent" PlanRef.ofDocument? = some i.parent :=
      h.optional? (by simp [List.lookup_append]) fun r _ => r.readsAs_toDocument
    unfold PlanId.ofDocument?
    rw [hrecord]
    simp only [Option.bind_eq_bind, Option.bind_some, hid, hversion, hparent]
    rfl

/-! ## Plans -/

theorem PlanMeta.readsAs_toDocument {m : PlanMeta} (hcount : m.count < 2 ^ 64)
    (htime : m.generatedAt.Valid) : m.toDocument.ReadsAs PlanMeta.ofDocument? m := by
  rintro _ h
  cases h with
  | @map _ others h =>
    have hrecord : (Document.map others).record? ["persona", "count", "generated_at"] =
        some others :=
      h.record? ((keysIn_always ..).append (keysIn_always ..) |>.append (keysIn_always ..))
        (by decide)
    have hpersona : required? others "persona" asText? = some m.persona :=
      h.required? (by simp [List.lookup_append]) (readsAs_text m.persona)
    have hnumber : required? others "count" asNat64? = some m.count :=
      h.required? (by simp [List.lookup_append]) (readsAs_natural (1 <<< 64) hcount)
    have hgenerated : required? others "generated_at" asTimestamp? = some m.generatedAt :=
      h.required? (by simp [List.lookup_append]) (readsAs_timestamp htime)
    unfold PlanMeta.ofDocument?
    rw [hrecord]
    simp only [Option.bind_eq_bind, Option.bind_some, hpersona, hnumber, hgenerated]
    rfl

theorem CoverageProfile.readsAs_toDocument (c : CoverageProfile) :
    c.toDocument.ReadsAs CoverageProfile.ofDocument? c := by
  rintro _ h
  cases h with
  | @map _ others h =>
    have hrecord : (Document.map others).record?
        ["statement", "branch", "decision", "edge", "security", "notes"] = some others :=
      h.record? ((keysIn_ifSome ..).append (keysIn_ifSome ..) |>.append (keysIn_ifSome ..)
        |>.append (keysIn_ifSome ..) |>.append (keysIn_ifSome ..) |>.append (keysIn_always ..))
        (by decide)
    have hstatement : optional? others "statement" asFloat? = some c.statement :=
      h.optional? (by simp [List.lookup_append]) fun x _ => readsAs_float x
    have hbranch : optional? others "branch" asFloat? = some c.branch :=
      h.optional? (by simp [List.lookup_append]) fun x _ => readsAs_float x
    have hdecision : optional? others "decision" asFloat? = some c.decision :=
      h.optional? (by simp [List.lookup_append]) fun x _ => readsAs_float x
    have hedge : optional? others "edge" asFloat? = some c.edge :=
      h.optional? (by simp [List.lookup_append]) fun x _ => readsAs_float x
    have hsecurity : optional? others "security" asFloat? = some c.security :=
      h.optional? (by simp [List.lookup_append]) fun x _ => readsAs_float x
    have hnotes : withDefault? others "notes" (asList? asText?) [] = some c.notes :=
      h.withDefault? (by simp [List.lookup_append]) (readsAs_texts c.notes)
    unfold CoverageProfile.ofDocument?
    rw [hrecord]
    simp only [Option.bind_eq_bind, Option.bind_some, hstatement, hbranch, hdecision, hedge,
      hsecurity, hnotes]
    rfl

namespace Plan

/-- **A plan reads as itself.** -/
theorem readsAs_toDocument {p : Plan} (hcount : p.info.count < 2 ^ 64)
    (htime : p.info.generatedAt.Valid) : p.toDocument.ReadsAs Plan.ofDocument? p := by
  rintro _ h
  cases h with
  | @map _ others h =>
    have hrecord : (Document.map others).record? ["id", "base_url", "cases", "meta", "coverage"] =
        some others :=
      h.record? ((keysIn_always ..).append (keysIn_always ..) |>.append (keysIn_always ..)
        |>.append (keysIn_always ..) |>.append (keysIn_ifSome ..)) (by decide)
    have hid : required? others "id" PlanId.ofDocument? = some p.id :=
      h.required? (by simp [List.lookup_append]) p.id.readsAs_toDocument
    have hbase : required? others "base_url" asText? = some p.baseUrl :=
      h.required? (by simp [List.lookup_append]) (readsAs_text p.baseUrl)
    have hcases : required? others "cases" (asList? Scenario.ofDocument?) = some p.cases :=
      h.required? (by simp [List.lookup_append]) (readsAs_list fun s _ => s.readsAs_toDocument)
    have hinfo : required? others "meta" PlanMeta.ofDocument? = some p.info :=
      h.required? (by simp [List.lookup_append]) (PlanMeta.readsAs_toDocument hcount htime)
    have hcoverage : optional? others "coverage" CoverageProfile.ofDocument? = some p.coverage :=
      h.optional? (by simp [List.lookup_append]) fun c _ => c.readsAs_toDocument
    unfold Plan.ofDocument?
    rw [hrecord]
    simp only [Option.bind_eq_bind, Option.bind_some, hid, hbase, hcases, hinfo, hcoverage]
    rfl

/-- The file layer gives back the tree that it was given. -/
def SurvivesFile (p : Plan) : Prop :=
  ∃ d, Document.ofYaml? p.toYaml = some d ∧ p.toDocument.GivenBack d

/-- **A plan is read from its file as it was written**, and a file is read exactly if the plan in
it says how many scenarios it has.  A count is a number of 64 bits. -/
theorem ofBytes_toYaml :
    (∀ p : Plan, p.Counted → p.info.count < 2 ^ 64 → p.info.generatedAt.Valid → p.SurvivesFile →
      ofBytes p.toYaml.toUTF8 = .ok p) ∧
    ∀ bytes s d p, String.fromUTF8? bytes = some s → Document.ofYaml? s = some d →
      ofDocument? d = some p →
      ((∃ q, ofBytes bytes = .ok q) ↔ p.Counted) ∧
      (p.Counted → ofBytes bytes = .ok p) ∧
      (¬ p.Counted → ofBytes bytes = .error (.countMismatch p.info.count p.cases.length)) := by
  have hload {bytes : ByteArray} {s : String} {d : Document} {p : Plan}
      (hs : String.fromUTF8? bytes = some s) (hd : Document.ofYaml? s = some d)
      (hp : ofDocument? d = some p) : ofBytes bytes =
        if p.info.count = p.cases.length then .ok p
        else .error (.countMismatch p.info.count p.cases.length) := by
    unfold ofBytes ofYaml ofFileDocument
    simp only [hs, hd, Option.bind_some, hp]
  constructor
  · rintro p hcounted hcount htime ⟨d, hd, hback⟩
    have hutf8 : String.fromUTF8? p.toYaml.toUTF8 = some p.toYaml := dif_pos p.toYaml.isValidUTF8
    rw [hload hutf8 hd (readsAs_toDocument hcount htime d hback)]
    exact if_pos hcounted
  · intro bytes s d p hs hd hp
    rw [hload hs hd hp]
    unfold Counted
    split
    · next hcounted =>
      exact ⟨iff_of_true ⟨p, rfl⟩ hcounted, fun _ => rfl, fun h => absurd hcounted h⟩
    · next hcounted =>
      exact ⟨iff_of_false nofun hcounted, fun h => absurd h hcounted, fun _ => rfl⟩

end Plan

namespace Sample

/-- A plan with a step whose value is empty, made in a leap second. -/
def filed : Plan where
  id := ⟨⟨1000⟩, 1, none⟩
  baseUrl := "/"
  cases := [{
    id := "a", title := "A: 1", coverage := .edge, steps := [.fill "label=Email" ""] }]
  info := ⟨"sdet", 1, ⟨1467331199, 1500000000⟩⟩

/-- The file of the plan. -/
def file : String := "id:
  id: 00000000-0000-0000-0000-0000000003e8
  version: 1
base_url: /
cases:
- id: a
  title: 'A: 1'
  coverage_type: edge
  tags: []
  steps:
  - kind: fill
    target: label=Email
    value: ''
meta:
  persona: sdet
  count: 1
  generated_at: 2016-06-30T23:59:60.500Z
"

theorem toYaml_filed : filed.toYaml = file := by
  have htags : (KeyTable.empty : TagSet).keys = [] := rfl
  -- The printer goes down the tree by the size of what it prints, so it is unfolded by its equations.
  unfold filed Plan.toYaml Plan.toDocument Document.toYaml PlanId.toDocument PlanMeta.toDocument
    Step.fill
  simp only [Scenario.toDocument, Step.toDocument, always, ifSome, texts, natural, List.map_cons,
    List.map_nil, List.append_nil, List.cons_append, List.nil_append, htags, Yaml.node, Yaml.value,
    Yaml.members, Yaml.items]
  decide +kernel

end Sample

/-- What is read from a text that is given by its characters. -/
theorem Document.ofYaml?_ofList (cs : List Char) : Document.ofYaml? (String.ofList cs) =
    let cs := match cs with
      | '\ufeff' :: rest => rest
      | cs => cs
    if cs.all Yaml.isAllowed then Yaml.documentAt (8 * cs.length + 16) { rest := cs } else none := by
  have hread (ds : List Char) (h : (String.ofList cs).toList = ds) :
      Document.ofYaml? (String.ofList cs) =
        let ds := match ds with
          | '\ufeff' :: rest => rest
          | ds => ds
        if ds.all Yaml.isAllowed then Yaml.documentAt (8 * ds.length + 16) { rest := ds }
        else none := h ▸ rfl
  exact hread cs String.toList_ofList

/-- The plan is written to its file and read from it. -/
theorem Plan.filed_read : Plan.ofBytes Sample.filed.toYaml.toUTF8 = .ok Sample.filed := by
  have hback : ((Document.ofYaml? Sample.file).any Sample.filed.toDocument.comesBack) = true := by
    unfold Sample.file
    rw [Document.ofYaml?_ofList]
    decide +kernel
  obtain ⟨d, hd, hcomes⟩ := (Option.any_eq_true _ _).mp hback
  exact Plan.ofBytes_toYaml.1 Sample.filed rfl (by decide)
    ⟨.inr ⟨by decide, by decide⟩, by decide, by decide⟩
    ⟨d, Sample.toYaml_filed ▸ hd, Document.givenBack_of_comesBack _ d hcomes⟩

end Testplan
