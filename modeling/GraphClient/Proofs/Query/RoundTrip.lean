import GraphClient.Proofs.Predicate.RoundTrip
import GraphClient.Proofs.Query.Canonical
import GraphClient.Proofs.Query.Operands
import GraphClient.Proofs.Wire.Lossless
import GraphClient.Query.Wire

/-!
Every query that calls can build is read back as it was written, as a query and as a request for its plan. The two
differ in one member, which a query passes over and a request reads as a default.
-/
namespace GraphClient

open Wire

/-! Parts of a query. -/

theorem lossless_textOrNull : Lossless (fun _ => True) (optional text) textOrNull :=
  (Lossless.text.optional fun _ _ => nofun).weaken fun _ _ _ _ => trivial

@[simp] theorem optional_textOrNull (s : Option String) : optional text (textOrNull s) = .ok s :=
  lossless_textOrNull.back s trivial

@[simp] theorem textOrNull_faithful (s : Option String) : (textOrNull s).Faithful := lossless_textOrNull.faithful s trivial

theorem Direction.lossless (place : Place) : Lossless (fun _ => True) (Direction.read place) Direction.toJson where
  steady := .choice place _
  faithful _ _ := .string
  back d _ := by
    cases d <;> rfl

theorem Variable.lossless : Lossless (fun _ => True) Variable.read Variable.toJson where
  steady := .record (((Parts.Steady.required .text 0 "var").map _).seq (.defaulting (.optional .text) 1 "label" none)) _ _
  faithful v _ := .object (by simp) (by simp)
  back v _ := by
    rw [Variable.read, Variable.toJson, record_object]
    simp

theorem EdgePattern.lossless (place : Place) : Lossless (fun _ => True) (EdgePattern.read place) EdgePattern.toJson where
  steady := by
    have ends := ((Parts.Steady.required .text 0 "from").map EdgePattern.mk).seq (.required .text 1 "to")
    exact .record ((ends.seq (.defaulting (.optional .text) 2 "edge_type" none)).seq
      (.defaulting (Direction.lossless place).steady 3 "direction" .outgoing)) _ _
  faithful e _ := .object (by simp) (by simp [(Direction.lossless place).faithful e.direction])
  back e _ := by
    rw [EdgePattern.read, EdgePattern.toJson, record_object]
    simp [(Direction.lossless place).back e.direction]

namespace Projection

def readParts : Bool → Parts → Except Fault Projection
  | false, p => p.read 2 fun p => node <$> p.required 0 "var" text <*> p.defaulting 1 "alias" none (optional text)
  | true, p => p.read 3 fun p => property <$> p.required 0 "var" text <*> p.required 1 "prop" text <*>
      p.defaulting 2 "alias" none (optional text)

theorem read_eq (place : Place) (j : Json) :
    read place j = tagged place "kind" kinds j >>= fun y => readParts y.1 y.2 := by
  refine congrArg (tagged place "kind" kinds j >>= ·) (funext fun y => ?_)
  obtain ⟨_ | _, p⟩ := y <;> rfl

theorem steady_read (place : Place) : Steady (read place) := by
  intro j faithful c
  rw [read_eq, read_eq]
  refine Steady.tagged readParts (fun ⟨_, k⟩ _ p faithful c => ?_) place "kind" j faithful c
  cases k with
  | false =>
      have var := (Parts.Steady.required .text 0 "var").map node
      exact (var.seq (.defaulting (.optional .text) 1 "alias" none)).read 2 faithful c
  | true =>
      have names := ((Parts.Steady.required .text 0 "var").map property).seq (.required .text 1 "prop")
      exact (names.seq (.defaulting (.optional .text) 2 "alias" none)).read 3 faithful c

theorem lossless (place : Place) : Lossless (fun _ => True) (read place) toJson where
  steady := steady_read place
  faithful c _ := by
    cases c <;> exact .object (by simp) (by simp)
  back c _ := by
    rw [read_eq]
    cases c with
    | node var column =>
        have tag : variant kinds "var" = .ok false := rfl
        rw [toJson, tagged_head (by simp) tag, ok_bind, readParts, Parts.read_members_eq_ok]
        simp
    | property var prop column =>
        have tag : variant kinds "prop" = .ok true := rfl
        rw [toJson, tagged_head (by simp) tag, ok_bind, readParts, Parts.read_members_eq_ok]
        simp

end Projection

/-! Queries. -/

theorem Query.steady_parts (place : Place) : Parts.Steady (Query.parts place) := by
  have version := (Parts.Steady.required .uint32 0 "$schemaVersion").map Query.mk
  have matched := version.seq (.defaulting Variable.lossless.steady.list 1 "matches" [])
  have edged := matched.seq (.defaulting (EdgePattern.lossless place).steady.list 2 "edges" [])
  have asked := edged.seq (.defaulting (Predicate.steady_read place).optional 3 "predicate" none)
  have chosen := asked.seq (.defaulting (Projection.lossless place).steady.list 4 "projections" [])
  have once := chosen.seq (.defaulting .bool 5 "distinct" false)
  exact once.seq (.slot (.optional .text) 6 "request_id" ["requestId"] (some none))

theorem Query.steady_read : Steady Query.read := .record (Query.steady_parts .outside) _ _

theorem PlanRequest.steady_read : Steady PlanRequest.read := by
  intro j faithful r
  rcases faithful.normalize_cases with same | ⟨xs, rfl, _⟩ | ⟨ms, rfl, distinct, members⟩
  · rw [same]
  · exact Iff.rfl
  · have parts : (Parts.members ms).Faithful := .members distinct members
    have redact := Parts.Steady.defaulting .bool 0 "redact_literals" false _ parts
    have query := Query.steady_parts .inside _ parts
    simp only [Parts.normalize] at redact query
    simp only [Json.normalize, PlanRequest.read, bind_eq_ok, Reading.result_eq_ok, redact, query]

theorem Predicate.toJson_ne_null (p : Predicate) : p.toJson ≠ .null := by
  cases p <;> simp [toJson]

@[simp] theorem valuesOf_memberIfSome (names : List String) (name : String) (j : Option Json) :
    Parts.valuesOf names (memberIfSome name j) = if name ∈ names then j.toList else [] := by
  cases j <;> simp [memberIfSome]

def Query.Writable (q : Query) : Prop := ∀ p ∈ q.predicate, p.Filled ∧ p.Finite

namespace PlanRequest

def flag (r : PlanRequest) : List (String × Json) := if r.redactLiterals then [("redact_literals", .bool true)] else []

def members (r : PlanRequest) : List (String × Json) := r.query.members ++ r.flag

theorem valuesOf_flag (r : PlanRequest) {names : List String} (other : "redact_literals" ∉ names) :
    Parts.valuesOf names r.flag = [] := by
  unfold flag
  cases r.redactLiterals <;> simp [other]

theorem parts_members (place : Place) {r : PlanRequest} (h : r.query.Writable) :
    Query.parts place (.members r.members) = .done r.query := by
  have version : (Parts.members r.members).required 0 "$schemaVersion" uint32 = .done r.query.version := by
    have found : Parts.valuesOf ["$schemaVersion"] r.members = [.integer r.query.version.toNat] := by
      simp [members, Query.members, valuesOf_flag]
    exact Parts.required_eq_done.mpr ⟨_, found, Lossless.uint32.back _ trivial⟩
  have matched : (Parts.members r.members).defaulting 1 "matches" [] (list Variable.read) = .done r.query.vars := by
    have found : Parts.valuesOf ["matches"] r.members = [.array (r.query.vars.map Variable.toJson)] := by
      simp [members, Query.members, valuesOf_flag]
    exact Parts.defaulting_eq_done.mpr (.inr ⟨_, found, Variable.lossless.list.back _ fun _ _ => trivial⟩)
  have edged : (Parts.members r.members).defaulting 2 "edges" [] (list (EdgePattern.read place)) = .done r.query.edges := by
    have found : Parts.valuesOf ["edges"] r.members = [.array (r.query.edges.map EdgePattern.toJson)] := by
      simp [members, Query.members, valuesOf_flag]
    exact Parts.defaulting_eq_done.mpr (.inr ⟨_, found, (EdgePattern.lossless place).list.back _ fun _ _ => trivial⟩)
  have asked : (Parts.members r.members).defaulting 3 "predicate" none (optional (Predicate.read place)) =
      .done r.query.predicate := by
    have found : Parts.valuesOf ["predicate"] r.members = (r.query.predicate.map Predicate.toJson).toList := by
      simp [members, Query.members, valuesOf_flag]
    rw [Parts.defaulting_eq_done, Parts.values_members, found]
    cases given : r.query.predicate with
    | none => exact .inl ⟨rfl, rfl⟩
    | some p =>
        obtain ⟨filled, finite⟩ := h p given
        have back := (Predicate.read_toJson place p p).mpr ⟨⟨filled, finite⟩, rfl⟩
        exact .inr ⟨_, rfl, by rw [optional_eq_map p.toJson_ne_null, back, map_ok]⟩
  have chosen : (Parts.members r.members).defaulting 4 "projections" [] (list (Projection.read place)) =
      .done r.query.projections := by
    have found : Parts.valuesOf ["projections"] r.members = [.array (r.query.projections.map Projection.toJson)] := by
      simp [members, Query.members, valuesOf_flag]
    exact Parts.defaulting_eq_done.mpr (.inr ⟨_, found, (Projection.lossless place).list.back _ fun _ _ => trivial⟩)
  have once : (Parts.members r.members).defaulting 5 "distinct" false bool = .done r.query.distinct := by
    have found : Parts.valuesOf ["distinct"] r.members = [.bool r.query.distinct] := by
      simp [members, Query.members, valuesOf_flag]
    exact Parts.defaulting_eq_done.mpr (.inr ⟨_, found, rfl⟩)
  have named : (Parts.members r.members).slot 6 "request_id" ["requestId"] (some none) (optional text) =
      .done r.query.requestId := by
    have found : Parts.valuesOf ["request_id", "requestId"] r.members = (r.query.requestId.map Json.string).toList := by
      simp [members, Query.members, valuesOf_flag]
    rw [Parts.slot_eq_done, Parts.values_members, found]
    cases r.query.requestId with
    | none => exact .inl ⟨rfl, rfl⟩
    | some i => exact .inr ⟨_, rfl, rfl⟩
  rw [Query.parts, version, matched, edged, asked, chosen, once, named]
  rfl

theorem read_toJson {r : PlanRequest} (h : r.query.Writable) : PlanRequest.read r.toJson = .ok r := by
  have redact : (Parts.members r.members).defaulting 0 "redact_literals" false bool = .done r.redactLiterals := by
    -- a query has no member of that name
    have own : Parts.valuesOf ["redact_literals"] r.members = Parts.valuesOf ["redact_literals"] r.flag := by
      simp [members, Query.members]
    rw [Parts.defaulting_eq_done, Parts.values_members, own, flag]
    cases r.redactLiterals <;> simp [Wire.bool]
  change PlanRequest.read (.object r.members) = _
  rw [PlanRequest.read, redact, parts_members .inside h]
  rfl

theorem members_faithful (r : PlanRequest) : (Json.object r.members).Faithful := by
  have distinct : (Entries.names r.members).Nodup := by
    simp only [members, Query.members, flag, memberIfSome]
    cases r.query.predicate <;> cases r.query.requestId <;> cases r.redactLiterals <;> simp
  have version := Lossless.uint32.faithful r.query.version trivial
  have vars := Variable.lossless.list.faithful r.query.vars fun _ _ => trivial
  have edges := (EdgePattern.lossless .outside).list.faithful r.query.edges fun _ _ => trivial
  have columns := (Projection.lossless .outside).list.faithful r.query.projections fun _ _ => trivial
  have asked : ∀ m ∈ memberIfSome "predicate" (r.query.predicate.map Predicate.toJson), m.2.Faithful := by
    cases r.query.predicate <;> simp [memberIfSome, Predicate.toJson_faithful]
  have named : ∀ m ∈ memberIfSome "request_id" (r.query.requestId.map Json.string), m.2.Faithful := by
    cases r.query.requestId <;> simp [memberIfSome]
  have flagged : ∀ m ∈ r.flag, m.2.Faithful := by
    unfold flag
    cases r.redactLiterals <;> simp
  refine .object distinct ?_
  simp only [members, Query.members, List.forall_mem_append, List.forall_mem_cons]
  exact ⟨⟨⟨⟨⟨version, vars, edges, by simp⟩, asked⟩, columns, .bool, by simp⟩, named⟩, flagged⟩

theorem lossless : Lossless (fun r => r.query.Writable) PlanRequest.read PlanRequest.toJson where
  steady := steady_read
  faithful r _ := r.members_faithful
  back _ := read_toJson

end PlanRequest

/-- A query is written as the request that does without the other member. -/
theorem Query.encode_eq (q : Query) : Query.format.encode q = PlanRequest.format.encode ⟨q, false⟩ := by
  have same : q.toJson = PlanRequest.toJson ⟨q, false⟩ := by
    simp [Query.toJson, PlanRequest.toJson]
  exact congrArg Value.ofJson same

namespace PlanRequest

variable {r : PlanRequest} (h : r.query.Writable)
include h

theorem decode_encode : format.decode (format.encode r) = .ok r := lossless.keeps h

theorem decode_query : Query.format.decode (format.encode r) = .ok r.query := by
  rw [Format.decode_eq_ok]
  exact (Query.steady_read _ r.members_faithful r.query).mpr (record_object.mpr (parts_members .outside h))

end PlanRequest

/-! Built queries. -/

namespace Builder

theorem wide_apply {b : Builder} {e : Edit} (old : ∀ p ∈ b.predicate, p.Wide) (allowed : e.Allowed b) :
    ∀ p ∈ (e.apply b).predicate, p.Wide := by
  cases e with
  | ask mode p =>
      obtain ⟨_, _, admissible⟩ := allowed
      exact Attachment.wide_join (a := ⟨mode, p⟩) admissible.filled old
  | _ => exact old

theorem writable_after (schema : Option Schema) (calls : List Call) :
    ((new schema).after calls).build.Writable := by
  obtain ⟨es, edited, _⟩ := (new schema).after_edited calls
  have wide := edited.keeps (P := fun b => ∀ p ∈ b.predicate, p.Wide) (fun _ _ old allowed => wide_apply old allowed) nofun
  exact fun p asked => ⟨(wide p asked).filled, (sound_after schema calls p asked).finite⟩

/-- A built query is read back from its own document and from that of a request for its plan, and the request is read
back from both, without the other member as one that redacts nothing. -/
theorem build_round_trip (schema : Option Schema) (calls : List Call) (redact : Bool) :
    let q := ((new schema).after calls).build
    Query.format.decode (Query.format.encode q) = .ok q ∧
      PlanRequest.format.decode (PlanRequest.format.encode ⟨q, redact⟩) = .ok ⟨q, redact⟩ ∧
      Query.format.decode (PlanRequest.format.encode ⟨q, redact⟩) = .ok q ∧
      PlanRequest.format.decode (Query.format.encode q) = .ok ⟨q, false⟩ := by
  intro q
  have h : q.Writable := writable_after schema calls
  have planned := PlanRequest.decode_encode (r := ⟨q, redact⟩) h
  have executed := PlanRequest.decode_query (r := ⟨q, redact⟩) h
  have alone := PlanRequest.decode_query (r := ⟨q, false⟩) h
  have plain := PlanRequest.decode_encode (r := ⟨q, false⟩) h
  rw [Query.encode_eq]
  exact ⟨alone, planned, executed, plain⟩

end Builder
end GraphClient
