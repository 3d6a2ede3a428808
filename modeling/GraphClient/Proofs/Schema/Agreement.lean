import GraphClient.Proofs.Schema.Admission
import GraphClient.Proofs.Schema.Checks
import GraphClient.Proofs.Text.Order

/-!
The checks made before properties are written beside those made when they are asked for. Of a blank name only the latter
complain, but a valid schema lists none, so that both let the same names through. A refusal names the smallest property
that is not allowed, since properties are kept in the order of their names.
-/
namespace GraphClient

/-- The first, in the order of their bytes, of the texts that have a property. -/
structure Text.Smallest (P : String → Prop) (s : String) : Prop where
  holds : P s
  least : ∀ t, P t → t = s ∨ bytes s < bytes t

theorem Text.Smallest.unique {P : String → Prop} {s t : String} (h : Smallest P s) (k : Smallest P t) : s = t := by
  rcases h.least t k.holds with same | later
  · exact same.symm
  · rcases k.least s h.holds with same | earlier
    · exact same
    · exact absurd earlier (List.lt_asymm later)

namespace Record

variable {α : Type} {r : Record α} {name : String} {a : α}

theorem mem_of_get? (h : r.get? name = some a) : (name, a) ∈ r.entries := by
  obtain ⟨before, after, entries, _⟩ := List.lookup_eq_some_iff.mp h
  rw [entries]
  exact List.mem_append_right before List.mem_cons_self

theorem mem_names_of_contains (h : r.contains name = true) : name ∈ r.names := by
  obtain ⟨a, found⟩ := Option.isSome_iff_exists.mp h
  exact List.mem_map_of_mem (mem_of_get? found)

/-- Names are in order, so the first that offends is the smallest. -/
theorem smallest_of_firstOffender {Good : String → Prop} (h : FirstOffender Good r.names name) :
    Text.Smallest (fun key => key ∈ r.names ∧ ¬ Good key) name := by
  refine ⟨⟨h.mem, h.offends⟩, fun key ⟨member, offends⟩ => ?_⟩
  obtain ⟨before, after, names, fine, _⟩ := h
  have sorted : (before ++ name :: after).Pairwise (· < ·) := names ▸ r.sorted
  rw [names] at member
  rcases List.mem_append.mp member with early | late
  · exact absurd (fine key early) offends
  · rcases List.mem_cons.mp late with same | behind
    · exact .inl same
    · have less := List.rel_of_pairwise_cons (List.pairwise_append.mp sorted).2.1 behind
      exact .inr (Text.bytes_lt_iff.mpr less)

theorem firstOffender_iff_smallest {Good : String → Prop} :
    FirstOffender Good r.names name ↔ Text.Smallest (fun key => key ∈ r.names ∧ ¬ Good key) name := by
  refine ⟨smallest_of_firstOffender, fun smallest => ?_⟩
  have some : ¬ ∀ key ∈ r.names, Good key := fun all => smallest.holds.2 (all name smallest.holds.1)
  obtain ⟨first, offends⟩ := exists_firstOffender some
  rwa [smallest.unique (smallest_of_firstOffender offends)]

end Record

namespace Schema

variable {s : Schema}

structure Valid (s : Schema) : Prop where
  labels : ∀ e ∈ s.nodes.entries, Text.isBlank e.1 = false
  properties : ∀ e ∈ s.nodes.entries, ∀ name ∈ e.2.properties.names, Text.isBlank name = false
  edgeTypes : ∀ e ∈ s.edges.entries, Text.isBlank e.1 = false
  ends : ∀ e ∈ s.edges.entries, s.nodes.contains e.2.source = true ∧ s.nodes.contains e.2.target = true
  edgeProperties : ∀ e ∈ s.edges.entries, ∀ name ∈ e.2.properties.names, Text.isBlank name = false

theorem found_eq_none_iff {α : Type} {c : Prop} [Decidable c] {a : α} {x : Option α} :
    (if c then some a else x) = none ↔ ¬ c ∧ x = none := by
  by_cases given : c
  · simp [given]
  · simp [given]

theorem nodeViolation_eq_none_iff {label : String} {n : Node} :
    nodeViolation label n = none ↔
      Text.isBlank label = false ∧ ∀ name ∈ n.properties.names, Text.isBlank name = false := by
  simp [nodeViolation, found_eq_none_iff]

theorem edgeViolation_eq_none_iff {edgeType : String} {e : Edge} :
    s.edgeViolation edgeType e = none ↔ Text.isBlank edgeType = false ∧
      (s.nodes.contains e.source = true ∧ s.nodes.contains e.target = true) ∧
        ∀ name ∈ e.properties.names, Text.isBlank name = false := by
  simp [edgeViolation, found_eq_none_iff, and_assoc]

theorem violation?_eq_none_iff : s.violation? = none ↔ s.Valid := by
  simp only [violation?, Option.orElse_eq_orElse, Option.orElse_eq_or, Option.or_eq_none_iff, List.findSome?_eq_none_iff,
    nodeViolation_eq_none_iff, edgeViolation_eq_none_iff]
  constructor
  · rintro ⟨nodes, edges⟩
    exact ⟨fun e h => (nodes e h).1, fun e h => (nodes e h).2, fun e h => (edges e h).1, fun e h => (edges e h).2.1,
      fun e h => (edges e h).2.2⟩
  · intro h
    exact ⟨fun e member => ⟨h.labels e member, h.properties e member⟩,
      fun e member => ⟨h.edgeTypes e member, h.ends e member, h.edgeProperties e member⟩⟩

theorem validate_eq_ok_iff : s.validate = .ok () ↔ s.Valid := by
  rw [← violation?_eq_none_iff, validate]
  cases s.violation? <;> simp

def LetsAsk (s : Schema) (labels : List String) (key : String) : Prop :=
  ∃ l ∈ labels, s.nodes.contains l = true ∧ (s.propertyCheck (some l)).check key = .ok key

theorem propertyCheck_declared {label : String} {n : Node} (known : s.nodes.get? label = some n) :
    s.propertyCheck (some label) = .among label n.properties := by
  simp only [propertyCheck, nodeProperties?, known, Option.map_some]

theorem Valid.check_declared_iff (valid : s.Valid) {label : String} {n : Node} (known : s.nodes.get? label = some n)
    {key : String} : (s.propertyCheck (some label)).check key = .ok key ↔ n.properties.contains key = true := by
  rw [propertyCheck_declared known, PropertyCheck.check_eq_ok_iff, and_iff_right rfl]
  refine ⟨And.right, fun listed => ⟨?_, listed⟩⟩
  exact valid.properties _ (Record.mem_of_get? known) key (Record.mem_names_of_contains listed)

theorem Valid.letsAsk_iff (valid : s.Valid) {labels : List String} {key : String} :
    s.LetsAsk labels key ↔ ∃ l ∈ labels, ∃ n, s.nodes.get? l = some n ∧ n.properties.contains key = true := by
  refine exists_congr fun l => and_congr_right fun _ => ?_
  constructor
  · rintro ⟨declared, passes⟩
    obtain ⟨n, known⟩ := Option.isSome_iff_exists.mp declared
    exact ⟨n, known, (valid.check_declared_iff known).mp passes⟩
  · rintro ⟨n, known, listed⟩
    exact ⟨Option.isSome_iff_exists.mpr ⟨n, known⟩, (valid.check_declared_iff known).mpr listed⟩

/-- What is checked when a node or an edge is written, in terms of what may be asked for. -/
structure ChecksAgree (s : Schema) : Prop where
  node_accepted : ∀ labels props, s.checkNodeProps labels props = .ok () ↔
    (∀ l ∈ labels, s.nodes.contains l = false) ∨ ∀ key ∈ props.names, s.LetsAsk labels key
  labels_irrelevant : ∀ labels others props, (∀ l, s.nodes.contains l = true → (l ∈ labels ↔ l ∈ others)) →
    (s.checkNodeProps labels props = .ok () ↔ s.checkNodeProps others props = .ok ())
  node_refused : ∀ labels props v, s.checkNodeProps labels props = .error v ↔
    (∃ l ∈ labels, s.nodes.contains l = true) ∧
      ∃ key, Text.Smallest (fun key => key ∈ props.names ∧ ¬ s.LetsAsk labels key) key ∧ .nodeProperty key labels = v
  edge_accepted : ∀ edgeType props, s.checkEdgeProps edgeType props = .ok () ↔
    s.edges.contains edgeType = false ∨
      ∃ e, s.edges.get? edgeType = some e ∧ ∀ key ∈ props.names, e.properties.contains key = true
  edge_refused : ∀ edgeType props v, s.checkEdgeProps edgeType props = .error v ↔
    ∃ e, s.edges.get? edgeType = some e ∧
      ∃ key, Text.Smallest (fun key => key ∈ props.names ∧ ¬ e.properties.contains key = true) key ∧
        .edgeProperty key edgeType = v

theorem admitsNode_iff {labels : List String} {props : Props} : s.AdmitsNode labels props ↔
    (∀ l ∈ labels, s.nodes.contains l = false) ∨
      ∀ key ∈ props.names, ∃ l ∈ labels, ∃ n, s.nodes.get? l = some n ∧ n.properties.contains key = true := by
  rw [AdmitsNode, imp_iff_not_or]
  simp

theorem admitsNode_congr {labels others : List String}
    (same : ∀ l, s.nodes.contains l = true → (l ∈ labels ↔ l ∈ others)) (props : Props) :
    s.AdmitsNode labels props ↔ s.AdmitsNode others props := by
  have declared : (∃ l ∈ labels, s.nodes.contains l = true) ↔ ∃ l ∈ others, s.nodes.contains l = true :=
    exists_congr fun l => and_congr_left (same l)
  have listed (key : String) : (∃ l ∈ labels, ∃ n, s.nodes.get? l = some n ∧ n.properties.contains key = true) ↔
      ∃ l ∈ others, ∃ n, s.nodes.get? l = some n ∧ n.properties.contains key = true := by
    refine exists_congr fun l => and_congr_left ?_
    rintro ⟨n, known, _⟩
    exact same l (Option.isSome_iff_exists.mpr ⟨n, known⟩)
  simp only [AdmitsNode, declared, listed]

theorem admitsEdge_iff {edgeType : String} {props : Props} : s.AdmitsEdge edgeType props ↔
    s.edges.contains edgeType = false ∨
      ∃ e, s.edges.get? edgeType = some e ∧ ∀ key ∈ props.names, e.properties.contains key = true := by
  unfold AdmitsEdge Record.contains
  cases s.edges.get? edgeType <;> simp

/-- A valid schema checks what is written as it checks what is asked for. -/
theorem writing_agrees_asking {s : Schema} (valid : s.validate = .ok ()) : s.ChecksAgree := by
  have valid := validate_eq_ok_iff.mp valid
  exact {
    node_accepted := fun labels props => by
      simp only [checkNodeProps_eq_ok_iff, admitsNode_iff, valid.letsAsk_iff]
    labels_irrelevant := fun labels others props same => by
      simp only [checkNodeProps_eq_ok_iff, admitsNode_congr same]
    node_refused := fun labels props v => by
      simp only [checkNodeProps_eq_error_iff, Record.firstOffender_iff_smallest, valid.letsAsk_iff]
    edge_accepted := fun edgeType props => checkEdgeProps_eq_ok_iff.trans admitsEdge_iff
    edge_refused := fun edgeType props v => by
      simp only [checkEdgeProps_eq_error_iff, Record.firstOffender_iff_smallest] }

theorem writing_agrees_asking_two_labels :
    let s := (Schema.empty.node "User" ["name", "age"]).node "Post" ["title"]
    let props : Props := .ofList [("title", .null), ("zip", .null), ("bio", .null)]
    s.validate = .ok () ∧ s.checkNodeProps ["Post", "Tag", "User"] props =
        .error (.nodeProperty "bio" ["Post", "Tag", "User"]) ∧
      Text.Smallest (fun key => key ∈ props.names ∧ ¬ s.LetsAsk ["Post", "Tag", "User"] key) "bio" := by
  intro s props
  have valid : s.validate = .ok () := rfl
  have refused : s.checkNodeProps ["Post", "Tag", "User"] props =
      .error (.nodeProperty "bio" ["Post", "Tag", "User"]) := rfl
  obtain ⟨_, key, smallest, named⟩ := ((writing_agrees_asking valid).node_refused _ _ _).mp refused
  cases named
  exact ⟨valid, refused, smallest⟩

end Schema
end GraphClient
