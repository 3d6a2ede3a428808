import GraphClient.Engine.Basic
import GraphClient.Proofs.Outcome

/-!
What a schema lets come into being. The checks made before mutations are queued and sent pass exactly what is admitted
here.
-/
namespace GraphClient

/-- The first member of a list that is not as it should be. -/
def FirstOffender {α : Type} (Good : α → Prop) (l : List α) (a : α) : Prop :=
  ∃ before after, l = before ++ a :: after ∧ (∀ b ∈ before, Good b) ∧ ¬ Good a

section
variable {α : Type}

theorem FirstOffender.mem {Good : α → Prop} {l : List α} {a : α} (h : FirstOffender Good l a) : a ∈ l := by
  obtain ⟨before, after, rfl, _, _⟩ := h
  exact List.mem_append_right _ List.mem_cons_self

theorem FirstOffender.offends {Good : α → Prop} {l : List α} {a : α} (h : FirstOffender Good l a) : ¬ Good a := by
  obtain ⟨_, _, _, _, offends⟩ := h
  exact offends

theorem exists_firstOffender {Good : α → Prop} {l : List α} (h : ¬ ∀ a ∈ l, Good a) : ∃ a, FirstOffender Good l a := by
  induction l with
  | nil => exact absurd (List.forall_mem_nil _) h
  | cons b l ih =>
      by_cases good : Good b
      · have rest : ¬ ∀ a ∈ l, Good a := fun all => h (List.forall_mem_cons.mpr ⟨good, all⟩)
        obtain ⟨a, before, after, rfl, fine, offends⟩ := ih rest
        exact ⟨a, b :: before, after, rfl, List.forall_mem_cons.mpr ⟨good, fine⟩, offends⟩
      · exact ⟨b, [], l, rfl, List.forall_mem_nil _, good⟩

theorem find?_eq_some_iff_firstOffender {good : α → Bool} {l : List α} {a : α} :
    l.find? (fun b => !good b) = some a ↔ FirstOffender (fun b => good b = true) l a := by
  simp only [List.find?_eq_some_iff_append, FirstOffender, Bool.not_not, Bool.not_eq_true', Bool.not_eq_true]
  exact ⟨fun ⟨offends, before, after, split, fine⟩ => ⟨before, after, split, fine, offends⟩,
    fun ⟨before, after, split, fine, offends⟩ => ⟨offends, before, after, split, fine⟩⟩

end

namespace Schema

variable {s : Schema}

/-- If one of the labels is declared, each property is allowed by a declared one of them. -/
def AdmitsNode (s : Schema) (labels : List String) (props : Props) : Prop :=
  (∃ l ∈ labels, s.nodes.contains l = true) →
    ∀ name ∈ props.names, ∃ l ∈ labels, ∃ n, s.nodes.get? l = some n ∧ n.properties.contains name = true

def AdmitsEdge (s : Schema) (edgeType : String) (props : Props) : Prop :=
  ∀ e, s.edges.get? edgeType = some e → ∀ name ∈ props.names, e.properties.contains name = true

theorem mem_declared_iff {labels : List String} {allowed : NameSet} :
    allowed ∈ labels.filterMap s.nodeProperties? ↔
      ∃ l ∈ labels, ∃ n, s.nodes.get? l = some n ∧ n.properties = allowed := by
  simp [nodeProperties?]

theorem declared_eq_nil_iff {labels : List String} :
    labels.filterMap s.nodeProperties? = [] ↔ ¬ ∃ l ∈ labels, s.nodes.contains l = true := by
  simp [List.filterMap_eq_nil_iff, nodeProperties?, Record.contains]

theorem refuse_first_eq_ok_iff {names : List String} {allowed : String → Bool} {violation : String → Violation} :
    (match names.find? fun name => !allowed name with
      | some name => .error (violation name)
      | none => .ok () : Except Violation Unit) = .ok () ↔ ∀ name ∈ names, allowed name = true := by
  cases stray : names.find? fun name => !allowed name with
  | none => simpa using List.find?_eq_none.mp stray
  | some name =>
      refine iff_of_false nofun fun all => ?_
      have refused := List.find?_some stray
      rw [all name (List.mem_of_find?_eq_some stray)] at refused
      cases refused

theorem refuse_first_eq_error_iff {names : List String} {allowed : String → Bool} {violation : String → Violation}
    {v : Violation} :
    (match names.find? fun name => !allowed name with
      | some name => .error (violation name)
      | none => .ok () : Except Violation Unit) = .error v ↔
      ∃ name, FirstOffender (fun name => allowed name = true) names name ∧ violation name = v := by
  simp only [← find?_eq_some_iff_firstOffender]
  cases names.find? fun name => !allowed name <;> simp

theorem any_declared_iff {labels : List String} {name : String} :
    (labels.filterMap s.nodeProperties?).any (·.contains name) = true ↔
      ∃ l ∈ labels, ∃ n, s.nodes.get? l = some n ∧ n.properties.contains name = true := by
  simp only [List.any_eq_true, mem_declared_iff]
  constructor
  · rintro ⟨_, ⟨l, member, n, known, rfl⟩, allows⟩
    exact ⟨l, member, n, known, allows⟩
  · rintro ⟨l, member, n, known, allows⟩
    exact ⟨n.properties, ⟨l, member, n, known, rfl⟩, allows⟩

section
variable {labels : List String} {props : Props}

theorem checkNodeProps_undeclared (undeclared : ¬ ∃ l ∈ labels, s.nodes.contains l = true) :
    s.checkNodeProps labels props = .ok () := by
  rw [checkNodeProps, declared_eq_nil_iff.mpr undeclared]

theorem checkNodeProps_declared (declared : ∃ l ∈ labels, s.nodes.contains l = true) :
    s.checkNodeProps labels props =
      match props.names.find? fun name => !(labels.filterMap s.nodeProperties?).any (·.contains name) with
      | some name => .error (.nodeProperty name labels)
      | none => .ok () := by
  unfold checkNodeProps
  split
  next none => exact absurd declared (declared_eq_nil_iff.mp none)
  next => rfl

theorem checkNodeProps_eq_ok_iff : s.checkNodeProps labels props = .ok () ↔ s.AdmitsNode labels props := by
  by_cases declared : ∃ l ∈ labels, s.nodes.contains l = true
  · rw [checkNodeProps_declared declared, refuse_first_eq_ok_iff]
    simp only [any_declared_iff, AdmitsNode, declared, true_imp_iff]
  · exact iff_of_true (checkNodeProps_undeclared declared) fun some => absurd some declared

theorem checkNodeProps_eq_error_iff {v : Violation} :
    s.checkNodeProps labels props = .error v ↔ (∃ l ∈ labels, s.nodes.contains l = true) ∧
      ∃ name, FirstOffender
        (fun name => ∃ l ∈ labels, ∃ n, s.nodes.get? l = some n ∧ n.properties.contains name = true) props.names name ∧
        .nodeProperty name labels = v := by
  by_cases declared : ∃ l ∈ labels, s.nodes.contains l = true
  · rw [checkNodeProps_declared declared, refuse_first_eq_error_iff, and_iff_right declared]
    simp only [any_declared_iff]
  · rw [checkNodeProps_undeclared declared]
    exact iff_of_false nofun fun stray => declared stray.1

end

theorem checkEdgeProps_eq_ok_iff {edgeType : String} {props : Props} :
    s.checkEdgeProps edgeType props = .ok () ↔ s.AdmitsEdge edgeType props := by
  unfold checkEdgeProps AdmitsEdge
  cases s.edges.get? edgeType with
  | none => exact iff_of_true rfl nofun
  | some e =>
      refine refuse_first_eq_ok_iff.trans ?_
      simp only [Option.some.injEq, forall_eq']

theorem checkEdgeProps_eq_error_iff {edgeType : String} {props : Props} {v : Violation} :
    s.checkEdgeProps edgeType props = .error v ↔ ∃ e, s.edges.get? edgeType = some e ∧
      ∃ name, FirstOffender (fun name => e.properties.contains name = true) props.names name ∧
        .edgeProperty name edgeType = v := by
  unfold checkEdgeProps
  cases s.edges.get? edgeType with
  | none => exact iff_of_false nofun nofun
  | some e =>
      refine refuse_first_eq_error_iff.trans ?_
      simp only [Option.some.injEq, exists_eq_left']

end Schema

def Mutation.Admitted (s : Schema) : Mutation → Prop
  | createNode labels props => s.AdmitsNode labels props
  | createEdge _ _ edgeType props => s.AdmitsEdge edgeType props
  | _ => True

theorem Mutation.conforms_eq_ok_iff {s : Schema} {m : Mutation} : m.conforms s = .ok () ↔ m.Admitted s := by
  cases m with
  | createNode labels props => exact Schema.checkNodeProps_eq_ok_iff
  | createEdge source target edgeType props => exact Schema.checkEdgeProps_eq_ok_iff
  | _ => exact iff_of_true rfl trivial

/-- A creation with a property that the schema does not allow, which it names; it is the first of them. -/
inductive Mutation.Strays (s : Schema) : Mutation → Violation → Prop
  | node {labels : List String} {props : Props} {name : String} : (∃ l ∈ labels, s.nodes.contains l = true) →
      FirstOffender (fun name => ∃ l ∈ labels, ∃ n, s.nodes.get? l = some n ∧ n.properties.contains name = true)
        props.names name → Strays s (.createNode labels props) (.nodeProperty name labels)
  | edge {source target : UInt64} {edgeType : String} {props : Props} {e : Schema.Edge} {name : String} :
      s.edges.get? edgeType = some e →
      FirstOffender (fun name => e.properties.contains name = true) props.names name →
      Strays s (.createEdge source target edgeType props) (.edgeProperty name edgeType)

theorem Mutation.conforms_eq_error_iff {s : Schema} {m : Mutation} {v : Violation} :
    m.conforms s = .error v ↔ m.Strays s v := by
  cases m with
  | createNode labels props =>
      refine Schema.checkNodeProps_eq_error_iff.trans ⟨?_, ?_⟩
      · rintro ⟨declared, name, stray, rfl⟩
        exact .node declared stray
      · rintro ⟨declared, stray⟩
        exact ⟨declared, _, stray, rfl⟩
  | createEdge source target edgeType props =>
      refine Schema.checkEdgeProps_eq_error_iff.trans ⟨?_, ?_⟩
      · rintro ⟨e, known, name, stray, rfl⟩
        exact .edge known stray
      · rintro (_ | ⟨known, stray⟩)
        exact ⟨_, known, _, stray, rfl⟩
  | _ => exact iff_of_false nofun nofun

theorem Mutation.exists_strays {s : Schema} {m : Mutation} (h : ¬ m.Admitted s) : ∃ v, m.Strays s v := by
  cases checked : m.conforms s with
  | ok _ => exact absurd (conforms_eq_ok_iff.mp checked) h
  | error v => exact ⟨v, conforms_eq_error_iff.mp checked⟩

theorem Mutation.conforms?_eq_ok_iff {s : Option Schema} {m : Mutation} :
    m.conforms? s = .ok () ↔ ∀ t ∈ s, m.Admitted t := by
  cases s with
  | none => exact iff_of_true rfl nofun
  | some t => simp [conforms?, conforms_eq_ok_iff]

structure Creation.Fragment.Admitted (s : Schema) (f : Fragment) : Prop where
  nodes : ∀ n ∈ f.nodes, s.AdmitsNode n.labels n.props
  edges : ∀ e ∈ f.edges, s.AdmitsEdge e.edgeType e.props

def Engine.Call.Admitted (schema : Option Schema) : Call → Prop
  | mutate script => ∀ s ∈ schema, ∀ m ∈ script.ops, m.Admitted s
  | create fragment => ∀ s ∈ schema, fragment.Admitted s
  | _ => True

end GraphClient
