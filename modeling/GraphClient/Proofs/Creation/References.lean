import Mathlib.Data.List.Nodup
import GraphClient.Proofs.Creation.Calls

/-!
What a draft refers to. A position that a call has answered denotes the node of that call for as long as the draft is not
executed, and an alias is taken exactly if a node of the draft carries it.
-/
namespace GraphClient.Creation

def Fragment.aliases (f : Fragment) : List String := f.nodes.filterMap (·.aliasName)

namespace Draft

def after (d : Draft) : List Call → Draft
  | [] => d
  | c :: calls => after (c.run.outcome d).2 calls

def gained {α : Type} (of : (c : Call) → Except Failure c.Reply → List α) (d : Draft) : List Call → List α
  | [] => []
  | c :: calls => of c (c.run.outcome d).1 ++ gained of (c.run.outcome d).2 calls

namespace Call

def placed : (c : Call) → Except Failure c.Reply → List (Node × Nat)
  | node labels props aliasName, .ok position => [(⟨labels, props, aliasName⟩, position)]
  | node _ _ _, .error _ => []
  | edge _ _ _ _, _ => []

def linked : (c : Call) → Except Failure c.Reply → List Edge
  | edge source edgeType target props, .ok _ => [⟨source, edgeType, target, props⟩]
  | edge _ _ _ _, .error _ => []
  | node _ _ _, _ => []

@[simp] theorem placed_error (c : Call) (f : Failure) : c.placed (.error f) = [] := by
  cases c <;> rfl

@[simp] theorem linked_error (c : Call) (f : Failure) : c.linked (.error f) = [] := by
  cases c <;> rfl

end Call

theorem after_keeps {P : Draft → Prop} (steps : ∀ d (c : Call), P d → P (c.run.outcome d).2) {d : Draft} (holds : P d)
    (calls : List Call) : P (d.after calls) := by
  induction calls generalizing d with
  | nil => exact holds
  | cons c calls ih => exact ih (steps d c holds)

theorem gained_append {α : Type} (of : (c : Call) → Except Failure c.Reply → List α) (d : Draft)
    (earlier later : List Call) :
    d.gained of (earlier ++ later) = d.gained of earlier ++ (d.after earlier).gained of later := by
  induction earlier generalizing d with
  | nil => rfl
  | cons c earlier ih =>
      rw [List.cons_append, gained, ih, ← List.append_assoc]
      rfl

section
variable {d d' : Draft} {c : Call} {result : Except Failure c.Reply}

theorem Change.schema (h : Change d c result d') : d'.schema = d.schema := by
  cases h <;> rfl

theorem Change.leaves {f : Failure} (h : Change d c (.error f) d') : d' = d := by
  cases h
  rfl

theorem Change.nodes (h : Change d c result d') :
    d'.fragment.nodes = d.fragment.nodes ++ (c.placed result).map Prod.fst := by
  cases h with
  | refused => rw [Call.placed_error, List.map_nil, List.append_nil]
  | node => rfl
  | edge => exact (List.append_nil _).symm

theorem Change.edges (h : Change d c result d') : d'.fragment.edges = d.fragment.edges ++ c.linked result := by
  cases h with
  | refused => rw [Call.linked_error, List.append_nil]
  | node => exact (List.append_nil _).symm
  | edge => rfl

theorem Change.positions (h : Change d c result d') :
    c.placed result = ((c.placed result).map Prod.fst).zipIdx d.fragment.nodes.length := by
  cases h with
  | refused => rw [Call.placed_error, List.map_nil, List.zipIdx_nil]
  | node => rfl
  | edge => rfl

end

theorem after_nodes (d : Draft) (calls : List Call) :
    (d.after calls).fragment.nodes = d.fragment.nodes ++ (d.gained Call.placed calls).map Prod.fst := by
  induction calls generalizing d with
  | nil => exact (List.append_nil _).symm
  | cons c calls ih =>
      rw [after, ih, (c.run_change d).nodes, gained, List.map_append, List.append_assoc]

theorem after_edges (d : Draft) (calls : List Call) :
    (d.after calls).fragment.edges = d.fragment.edges ++ d.gained Call.linked calls := by
  induction calls generalizing d with
  | nil => exact (List.append_nil _).symm
  | cons c calls ih => rw [after, ih, (c.run_change d).edges, gained, List.append_assoc]

theorem gained_positions (d : Draft) (calls : List Call) :
    d.gained Call.placed calls = ((d.gained Call.placed calls).map Prod.fst).zipIdx d.fragment.nodes.length := by
  induction calls generalizing d with
  | nil => rfl
  | cons c calls ih =>
      have change := c.run_change d
      have rest := ih (c.run.outcome d).2
      rw [change.nodes, List.length_append] at rest
      rw [gained, List.map_append, List.zipIdx_append, ← rest, ← change.positions]

structure InStep (d : Draft) : Prop where
  opened : d.isSealed = false
  taken : d.taken = d.fragment.aliases
  distinct : d.taken.Nodup
  visible : ∀ name ∈ d.taken, Text.isBlank name = false

theorem new_inStep (schema : Option Schema) : (new schema).InStep := by
  refine ⟨rfl, rfl, List.nodup_nil, ?_⟩
  intro name member
  cases member

theorem Change.inStep {d d' : Draft} {c : Call} {result : Except Failure c.Reply} (h : Change d c result d')
    (before : d.InStep) : d'.InStep := by
  cases h with
  | refused => exact before
  | edge => exact ⟨before.opened, before.taken, before.distinct, before.visible⟩
  | @node labels props aliasName _ free =>
      have taken : (d.withNode ⟨labels, props, aliasName⟩).taken =
          (d.withNode ⟨labels, props, aliasName⟩).fragment.aliases := by
        simp only [withNode, before.taken, Fragment.aliases, List.filterMap_append]
        cases aliasName <;> rfl
      cases aliasName with
      | none =>
          refine ⟨before.opened, taken, ?_, ?_⟩
          · simpa [withNode] using before.distinct
          · simpa [withNode] using before.visible
      | some name =>
          obtain ⟨shown, fresh⟩ := free name rfl
          refine ⟨before.opened, taken, ?_, ?_⟩
          · apply before.distinct.append (List.nodup_singleton name)
            simpa using fresh
          · exact List.forall_mem_append.mpr ⟨before.visible, List.forall_mem_singleton.mpr shown⟩

theorem after_new_inStep (schema : Option Schema) (calls : List Call) : ((new schema).after calls).InStep := by
  apply after_keeps _ (new_inStep schema)
  intro d c before
  exact (c.run_change d).inStep before

theorem after_new_schema (schema : Option Schema) (calls : List Call) : ((new schema).after calls).schema = schema := by
  apply after_keeps (P := fun d => d.schema = schema) _ rfl
  intro d c before
  rw [(c.run_change d).schema, before]

/-- What holds of a draft under a schema after any calls. -/
structure KeepsReferences (schema : Option Schema) : Prop where
  nodes : ∀ calls, ((new schema).after calls).fragment.nodes = ((new schema).gained Call.placed calls).map Prod.fst
  edges : ∀ calls, ((new schema).after calls).fragment.edges = (new schema).gained Call.linked calls
  /-- Positions are answered in order, and each denotes its node whatever is called later. -/
  issued : ∀ (earlier later : List Call) (k : Nat) (n : Node) (position : Nat),
    ((new schema).gained Call.placed earlier)[k]? = some (n, position) →
    position = k ∧ ((new schema).after (earlier ++ later)).fragment.nodes[k]? = some n
  ends : ∀ earlier source edgeType target props later,
    ((edge source edgeType target props).outcome ((new schema).after earlier)).1 = .ok () →
    let script := ((new schema).after (earlier ++ .edge source edgeType target props :: later)).fragment
    script.edges[((new schema).gained Call.linked earlier).length]? = some ⟨source, edgeType, target, props⟩ ∧
      ∀ (n : Node) (position : Nat), (n, position) ∈ (new schema).gained Call.placed earlier →
        source = .position position ∨ target = .position position →
          ∃ inRange : position < script.nodes.length, script.nodes[position] = n
  aliases : ∀ calls, let script := ((new schema).after calls).fragment
    script.aliases.Nodup ∧ ∀ name ∈ script.aliases, Text.isBlank name = false
  /-- If nothing else is wrong with a node, all depends on whether its alias is carried by another. -/
  duplicates : ∀ calls labels props name, labels ≠ [] → (∀ l ∈ labels, Text.isBlank l = false) →
    (∀ s ∈ schema, s.AdmitsNode labels props) → Text.isBlank name = false →
    let d := (new schema).after calls
    ((node labels props (some name)).outcome d).1 =
      if name ∈ d.fragment.aliases then .error (.argument (.duplicateAlias name)) else .ok d.fragment.nodes.length
  refused : ∀ calls (c : Call) f, let d := (new schema).after calls
    (c.run.outcome d).1 = .error f → (c.run.outcome d).2 = d

theorem placed_denotes {schema : Option Schema} {earlier : List Call} {k position : Nat} {n : Node}
    (placed : ((new schema).gained Call.placed earlier)[k]? = some (n, position)) (later : List Call) :
    position = k ∧ ((new schema).after (earlier ++ later)).fragment.nodes[k]? = some n := by
  rw [gained_positions, List.getElem?_zipIdx] at placed
  obtain ⟨m, found, same⟩ := Option.map_eq_some_iff.mp placed
  obtain ⟨rfl, rfl⟩ := Prod.mk.inj same
  have within := (List.getElem?_eq_some_iff.mp found).1
  have empty : (new schema).fragment.nodes = [] := rfl
  rw [after_nodes, empty, List.nil_append, gained_append, List.map_append, List.getElem?_append_left within]
  exact ⟨Nat.zero_add k, found⟩

theorem linked_found {d : Draft} {earlier : List Call} {source target : Ref} {edgeType : String} {props : Props}
    (accepted : ((edge source edgeType target props).outcome (d.after earlier)).1 = .ok ()) (later : List Call) :
    let calls := earlier ++ .edge source edgeType target props :: later
    (d.gained Call.linked calls)[(d.gained Call.linked earlier).length]? = some ⟨source, edgeType, target, props⟩ := by
  intro calls
  rw [gained_append, List.getElem?_append_right (Nat.le_refl _), Nat.sub_self, gained, Call.run, accepted]
  rfl

theorem new_keepsReferences (schema : Option Schema) : KeepsReferences schema where
  nodes := after_nodes (new schema)
  edges := after_edges (new schema)
  issued _ later _ _ _ placed := placed_denotes placed later
  ends := by
    intro earlier source edgeType target props later accepted script
    constructor
    · rw [after_edges]
      exact linked_found accepted later
    · intro n position member _
      obtain ⟨k, placed⟩ := List.getElem?_of_mem member
      obtain ⟨rfl, found⟩ := placed_denotes placed (.edge source edgeType target props :: later)
      exact List.getElem?_eq_some_iff.mp found
  aliases calls := by
    obtain ⟨_, taken, distinct, visible⟩ := after_new_inStep schema calls
    rw [taken] at distinct visible
    exact ⟨distinct, visible⟩
  duplicates := by
    intro calls labels props name labelled named admitted visible d
    have inStep : d.InStep := after_new_inStep schema calls
    have same : d.schema = schema := after_new_schema schema calls
    have passes : d.Passes labels props := ⟨inStep.opened, labelled, named, same ▸ admitted⟩
    rw [node_named passes, if_neg (by simp [visible]), inStep.taken]
    split <;> rfl
  refused := by
    intro calls c f d failed
    have change : Change d c (c.run.outcome d).1 (c.run.outcome d).2 := c.run_change d
    rw [failed] at change
    exact change.leaves

end Draft
end GraphClient.Creation
