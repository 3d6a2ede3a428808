import GraphClient.Creation.Draft
import GraphClient.Proofs.Database.Guarding
import GraphClient.Proofs.Query.Variables

/-!
What the calls on a draft do to it and to the engine behind it. A call adds a node or an edge that the schema admits, or
it leaves the draft as it is, until the draft is executed as a whole.
-/
namespace GraphClient

namespace Creation.Draft

inductive Call
  | node (labels : List String) (props : Props) (aliasName : Option String)
  | edge (source : Ref) (edgeType : String) (target : Ref) (props : Props)

namespace Call

abbrev Reply : Call → Type
  | node _ _ _ => Nat
  | edge _ _ _ _ => Unit

def run : (c : Call) → Action Draft c.Reply
  | node labels props aliasName => Draft.node labels props aliasName
  | edge source edgeType target props => Draft.edge source edgeType target props

end Call

def spent (d : Draft) : Draft := { d with fragment := .empty, isSealed := true }

structure Sound (schema : Option Schema) (d : Draft) : Prop where
  same : d.schema = schema
  admitted : ∀ s ∈ schema, d.fragment.Admitted s

theorem Sound.empty {schema : Option Schema} {d : Draft} (same : d.schema = schema) (h : d.fragment = .empty) :
    d.Sound schema := by
  refine ⟨same, fun s _ => ?_⟩
  rw [h]
  exact ⟨by simp [Fragment.empty], by simp [Fragment.empty]⟩

/-- What is looked at in a node before its alias. -/
structure Passes (d : Draft) (labels : List String) (props : Props) : Prop where
  opened : d.isSealed = false
  labelled : labels ≠ []
  named : ∀ l ∈ labels, Text.isBlank l = false
  admitted : ∀ s ∈ d.schema, s.AdmitsNode labels props

def withNode (d : Draft) (n : Node) : Draft :=
  { d with
    fragment := { d.fragment with nodes := d.fragment.nodes ++ [n] }
    taken := d.taken ++ n.aliasName.toList }

def withEdge (d : Draft) (e : Edge) : Draft :=
  { d with fragment := { d.fragment with edges := d.fragment.edges ++ [e] } }

inductive Change (d : Draft) : (c : Call) → Except Failure c.Reply → Draft → Prop
  | refused {c : Call} {f : Failure} : Change d c (.error f) d
  | node {labels : List String} {props : Props} {aliasName : Option String} : d.Passes labels props →
      (∀ name ∈ aliasName, Text.isBlank name = false ∧ name ∉ d.taken) →
      Change d (.node labels props aliasName) (.ok d.fragment.nodes.length) (d.withNode ⟨labels, props, aliasName⟩)
  | edge {source target : Ref} {edgeType : String} {props : Props} : (∀ s ∈ d.schema, s.AdmitsEdge edgeType props) →
      Change d (.edge source edgeType target props) (.ok ()) (d.withEdge ⟨source, edgeType, target, props⟩)

theorem Change.sound {schema : Option Schema} {d d' : Draft} {c : Call} {result : Except Failure c.Reply}
    (h : Change d c result d') (sound : d.Sound schema) : d'.Sound schema := by
  obtain ⟨rfl, admitted⟩ := sound
  cases h with
  | refused => exact ⟨rfl, admitted⟩
  | node passes _ =>
      refine ⟨rfl, fun s active => ?_⟩
      obtain ⟨nodes, edges⟩ := admitted s active
      exact ⟨List.forall_mem_append.mpr ⟨nodes, List.forall_mem_singleton.mpr (passes.admitted s active)⟩, edges⟩
  | edge fits =>
      refine ⟨rfl, fun s active => ?_⟩
      obtain ⟨nodes, edges⟩ := admitted s active
      exact ⟨nodes, List.forall_mem_append.mpr ⟨edges, List.forall_mem_singleton.mpr (fits s active)⟩⟩

theorem requireOpen_outcome (d : Draft) :
    requireOpen.outcome d = (if d.isSealed then .error (.argument .executed) else .ok (), d) := by
  simp only [requireOpen, Action.outcome_bind, Action.outcome_get]
  cases d.isSealed <;> rfl

theorem requireOpen_opened {d : Draft} (opened : d.isSealed = false) : requireOpen.outcome d = (.ok (), d) := by
  rw [requireOpen_outcome, opened, if_neg Bool.false_ne_true]

theorem requireOpen_sealed {d : Draft} (shut : d.isSealed = true) :
    requireOpen.outcome d = (.error (.argument .executed), d) := by
  rw [requireOpen_outcome, if_pos shut]

theorem checkNode_outcome (labels : List String) (props : Props) (d : Draft) :
    ∃ r, (checkNode labels props).outcome d = (r, d) ∧ (r = .ok () ↔ d.Passes labels props) := by
  cases shut : d.isSealed with
  | true =>
      refine ⟨_, Action.outcome_bind_error (requireOpen_sealed shut) _, iff_of_false nofun fun passes => ?_⟩
      exact absurd (shut.symm.trans passes.opened) nofun
  | false =>
      rw [checkNode, Action.outcome_bind_ok (requireOpen_opened shut)]
      by_cases empty : labels = []
      · subst empty
        exact ⟨_, rfl, iff_of_false nofun fun passes => passes.labelled rfl⟩
      · rw [if_neg (by simpa using empty)]
        by_cases blank : labels.any Text.isBlank = true
        · rw [if_pos blank]
          refine ⟨_, rfl, iff_of_false nofun fun passes => ?_⟩
          obtain ⟨l, member, unseen⟩ := List.any_eq_true.mp blank
          exact absurd ((passes.named l member).symm.trans unseen) nofun
        · rw [if_neg blank, Action.outcome_bind_ok (Action.outcome_get d)]
          have named : ∀ l ∈ labels, Text.isBlank l = false := by simpa using blank
          cases active : d.schema with
          | none => exact ⟨_, rfl, iff_of_true rfl ⟨shut, empty, named, by simp [active]⟩⟩
          | some s =>
              refine ⟨_, rfl, ?_⟩
              cases checked : s.checkNodeProps labels props with
              | error v =>
                  refine iff_of_false nofun fun passes => ?_
                  rw [Schema.checkNodeProps_eq_ok_iff.mpr (passes.admitted s active)] at checked
                  cases checked
              | ok _ =>
                  refine iff_of_true rfl ⟨shut, empty, named, ?_⟩
                  rw [active]
                  rintro _ ⟨⟩
                  exact Schema.checkNodeProps_eq_ok_iff.mp checked

theorem takeAlias_outcome (name : String) (d : Draft) :
    (takeAlias name).outcome d =
      if Text.isBlank name = true then (.error (.argument (.blank "node alias")), d)
      else if name ∈ d.taken then (.error (.argument (.duplicateAlias name)), d)
      else (.ok (), { d with taken := d.taken ++ [name] }) := by
  rw [takeAlias, Action.outcome_bind, Action.outcome_discard, Action.outcome_check, nonBlank]
  by_cases blank : Text.isBlank name = true
  · rw [if_pos blank, if_pos blank]
    rfl
  · rw [if_neg blank, if_neg blank]
    simp only [map_ok, Action.outcome_bind, Action.outcome_get, List.contains_iff_mem]
    split <;> rfl

section
variable {labels : List String} {props : Props} {d : Draft}

theorem checkNode_passed (passes : d.Passes labels props) : (checkNode labels props).outcome d = (.ok (), d) := by
  obtain ⟨r, checked, passed⟩ := checkNode_outcome labels props d
  rw [checked, passed.mpr passes]

theorem node_unnamed (passes : d.Passes labels props) :
    (node labels props none).outcome d = (.ok d.fragment.nodes.length, d.withNode ⟨labels, props, none⟩) := by
  rw [node, Action.outcome_bind_ok (checkNode_passed passes), withNode, Option.toList_none, List.append_nil]
  rfl

theorem node_named (passes : d.Passes labels props) (name : String) :
    (node labels props (some name)).outcome d =
      if Text.isBlank name = true then (.error (.argument (.blank "node alias")), d)
      else if name ∈ d.taken then (.error (.argument (.duplicateAlias name)), d)
      else (.ok d.fragment.nodes.length, d.withNode ⟨labels, props, some name⟩) := by
  have named := takeAlias_outcome name d
  rw [node, Action.outcome_bind_ok (checkNode_passed passes)]
  by_cases blank : Text.isBlank name = true
  · rw [if_pos blank] at named ⊢
    exact Action.outcome_bind_error named _
  · rw [if_neg blank] at named ⊢
    by_cases taken : name ∈ d.taken
    · rw [if_pos taken] at named ⊢
      exact Action.outcome_bind_error named _
    · rw [if_neg taken] at named ⊢
      exact Action.outcome_bind_ok named _

end

theorem reference_eq_ok {r r' : Ref} (h : reference r = .ok r') : r' = r := by
  cases r with
  | named name =>
      rw [reference] at h
      split at h
      · cases h
      · cases h
        rfl
  | position i =>
      cases h
      rfl
  | id i =>
      cases h
      rfl

theorem node_change (labels : List String) (props : Props) (aliasName : Option String) (d : Draft) :
    let done := (node labels props aliasName).outcome d
    Change d (.node labels props aliasName) done.1 done.2 := by
  obtain ⟨r, checked, passed⟩ := checkNode_outcome labels props d
  cases r with
  | error f =>
      rw [node, Action.outcome_bind_error checked]
      exact .refused
  | ok _ =>
      have passes := passed.mp rfl
      cases aliasName with
      | none =>
          rw [node_unnamed passes]
          exact .node passes (by simp)
      | some name =>
          rw [node_named passes]
          split
          next => exact .refused
          next visible =>
            split
            next => exact .refused
            next free =>
              refine .node passes ?_
              rintro _ ⟨⟩
              exact ⟨by simpa using visible, free⟩

theorem edge_change (source : Ref) (edgeType : String) (target : Ref) (props : Props) (d : Draft) :
    let done := (edge source edgeType target props).outcome d
    Change d (.edge source edgeType target props) done.1 done.2 := by
  cases shut : d.isSealed with
  | true =>
      rw [edge, Action.outcome_bind_error (requireOpen_sealed shut)]
      exact .refused
  | false =>
      rw [edge, Action.outcome_bind_ok (requireOpen_opened shut)]
      cases typed : nonBlank "edge type" edgeType with
      | error f => exact .refused
      | ok t =>
          obtain ⟨rfl, -⟩ := nonBlank_eq_ok_iff.mp typed
          rw [Action.outcome_bind_ok (Action.outcome_check _ d), Action.outcome_bind_ok (Action.outcome_get d)]
          extract_lets linking done
          have links (fits : ∀ s ∈ d.schema, s.AdmitsEdge t props) :
              Change d (.edge source t target props) ((linking ()).outcome d).1 ((linking ()).outcome d).2 := by
            unfold linking
            cases first : reference source with
            | error f => exact .refused
            | ok r =>
                cases second : reference target with
                | error f => exact .refused
                | ok r' =>
                    rw [reference_eq_ok first, reference_eq_ok second]
                    exact .edge fits
          unfold done
          cases active : d.schema with
          | none => exact links (by simp [active])
          | some s =>
              dsimp only
              cases checked : s.checkEdgeProps t props with
              | error v => exact .refused
              | ok _ =>
                  refine links ?_
                  rw [active]
                  rintro _ ⟨⟩
                  exact Schema.checkEdgeProps_eq_ok_iff.mp checked

theorem Call.run_change (c : Call) (d : Draft) :
    let done := c.run.outcome d
    Change d c done.1 done.2 := by
  cases c with
  | node labels props aliasName => exact node_change labels props aliasName d
  | edge source edgeType target props => exact edge_change source edgeType target props d

theorem Call.run_sound {schema : Option Schema} {d : Draft} (h : d.Sound schema) (c : Call) :
    (c.run.outcome d).2.Sound schema :=
  (c.run_change d).sound h

end Creation.Draft

namespace Database

open Creation (Draft)
open Engine (Observed)

section
variable {σ : Type} [Engine σ] (db : Database σ) (d : Draft)

theorem draft_guarded : Guarded draft db := .requireOpen_bind fun _ => .get_bind (.pure _ _)

theorem create_outcome :
    create.outcome (db, d) =
      if d.isSealed then (.error (.argument .executed), (db, d))
      else if db.closed then (.error .closed, (db, d))
      else (((send (.create d.fragment)).outcome db).1, (((send (.create d.fragment)).outcome db).2, d.spent)) := by
  have first := Action.outcome_onSecond Draft.requireOpen (db, d)
  rw [Draft.requireOpen_outcome] at first
  cases shut : d.isSealed with
  | true =>
      rw [shut, if_pos rfl] at first
      exact Action.outcome_bind_error first _
  | false =>
      rw [shut, if_neg Bool.false_ne_true] at first
      rw [create, Action.outcome_bind_ok first]
      cases closed : db.closed with
      | true => exact Action.outcome_bind_error (requireOpen_onFirst_closed d closed) _
      | false => exact Action.outcome_bind_ok (requireOpen_onFirst_opened d closed) _

theorem create_takes : (create.outcome (db, d)).2.2 = d ∨ (create.outcome (db, d)).2.2 = d.spent := by
  rw [create_outcome]
  split
  · exact .inl rfl
  · split
    · exact .inl rfl
    · exact .inr rfl

variable {db d} in
theorem create_asks (admitted : ∀ s ∈ db.schema, d.fragment.Admitted s) :
    Relation.ReflTransGen Asks db (create.outcome (db, d)).2.1 := by
  rw [create_outcome]
  split
  · exact .refl
  · split
    · exact .refl
    · have sends : Guarded (send (.create d.fragment)) db := .send (by nofun) admitted
      exact sends.asks

end

/-- A draft is looked at, then its handle, and only then it is handed over. -/
theorem create_losesNothing {σ : Type} [Engine σ] (db : Database (Observed σ)) (d : Draft) : LosesNothing create db d := by
  have done := create_outcome db d
  by_cases shut : d.isSealed = true
  · rw [if_pos shut] at done
    exact losesNothing_of_same (by rw [done])
  · rw [if_neg shut] at done
    by_cases closed : db.closed = true
    · rw [if_pos closed] at done
      exact losesNothing_of_same (by rw [done])
    · rw [if_neg closed, send_outcome (by simpa using closed)] at done
      exact losesNothing_of_asked _ (by rw [done])

end Database
end GraphClient
