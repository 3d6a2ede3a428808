import GraphClient.Proofs.Database.Guarding
import GraphClient.Query.Stream

/-!
The calls made straight on a handle. Each of them is guarded: what an open handle asks of its engine has passed the
schema, piece by piece where it is cut into pieces, and a closed handle refuses.
-/
namespace GraphClient

theorem mem_of_mem_chunks {α : Type} {size : Nat} {l piece : List α} (h : piece ∈ chunks size l) {v : α}
    (member : v ∈ piece) : v ∈ l := by
  fun_induction chunks size l with
  | case1 l stop => cases h
  | case2 l more ih =>
      rcases List.mem_cons.mp h with rfl | later
      · exact List.mem_of_mem_take member
      · exact List.mem_of_mem_drop (ih later)

namespace Database

open GraphClient.Action (Goes)

/-- The calls that act at once. Queries are what builders have come to. -/
inductive Call
  | execute (q : Query)
  | explain (q : Query) (redactLiterals : Bool)
  | mutate (ops : List Mutation)
  | mutateBatched (ops : List Mutation) (size : Option Nat)
  | loadNodes (label : String) (nodes : List Props) (size : Option Nat)
  | loadEdges (edges : List Mutation.EdgeLoad) (size : Option Nat)
  | createNode (labels : List String) (props : Props)
  | updateNode (id : UInt64) (assigned : Props) (removed : List String)
  | deleteNode (id : UInt64) (cascade : Bool)
  | createEdge (source target : UInt64) (edgeType : String) (props : Props)
  | updateEdge (id : UInt64) (assigned : Props) (removed : List String)
  | deleteEdge (id : UInt64)
  | cancel (requestId : String)
  | pragma (name : String)
  | setPragma (name : String) (value : Value)
  | intern (name : String)
  | neighbors (node : UInt64) (expansion : Expansion)
  | walk (start : UInt64) (depth : UInt32) (walk : Walk)
  | node (id : UInt64)
  | edge (id : UInt64)
  | countNodes (label : String)
  | countEdges (edgeType : String)
  | listNodes (label : String)

namespace Call

abbrev Reply : Call → Type
  | execute _ | explain _ _ => Answer
  | mutate _ | mutateBatched _ _ => Mutation.Summary
  | loadNodes _ _ _ | loadEdges _ _ | listNodes _ => List UInt64
  | createNode _ _ | createEdge _ _ _ _ => Option UInt64
  | updateNode _ _ _ | deleteNode _ _ | updateEdge _ _ _ | deleteEdge _ | countNodes _ | countEdges _ => UInt64
  | cancel _ => Bool
  | pragma _ | setPragma _ _ => Value
  | intern _ => UInt32
  | neighbors _ _ => List Neighbor
  | walk _ _ _ => List Visit
  | node _ | edge _ => Option Props

def run {σ : Type} [Engine σ] : (c : Call) → Action (Database σ) c.Reply
  | execute q => Database.execute q
  | explain q redactLiterals => Database.explain q redactLiterals
  | mutate ops => Database.mutate ops
  | mutateBatched ops size => Database.mutateBatched ops size
  | loadNodes label nodes size => Database.loadNodes label nodes size
  | loadEdges edges size => Database.loadEdges edges size
  | createNode labels props => Database.createNode labels props
  | updateNode id assigned removed => Database.updateNode id assigned removed
  | deleteNode id cascade => Database.deleteNode id cascade
  | createEdge source target edgeType props => Database.createEdge source target edgeType props
  | updateEdge id assigned removed => Database.updateEdge id assigned removed
  | deleteEdge id => Database.deleteEdge id
  | cancel requestId => Database.cancel requestId
  | pragma name => Database.pragma name
  | setPragma name value => Database.setPragma name value
  | intern name => Database.intern name
  | neighbors center expansion => Database.neighbors center expansion
  | walk start depth how => Database.walk start depth how
  | node id => Database.node? id
  | edge id => Database.edge? id
  | countNodes label => Database.countNodes label
  | countEdges edgeType => Database.countEdges edgeType
  | listNodes label => Database.listNodes label

end Call

section
variable {σ : Type} [Engine σ] (db : Database σ)

theorem mutate_guarded (ops : List Mutation) : Guarded (mutate ops) db := by
  refine .requireOpen_bind fun opened => ?_
  refine .reads_bind ((ReadsOptions.conform ops).leaves db) fun _ passed => ?_
  rw [conform_checks] at passed
  have conforming := Mutation.conformAll_eq_ok_iff.mp (congrArg Prod.fst passed)
  exact (Guarded.send (by nofun) (Engine.Call.admitted_mutate conforming)).asks

variable {db} in
/-- Each piece of what the schema admits is admitted, whatever the pieces before it have done. -/
theorem submit_guarded {ops : List Mutation} (conforming : ∀ m ∈ ops, m.conforms? db.schema = .ok ()) (size : Nat) :
    Guarded (submit ops size) db := by
  refine .requireOpen_bind fun _ => ?_
  refine .foldlM (I := fun t => t.schema = db.schema) (fun _ _ step same => step.schema.trans same) ?_ _ rfl
  intro total piece member t same
  have admitted : ∀ m ∈ piece, m.conforms? t.schema = .ok () := by
    intro m here
    rw [same]
    exact conforming m (mem_of_mem_chunks member here)
  exact ((Guarded.send (by nofun) (Engine.Call.admitted_mutate admitted)).bind_pure _).asks

theorem mutateBatched_guarded (ops : List Mutation) (size : Option Nat) : Guarded (mutateBatched ops size) db := by
  refine .reads_bind (.chunkSize _ _) fun size _ => ?_
  refine .reads_bind (.conform _) fun _ passed => ?_
  rw [conform_checks] at passed
  exact submit_guarded (Mutation.conformAll_eq_ok_iff.mp (congrArg Prod.fst passed)) size

theorem conforms_of_checked {schema : Option Schema} {m n : Mutation}
    (h : (do (m.conforms? schema).mapError .schema; pure m : Except Failure Mutation) = .ok n) :
    n.conforms? schema = .ok () := by
  cases fits : m.conforms? schema with
  | error v =>
      rw [fits] at h
      cases h
  | ok _ =>
      rw [fits] at h
      cases h
      exact fits

theorem nodeLoad_conforms {schema : Option Schema} {label : String} {props : Props} {m : Mutation}
    (h : nodeLoad schema label props = .ok m) : m.conforms? schema = .ok () :=
  conforms_of_checked h

theorem edgeLoad_conforms {schema : Option Schema} {e : Mutation.EdgeLoad} {m : Mutation}
    (h : edgeLoad schema e = .ok m) : m.conforms? schema = .ok () := by
  obtain ⟨edgeType, _, h⟩ := bind_eq_ok.mp h
  cases schema with
  | none => exact conforms_of_checked h
  | some s =>
      obtain ⟨_, _, h⟩ := bind_eq_ok.mp h
      exact conforms_of_checked h

theorem load_guarded {α : Type} (read : α → Except Failure Mutation) (l : List α) (size : Nat)
    (conforms : ∀ v ∈ l, ∀ m, read v = .ok m → m.conforms? db.schema = .ok ()) (answer : Mutation.Summary → List UInt64) :
    Guarded (do
      let ops ← l.mapM fun v => Action.check (read v)
      pure (answer (← submit ops size))) db := by
  refine .reads_bind (.mapM_check _ _) fun ops passed => ?_
  rw [Action.mapM_reads fun _ => rfl] at passed
  have each := forall_of_mapM_eq_ok conforms (congrArg Prod.fst passed)
  exact (submit_guarded each size).bind_pure _

theorem loadNodes_guarded (label : String) (nodes : List Props) (size : Option Nat) :
    Guarded (loadNodes label nodes size) db := by
  refine .reads_bind (.chunkSize _ _) fun size _ => .check_bind fun label _ => .get_bind rfl ?_
  have rest := db.load_guarded (nodeLoad db.schema label) nodes size (fun _ _ _ => nodeLoad_conforms) (·.createdNodes)
  dsimp only
  split
  · exact .reads_bind (ReadsOptions.check _).discard fun _ _ => rest
  · exact rest

theorem loadEdges_guarded (edges : List Mutation.EdgeLoad) (size : Option Nat) : Guarded (loadEdges edges size) db :=
  .reads_bind (.chunkSize _ _) fun _ _ => .get_bind rfl (db.load_guarded _ _ _ (fun _ _ _ => edgeLoad_conforms) _)

theorem applyBatch_asks (b : Batch) : Relation.ReflTransGen Asks db (applyBatch.outcome (db, b)).2.1 := by
  rw [applyBatch_outcome]
  split
  · exact .refl
  · exact (mutate_guarded db b.ops).asks

theorem commit_asks (b : Batch) : Relation.ReflTransGen Asks db (commit.outcome (db, b)).2.1 := by
  rw [commit_outcome]
  split
  · exact .refl
  · exact db.applyBatch_asks b

theorem execute_guarded (q : Query) : Guarded (execute q) db := (Guarded.send (by nofun) (by trivial)).bind_pure _

theorem explain_guarded (q : Query) (redactLiterals : Bool) : Guarded (explain q redactLiterals) db :=
  (Guarded.send (by nofun) (by trivial)).bind_pure _

theorem query_guarded : Guarded query db := .requireOpen_bind fun _ => .get_bind (.pure _ _)

theorem stream_guarded (q : Query) : Guarded (stream q) db := (Guarded.send (by nofun) (by trivial)).bind_pure _

theorem batch_guarded : Guarded batch db := .requireOpen_bind fun _ => .get_bind (.pure _ _)

theorem single_guarded (fill : Action Batch Unit) : Guarded (single fill) db := by
  refine (batch_guarded db).bind fun b t _ => ?_
  cases filled : fill.onSecond.outcome (t, b) with
  | mk r s =>
      have apart : s.1 = t := (congrArg (fun o => o.2.1) filled).symm
      cases r with
      | error f =>
          refine .of_reads ?_
          rw [Action.outcome_within, Action.outcome_bind_error filled]
          exact apart
      | ok _ =>
          rw [Goes, Action.outcome_within, Action.outcome_bind_ok filled, ← apart]
          exact commit_asks s.1 s.2

theorem neighbors_guarded (node : UInt64) (expansion : Expansion) : Guarded (neighbors node expansion) db := by
  unfold neighbors
  cases expansion.edgeType with
  | none => exact .send (by nofun) (by trivial)
  | some t => exact .reads_bind (ReadsOptions.check _).discard fun _ _ => .send (by nofun) (by trivial)

theorem walk_guarded (start : UInt64) (depth : UInt32) (walk : Walk) : Guarded (Database.walk start depth walk) db := by
  refine .reads_bind (.forM (fun _ => (ReadsOptions.check _).discard) _) fun _ _ => ?_
  dsimp only
  split
  · exact .reads_bind (.refuse _) fun _ _ => .send (by nofun) (by trivial)
  · exact .send (by nofun) (by trivial)

theorem Call.run_guarded (c : Call) : Guarded c.run db := by
  cases c with
  | execute q => exact execute_guarded db q
  | explain q redactLiterals => exact explain_guarded db q redactLiterals
  | mutate ops => exact mutate_guarded db ops
  | mutateBatched ops size => exact mutateBatched_guarded db ops size
  | loadNodes label nodes size => exact loadNodes_guarded db label nodes size
  | loadEdges edges size => exact loadEdges_guarded db edges size
  | createNode labels props => exact (single_guarded db _).bind_pure _
  | updateNode id assigned removed => exact (mutate_guarded db _).bind_pure _
  | deleteNode id cascade => exact (mutate_guarded db _).bind_pure _
  | createEdge source target edgeType props => exact (single_guarded db _).bind_pure _
  | updateEdge id assigned removed => exact (mutate_guarded db _).bind_pure _
  | deleteEdge id => exact (mutate_guarded db _).bind_pure _
  | neighbors center expansion => exact neighbors_guarded db center expansion
  | walk start depth how => exact walk_guarded db start depth how
  | node id => exact .send (by nofun) (by trivial)
  | edge id => exact .send (by nofun) (by trivial)
  | cancel _ | pragma _ | setPragma _ _ | intern _ | countNodes _ | countEdges _ | listNodes _ =>
      exact .check_bind fun _ _ => .send (by nofun) (by trivial)

end
end Database
end GraphClient
