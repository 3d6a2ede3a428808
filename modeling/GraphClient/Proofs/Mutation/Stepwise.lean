import GraphClient.Proofs.Mutation.Loading

/-!
Engines that go through a script mutation by mutation and never fail. For them it makes no difference into what pieces
mutations are cut: they report the same and are left in the same state as if all had come at once.
-/
namespace GraphClient

open Mutation (Summary EdgeLoad)

namespace Engine

abbrev Effect (σ : Type) := Mutation → σ → Summary × σ

section
variable {σ : Type}

/-- Mutations from left to right, each on the state that those before it have left: their reports, and the last state. -/
def Effect.run (effect : Effect σ) : List Mutation → σ → List Summary × σ
  | [], e => ([], e)
  | m :: ops, e =>
    let (report, e) := effect m e
    let (reports, e) := effect.run ops e
    (report :: reports, e)

theorem Effect.run_cons (effect : Effect σ) (m : Mutation) (ops : List Mutation) (e : σ) :
    effect.run (m :: ops) e =
      ((effect m e).1 :: (effect.run ops (effect m e).2).1, (effect.run ops (effect m e).2).2) := rfl

theorem Effect.run_append (effect : Effect σ) (first later : List Mutation) (e : σ) :
    effect.run (first ++ later) e =
      ((effect.run first e).1 ++ (effect.run later (effect.run first e).2).1,
        (effect.run later (effect.run first e).2).2) := by
  induction first generalizing e with
  | nil => rfl
  | cons m first ih =>
      rw [List.cons_append, run_cons, ih]
      rfl

theorem Effect.length_run (effect : Effect σ) (ops : List Mutation) (e : σ) :
    (effect.run ops e).1.length = ops.length := by
  induction ops generalizing e with
  | nil => rfl
  | cons m ops ih => exact congrArg (· + 1) (ih (effect m e).2)

theorem Effect.one_each (effect : Effect σ) {ids : Summary → List UInt64} {ops : List Mutation}
    (one : ∀ m ∈ ops, ∀ e, ∃ id, ids (effect m e).1 = [id]) (e : σ) :
    ∃ given, List.Forall₂ (fun report id => ids report = [id]) (effect.run ops e).1 given := by
  induction ops generalizing e with
  | nil => exact ⟨[], .nil⟩
  | cons m ops ih =>
      obtain ⟨first, others⟩ := List.forall_mem_cons.mp one
      obtain ⟨id, alone⟩ := first e
      obtain ⟨given, rest⟩ := ih others (effect m e).2
      exact ⟨id :: given, .cons alone rest⟩

/-- The engine never fails a script. It goes through it mutation by mutation, and what it answers is all that they have
done. -/
def Stepwise [Engine σ] (effect : Effect σ) : Prop :=
  ∀ ops e, (Engine.answer (.mutate ⟨ops⟩)).outcome e = (.ok (Summary.merged (effect.run ops e).1), (effect.run ops e).2)

end
end Engine

theorem flatMap_eq_of_one_each {α β : Type} {f : α → List β} {l : List α} {l' : List β}
    (one : List.Forall₂ (fun a b => f a = [b]) l l') : l.flatMap f = l' := by
  induction one with
  | nil => rfl
  | cons alone _ ih => rw [List.flatMap_cons, alone, ih, List.singleton_append]

namespace Database

open Engine (Effect Stepwise)

section
variable {σ : Type} [Engine σ] {effect : Effect σ} {db : Database σ}

def gone (effect : Effect σ) (ops : List Mutation) (db : Database σ) : Database σ :=
  { db with engine := (effect.run ops db.engine).2 }

theorem send_stepwise (each : Stepwise effect) (opened : db.closed = false) (ops : List Mutation) :
    (send (.mutate ⟨ops⟩)).outcome db = (.ok (Summary.merged (effect.run ops db.engine).1), db.gone effect ops) := by
  rw [send_outcome opened, each]
  rfl

theorem pieces_stepwise (each : Stepwise effect) (opened : db.closed = false) (pieces : List (List Mutation))
    (total : Summary) :
    (pieces.foldlM sendPiece total).outcome db =
      (.ok (total.merge (Summary.merged (effect.run pieces.flatten db.engine).1)), db.gone effect pieces.flatten) := by
  induction pieces generalizing total db with
  | nil => exact congrArg (Except.ok ·, db) (Summary.merge_empty total).symm
  | cons ops pieces ih =>
      have first : (sendPiece total ops).outcome db =
          (.ok (total.merge (Summary.merged (effect.run ops db.engine).1)), db.gone effect ops) := by
        rw [sendPiece_outcome opened, each]
        rfl
      have opened : (db.gone effect ops).closed = false := opened
      rw [List.foldlM_cons, Action.outcome_bind_ok first, ih opened, List.flatten_cons]
      simp only [gone, Effect.run_append, Summary.merged_append, Summary.merge_assoc]

theorem submit_stepwise (each : Stepwise effect) (opened : db.closed = false) (ops : List Mutation) {size : Nat}
    (positive : 0 < size) :
    (submit ops size).outcome db = (.ok (Summary.merged (effect.run ops db.engine).1), db.gone effect ops) := by
  rw [submit_opened opened, pieces_stepwise each opened, Summary.empty_merge, (chunks_cut positive ops).whole]

theorem sendChecked_stepwise {α : Type} (each : Stepwise effect) (opened : db.closed = false) (ops : List Mutation)
    {size : Nat} (positive : 0 < size) (answer : Summary → α) :
    (sendChecked (.ok ops) size answer).outcome db =
      (.ok (answer (Summary.merged (effect.run ops db.engine).1)), db.gone effect ops) := by
  rw [sendChecked_passed, submit_stepwise each opened ops positive, map_ok]

theorem sendChecked_size {α : Type} (each : Stepwise effect) (opened : db.closed = false)
    (ops : Except Failure (List Mutation)) {c₁ c₂ : Nat} (first : 0 < c₁) (second : 0 < c₂) (answer : Summary → α) :
    (sendChecked ops c₁ answer).outcome db = (sendChecked ops c₂ answer).outcome db := by
  cases ops with
  | error f => rfl
  | ok ops => rw [sendChecked_stepwise each opened ops first, sendChecked_stepwise each opened ops second]

theorem mutateBatched_stepwise (each : Stepwise effect) (opened : db.closed = false) (ops : List Mutation) {c : Nat}
    (positive : 0 < c) : (mutateBatched ops (some c)).outcome db = (mutate ops).outcome db := by
  rw [mutateBatched_outcome ops (some c) positive, mutate_checked opened]
  cases Mutation.conformAll db.schema ops with
  | error f => rfl
  | ok _ => exact (sendChecked_stepwise each opened ops positive id).trans (send_stepwise each opened ops).symm

/-- The size of pieces shows in nothing that succeeds. -/
structure SizeUnobservable (effect : Effect σ) (db : Database σ) : Prop where
  batched : ∀ ops c, 0 < c → (mutateBatched ops (some c)).outcome db = (mutate ops).outcome db
  applied : ∀ ops, (∀ s ∈ db.schema, ∀ m ∈ ops, m.Admitted s) →
    (mutate ops).outcome db = (.ok (Summary.merged (effect.run ops db.engine).1), db.gone effect ops)
  nodes : ∀ label nodes c₁ c₂, 0 < c₁ → 0 < c₂ →
    (loadNodes label nodes (some c₁)).outcome db = (loadNodes label nodes (some c₂)).outcome db
  edges : ∀ edges c₁ c₂, 0 < c₁ → 0 < c₂ →
    (loadEdges edges (some c₁)).outcome db = (loadEdges edges (some c₂)).outcome db
  nodeIds : ∀ label nodes c, 0 < c → NodesFit db.schema label nodes →
    (∀ props ∈ nodes, ∀ e, ∃ id, (effect (.createNode [label] props) e).1.createdNodes = [id]) →
    ∃ ids, ((loadNodes label nodes (some c)).outcome db).1 = .ok ids ∧ ids.length = nodes.length ∧
      List.Forall₂ (fun report id => report.createdNodes = [id])
        (effect.run (nodes.map (.createNode [label])) db.engine).1 ids
  edgeIds : ∀ edges c, 0 < c → (∀ e ∈ edges, EdgeFits db.schema e) →
    (∀ edge ∈ edges, ∀ e, ∃ id, (effect (creation edge) e).1.createdEdges = [id]) →
    ∃ ids, ((loadEdges edges (some c)).outcome db).1 = .ok ids ∧ ids.length = edges.length ∧
      List.Forall₂ (fun report id => report.createdEdges = [id]) (effect.run (edges.map creation) db.engine).1 ids

theorem sendChecked_ids (each : Stepwise effect) (opened : db.closed = false) {α : Type} {create : α → Mutation}
    {l : List α} {ids : Summary → List UInt64} (listed : ∀ parts, ids (Summary.merged parts) = parts.flatMap ids)
    (one : ∀ v ∈ l, ∀ e, ∃ id, ids (effect (create v) e).1 = [id]) {c : Nat} (positive : 0 < c) :
    ∃ given, ((sendChecked (.ok (l.map create)) c ids).outcome db).1 = .ok given ∧ given.length = l.length ∧
      List.Forall₂ (fun report id => ids report = [id]) (effect.run (l.map create) db.engine).1 given := by
  obtain ⟨given, alone⟩ := effect.one_each (List.forall_mem_map.mpr one) db.engine
  refine ⟨given, ?_, ?_, alone⟩
  · rw [sendChecked_stepwise each opened _ positive, listed, flatMap_eq_of_one_each alone]
  · rw [← alone.length_eq, Effect.length_run, List.length_map]

theorem stepwise_sizeUnobservable (each : Stepwise effect) (opened : db.closed = false) :
    SizeUnobservable effect db where
  batched ops _ positive := mutateBatched_stepwise each opened ops positive
  applied ops admitted := by
    rw [mutate_checked opened, Mutation.conformAll_of_admitted admitted]
    exact send_stepwise each opened ops
  nodes label nodes c₁ c₂ first second := by
    rw [loadNodes_outcome label nodes (some c₁) first, loadNodes_outcome label nodes (some c₂) second]
    exact sendChecked_size each opened _ first second _
  edges edges c₁ c₂ first second := by
    rw [loadEdges_outcome edges (some c₁) first, loadEdges_outcome edges (some c₂) second]
    exact sendChecked_size each opened _ first second _
  nodeIds label nodes c positive fit one := by
    rw [loadNodes_outcome label nodes (some c) positive, nodeLoads_eq_ok fit]
    exact sendChecked_ids each opened (fun parts => (Summary.merged_totals parts).createdNodes) one positive
  edgeIds edges c positive fit one := by
    rw [loadEdges_outcome edges (some c) positive, edgeLoads_eq_ok fit]
    exact sendChecked_ids each opened (fun parts => (Summary.merged_totals parts).createdEdges) one positive

end
end Database

/-- An engine that numbers what it creates and knows what of it is left. It takes scripts and nothing else. -/
structure Ledger where
  last : UInt64
  nodes : List UInt64
  edges : List UInt64

namespace Ledger

def apply : Engine.Effect Ledger
  | .createNode _ _, e =>
    let id := e.last + 1
    ({ Summary.empty with createdNodes := [id] }, { e with last := id, nodes := e.nodes ++ [id] })
  | .updateNode id _ _, e => ({ Summary.empty with updatedNodes := if id ∈ e.nodes then 1 else 0 }, e)
  | .deleteNode id _, e =>
    ({ Summary.empty with deletedNodes := if id ∈ e.nodes then 1 else 0 }, { e with nodes := e.nodes.erase id })
  | .createEdge _ _ _ _, e =>
    let id := e.last + 1
    ({ Summary.empty with createdEdges := [id] }, { e with last := id, edges := e.edges ++ [id] })
  | .updateEdge id _ _, e => ({ Summary.empty with updatedEdges := if id ∈ e.edges then 1 else 0 }, e)
  | .deleteEdge id, e =>
    ({ Summary.empty with deletedEdges := if id ∈ e.edges then 1 else 0 }, { e with edges := e.edges.erase id })

def answer : (call : Engine.Call) → Action Ledger call.Reply
  | .mutate script => .ofOutcome fun e =>
    let (reports, e) := Engine.Effect.run apply script.ops e
    (.ok (Summary.merged reports), e)
  | _ => throw (.ofEngineText "not a script")

end Ledger

instance : Engine Ledger where
  answer := Ledger.answer
  nextRow _ := pure none
  closeCursor _ := pure ()

theorem Ledger.stepwise : Engine.Stepwise Ledger.apply := fun _ _ => rfl

theorem Database.ledger_sizeUnobservable :
    let db : Database Ledger := .new ⟨0, [], []⟩
    let ops : List Mutation :=
      [.createNode ["User"] .empty, .createNode ["User"] .empty, .deleteNode 1 false, .deleteNode 1 false]
    Engine.Stepwise Ledger.apply ∧ db.closed = false ∧ ∀ c, 0 < c →
      (mutateBatched ops (some c)).outcome db =
        (.ok { Summary.empty with createdNodes := [1, 2], deletedNodes := 1 }, { db with engine := ⟨2, [2], []⟩ }) := by
  intro db ops
  refine ⟨Ledger.stepwise, rfl, fun c positive => ?_⟩
  have whole : SizeUnobservable Ledger.apply db := stepwise_sizeUnobservable Ledger.stepwise rfl
  rw [whole.batched ops c positive, whole.applied ops nofun]
  rfl

end GraphClient
