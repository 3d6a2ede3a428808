import GraphClient.Engine.Scripted
import GraphClient.Proofs.Mutation.Sending
import GraphClient.Proofs.Query.Variables

/-!
Loading. A load is checked as a whole, mutation by mutation, and what has passed is sent in pieces.
-/
namespace GraphClient.Database

open Engine (Observed)
open Mutation (Summary EdgeLoad)

section
variable {σ : Type}

theorem chunkSize_outcome {db : Database σ} {asked : Option Nat} {fallback : Options → Nat}
    (positive : 0 < asked.getD (fallback db.options)) :
    (chunkSize asked fallback).outcome db = (.ok (asked.getD (fallback db.options)), db) := by
  rw [chunkSize, Action.outcome_bind_ok (Action.outcome_get db)]
  dsimp only
  rw [if_neg (Nat.ne_of_gt positive)]
  rfl

theorem chunkSize_refused {db : Database σ} {asked : Option Nat} {fallback : Options → Nat}
    (zero : asked.getD (fallback db.options) = 0) :
    (chunkSize asked fallback).outcome db = (.error (.argument (.notPositive "chunk_size")), db) := by
  rw [chunkSize, Action.outcome_bind_ok (Action.outcome_get db)]
  dsimp only
  rw [if_pos zero]
  rfl

end

def nodeLoads (schema : Option Schema) (label : String) (nodes : List Props) : Except Failure (List Mutation) := do
  let label ← nonBlank "label" label
  if let some s := schema then
    discard ((s.requireLabel label).mapError .schema)
  nodes.mapM (nodeLoad schema label)

def edgeLoads (schema : Option Schema) (edges : List EdgeLoad) : Except Failure (List Mutation) :=
  edges.mapM (edgeLoad schema)

section
variable {σ : Type} [Engine σ] {db : Database σ}

/-- Mutations that have passed are sent; if one has not, nothing is. -/
def sendChecked {α : Type} (ops : Except Failure (List Mutation)) (size : Nat) (answer : Summary → α) :
    Action (Database σ) α := do
  let ops ← Action.check ops
  pure (answer (← submit ops size))

theorem sendChecked_refused {α : Type} (f : Failure) (size : Nat) (answer : Summary → α) :
    (sendChecked (.error f) size answer).outcome db = (.error f, db) := rfl

theorem sendChecked_passed {α : Type} (ops : List Mutation) (size : Nat) (answer : Summary → α) :
    (sendChecked (.ok ops) size answer).outcome db =
      (answer <$> ((submit ops size).outcome db).1, ((submit ops size).outcome db).2) :=
  Action.outcome_map answer (submit ops size) db

theorem mutateBatched_outcome (ops : List Mutation) (asked : Option Nat)
    (positive : 0 < asked.getD db.options.mutationBatch) :
    (mutateBatched ops asked).outcome db =
      (sendChecked (do Mutation.conformAll db.schema ops; pure ops) (asked.getD db.options.mutationBatch) id).outcome
        db := by
  have second := conform_checks ops db
  rw [mutateBatched, Action.outcome_bind_ok (chunkSize_outcome positive)]
  cases checked : Mutation.conformAll db.schema ops with
  | error f =>
      rw [checked] at second
      rw [Action.outcome_bind_error second, error_bind, sendChecked_refused]
  | ok _ =>
      rw [checked] at second
      rw [Action.outcome_bind_ok second]
      exact (congrArg (fun a => Action.outcome a db) (bind_pure (submit ops _))).symm

theorem loadNodes_outcome (label : String) (nodes : List Props) (asked : Option Nat)
    (positive : 0 < asked.getD db.options.nodeChunk) :
    (loadNodes label nodes asked).outcome db =
      (sendChecked (nodeLoads db.schema label nodes) (asked.getD db.options.nodeChunk) (·.createdNodes)).outcome db := by
  rw [loadNodes, Action.outcome_bind_ok (chunkSize_outcome positive), nodeLoads]
  cases nonBlank "label" label with
  | error f => rfl
  | ok label =>
      have read (schema : Option Schema) :
          (nodes.mapM fun props => Action.check (nodeLoad schema label props)).outcome db =
            (nodes.mapM (nodeLoad schema label), db) :=
        Action.mapM_reads (fun _ => rfl) nodes
      have checked (schema : Option Schema) (size : Nat) :
          (do
            let ops ← nodes.mapM fun props => Action.check (nodeLoad schema label props)
            pure (← submit ops size).createdNodes : Action (Database σ) (List UInt64)).outcome db =
            (sendChecked (nodes.mapM (nodeLoad schema label)) size (·.createdNodes)).outcome db := by
        rw [sendChecked, Action.outcome_bind, read, Action.outcome_bind, Action.outcome_check]
      rw [Action.outcome_bind_ok (Action.outcome_check (.ok label) db), Action.outcome_bind_ok (Action.outcome_get db),
        ok_bind]
      cases db.schema with
      | none => exact checked none _
      | some s =>
          dsimp only
          cases s.requireLabel label with
          | error v => rfl
          | ok _ => exact checked (some s) _

theorem loadEdges_outcome (edges : List EdgeLoad) (asked : Option Nat)
    (positive : 0 < asked.getD db.options.edgeChunk) :
    (loadEdges edges asked).outcome db =
      (sendChecked (edgeLoads db.schema edges) (asked.getD db.options.edgeChunk) (·.createdEdges)).outcome db := by
  have read : (edges.mapM fun e => Action.check (edgeLoad db.schema e)).outcome db =
      (edges.mapM (edgeLoad db.schema), db) :=
    Action.mapM_reads (fun _ => rfl) edges
  rw [loadEdges, Action.outcome_bind_ok (chunkSize_outcome positive), Action.outcome_bind_ok (Action.outcome_get db)]
  dsimp only
  rw [sendChecked, Action.outcome_bind, read, Action.outcome_bind, Action.outcome_check, edgeLoads]

end

structure NodesFit (schema : Option Schema) (label : String) (nodes : List Props) : Prop where
  named : Text.isBlank label = false
  declared : ∀ s ∈ schema, s.nodes.contains label = true
  admitted : ∀ s ∈ schema, ∀ props ∈ nodes, s.AdmitsNode [label] props

structure EdgeFits (schema : Option Schema) (e : EdgeLoad) : Prop where
  typed : Text.isBlank e.edgeType = false
  declared : ∀ s ∈ schema, s.edges.contains e.edgeType = true
  admitted : ∀ s ∈ schema, s.AdmitsEdge e.edgeType e.props

def creation (e : EdgeLoad) : Mutation := .createEdge e.source e.target e.edgeType e.props

section
variable {schema : Option Schema}

theorem nodeLoad_eq_ok {label : String} {props : Props} (admitted : ∀ s ∈ schema, s.AdmitsNode [label] props) :
    nodeLoad schema label props = .ok (.createNode [label] props) := by
  have conforms : (Mutation.createNode [label] props).conforms? schema = .ok () :=
    Mutation.conforms?_eq_ok_iff.mpr admitted
  rw [nodeLoad, conforms]
  rfl

theorem nodeLoads_named {label : String} (named : Text.isBlank label = false)
    (declared : ∀ s ∈ schema, s.nodes.contains label = true) (nodes : List Props) :
    nodeLoads schema label nodes = nodes.mapM (nodeLoad schema label) := by
  rw [nodeLoads, nonBlank_eq_ok_iff.mpr ⟨rfl, named⟩, ok_bind]
  cases schema with
  | none => rfl
  | some s =>
      obtain ⟨n, known⟩ := Option.isSome_iff_exists.mp (declared s rfl)
      dsimp only
      rw [Schema.requireLabel, known]
      rfl

theorem nodeLoads_eq_ok {label : String} {nodes : List Props} (fit : NodesFit schema label nodes) :
    nodeLoads schema label nodes = .ok (nodes.map (.createNode [label])) := by
  rw [nodeLoads_named fit.named fit.declared]
  exact mapM_eq_ok_of_forall fun props member => nodeLoad_eq_ok fun s active => fit.admitted s active props member

theorem edgeLoad_eq_ok {e : EdgeLoad} (fit : EdgeFits schema e) : edgeLoad schema e = .ok (creation e) := by
  have conforms : (creation e).conforms? schema = .ok () := Mutation.conforms?_eq_ok_iff.mpr fit.admitted
  rw [creation] at conforms
  rw [edgeLoad, nonBlank_eq_ok_iff.mpr ⟨rfl, fit.typed⟩, ok_bind, creation]
  cases schema with
  | none =>
      dsimp only
      rw [conforms]
      rfl
  | some s =>
      obtain ⟨definition, known⟩ := Option.isSome_iff_exists.mp (fit.declared s rfl)
      dsimp only
      rw [Schema.requireEdgeType, known, conforms]
      rfl

theorem edgeLoads_eq_ok {edges : List EdgeLoad} (fit : ∀ e ∈ edges, EdgeFits schema e) :
    edgeLoads schema edges = .ok (edges.map creation) :=
  mapM_eq_ok_of_forall fun e member => edgeLoad_eq_ok (fit e member)

end

theorem SendsInPieces.of_outcome {σ α : Type} {size : Nat} {ops : List Mutation} {answer : Summary → α}
    {a b : Action (Database (Observed σ)) α} {db : Database (Observed σ)} (same : a.outcome db = b.outcome db)
    (h : SendsInPieces size ops answer b db) : SendsInPieces size ops answer a db := by
  unfold SendsInPieces
  rwa [same]

section
variable {σ : Type} [Engine σ]

theorem sendChecked_sendsInPieces {α : Type} {db : Database (Observed σ)} (opened : db.closed = false)
    (ops : List Mutation) {size : Nat} (positive : 0 < size) (answer : Summary → α) :
    SendsInPieces size ops answer (sendChecked (.ok ops) size answer) db := by
  obtain ⟨pieces, made, result, cut, sent, done, logged⟩ := submit_sendsInPieces opened ops positive
  refine ⟨pieces, made, result, cut, sent, ?_, ?_⟩
  · rw [sendChecked_passed, done, id_map]
  · rw [sendChecked_passed, logged]

/-- Every load is sent in pieces, of the size that is asked for or else the one in the options, once all of it has
passed. -/
structure LoadsInPieces (db : Database (Observed σ)) : Prop where
  submitted : ∀ ops size, 0 < size → SendsInPieces size ops id (submit ops size) db
  batched : ∀ ops asked size, size = asked.getD db.options.mutationBatch → 0 < size →
    (∀ s ∈ db.schema, ∀ m ∈ ops, m.Admitted s) → SendsInPieces size ops id (mutateBatched ops asked) db
  nodes : ∀ label nodes asked size, size = asked.getD db.options.nodeChunk → 0 < size →
    NodesFit db.schema label nodes →
      SendsInPieces size (nodes.map (.createNode [label])) (·.createdNodes) (loadNodes label nodes asked) db
  edges : ∀ edges asked size, size = asked.getD db.options.edgeChunk → 0 < size →
    (∀ e ∈ edges, EdgeFits db.schema e) →
      SendsInPieces size (edges.map creation) (·.createdEdges) (loadEdges edges asked) db

/-- Whatever its engine answers, an open handle sends every load in pieces. -/
theorem opened_loadsInPieces {db : Database (Observed σ)} (opened : db.closed = false) : LoadsInPieces db where
  submitted ops _ positive := submit_sendsInPieces opened ops positive
  batched := by
    rintro ops asked _ rfl positive admitted
    refine .of_outcome (mutateBatched_outcome ops asked positive) ?_
    rw [Mutation.conformAll_of_admitted admitted]
    exact sendChecked_sendsInPieces opened ops positive id
  nodes := by
    rintro label nodes asked _ rfl positive fit
    refine .of_outcome (loadNodes_outcome label nodes asked positive) ?_
    rw [nodeLoads_eq_ok fit]
    exact sendChecked_sendsInPieces opened _ positive _
  edges := by
    rintro edges asked _ rfl positive fit
    refine .of_outcome (loadEdges_outcome edges asked positive) ?_
    rw [edgeLoads_eq_ok fit]
    exact sendChecked_sendsInPieces opened _ positive _

end

def refusing : Database (Observed Engine.Scripted) :=
  ⟨⟨{ Engine.Scripted.empty with failures := [none, some "[CONFLICT] write-write conflict"] }, []⟩,
    { Options.default with schema := some (Schema.empty.node "User" ["name"]) }, false⟩

theorem refusing_loadsNodes :
    let nodes : List Props := [.ofList [("name", .null)], .empty, .ofList [("name", .null)], .empty, .empty]
    refusing.closed = false ∧ NodesFit refusing.schema "User" nodes ∧
      SendsInPieces 2 (nodes.map (.createNode ["User"])) (·.createdNodes) (loadNodes "User" nodes (some 2)) refusing := by
  intro nodes
  have fit : NodesFit refusing.schema "User" nodes := {
    named := by decide
    declared := by
      rintro _ ⟨⟩
      decide
    admitted := by
      rintro _ ⟨⟩ props member
      apply Schema.checkNodeProps_eq_ok_iff.mp
      simp only [nodes, List.mem_cons, List.not_mem_nil, or_false] at member
      rcases member with rfl | rfl | rfl | rfl | rfl <;> rfl }
  exact ⟨rfl, fit, (opened_loadsInPieces rfl).nodes "User" nodes (some 2) 2 rfl (by decide) fit⟩

example : ((loadNodes "User" [.empty, .empty, .empty, .empty, .empty] (some 2)).outcome refusing).1 =
    .error (.wire .conflict "write-write conflict") := by cbv

end GraphClient.Database
