import GraphClient.Mutation.Batch

/-!
Loading in chunks. Everything is checked before the first chunk is sent; each chunk is applied for itself, so chunks
before a failure stay.
-/
namespace GraphClient

def chunks {α : Type} (size : Nat) (l : List α) : List (List α) :=
  if _h : l = [] ∨ size = 0 then [] else l.take size :: chunks size (l.drop size)
termination_by l.length
decreasing_by
  simp only [not_or] at _h
  have := List.length_pos_iff.2 _h.1
  simp only [List.length_drop]
  omega

namespace Database

variable {σ : Type} [Engine σ]

def chunkSize (asked : Option Nat) (fallback : Options → Nat) : Action (Database σ) Nat := do
  let size := asked.getD (fallback (← get).options)
  if size = 0 then Action.refuse (.notPositive "chunk_size")
  pure size

/-- Sends mutations chunk by chunk up to the first that fails, and merges the summaries. -/
def submit (ops : List Mutation) (size : Nat) : Action (Database σ) Mutation.Summary := do
  requireOpen
  (chunks size ops).foldlM (fun total ops => do pure (total.merge (← send (.mutate ⟨ops⟩)))) .empty

def nodeLoad (schema : Option Schema) (label : String) (props : Props) : Except Failure Mutation := do
  let m := Mutation.createNode [label] props
  (m.conforms? schema).mapError .schema
  pure m

/-- The mutation that loads an edge, once it has passed; a schema has to declare its type. -/
def edgeLoad (schema : Option Schema) (e : Mutation.EdgeLoad) : Except Failure Mutation := do
  let edgeType ← nonBlank "edge type" e.edgeType
  if let some s := schema then
    discard ((s.requireEdgeType edgeType).mapError .schema)
  let m := Mutation.createEdge e.source e.target edgeType e.props
  (m.conforms? schema).mapError .schema
  pure m

def loadNodes (label : String) (nodes : List Props) (size : Option Nat) : Action (Database σ) (List UInt64) := do
  let size ← chunkSize size (·.nodeChunk)
  let label ← Action.check (nonBlank "label" label)
  let schema := (← get).schema
  -- a label that is not declared is refused before any node is looked at
  if let some s := schema then
    discard (Action.conform (s.requireLabel label))
  let ops ← nodes.mapM fun props => Action.check (nodeLoad schema label props)
  pure (← submit ops size).createdNodes

def loadEdges (edges : List Mutation.EdgeLoad) (size : Option Nat) : Action (Database σ) (List UInt64) := do
  let size ← chunkSize size (·.edgeChunk)
  let schema := (← get).schema
  let ops ← edges.mapM fun e => Action.check (edgeLoad schema e)
  pure (← submit ops size).createdEdges

def mutateBatched (ops : List Mutation) (size : Option Nat) : Action (Database σ) Mutation.Summary := do
  let size ← chunkSize size (·.mutationBatch)
  conform ops
  submit ops size

end Database
end GraphClient
