import GraphClient.Database

/-!
Mutations that are queued and then applied at once. A batch is sealed by the call that takes its mutations, and refuses
every call after that.
-/
namespace GraphClient

/-- Mutations on their way, checked against the schema that was active when the batch was made. -/
structure Batch where
  schema : Option Schema
  ops : List Mutation
  isSealed : Bool

namespace Batch

def new (schema : Option Schema) : Batch := ⟨schema, [], false⟩

def requireOpen : Action Batch Unit := do
  if (← get).isSealed then Action.refuse .committed

def queue (m : Mutation) : Action Batch Unit := do
  requireOpen
  Action.conform (m.conforms? (← get).schema)
  modify fun b => { b with ops := b.ops ++ [m] }

/-- There is at least one label; blank ones are not looked for. -/
def createNode (labels : List String) (props : Props) : Action Batch Unit := do
  if labels.isEmpty then Action.refuse (.noLabel "createNode")
  queue (.createNode labels props)

def updateNode (id : UInt64) (assigned : Props) (removed : List String) : Action Batch Unit :=
  queue (.updateNode id assigned removed)

def deleteNode (id : UInt64) (cascade : Bool) : Action Batch Unit := queue (.deleteNode id cascade)

def createEdge (source target : UInt64) (edgeType : String) (props : Props) : Action Batch Unit := do
  let edgeType ← Action.check (nonBlank "edge type" edgeType)
  queue (.createEdge source target edgeType props)

def updateEdge (id : UInt64) (assigned : Props) (removed : List String) : Action Batch Unit :=
  queue (.updateEdge id assigned removed)

def deleteEdge (id : UInt64) : Action Batch Unit := queue (.deleteEdge id)

def drain : Action Batch (List Mutation) := do
  requireOpen
  let ops := (← get).ops
  modify ({ · with ops := [], isSealed := true })
  pure ops

end Batch

namespace Database

variable {σ : Type} [Engine σ]

def batch : Action (Database σ) Batch := do
  requireOpen
  pure (.new (← get).schema)

def conform (ops : List Mutation) : Action (Database σ) Unit := do
  let schema := (← get).schema
  ops.forM fun m => Action.conform (m.conforms? schema)

def mutate (ops : List Mutation) : Action (Database σ) Mutation.Summary := do
  requireOpen
  conform ops
  send (.mutate ⟨ops⟩)

/-- Applies a batch; one on a closed handle stays as it is. -/
def commit : Action (Database σ × Batch) Mutation.Summary := do
  Batch.requireOpen.onSecond
  requireOpen.onFirst
  let ops ← Batch.drain.onSecond
  (mutate ops).onFirst

/-- Applies a batch, whichever handle it was made on. The batch is sealed before this handle is looked at. -/
def applyBatch : Action (Database σ × Batch) Mutation.Summary := do
  let ops ← Batch.drain.onSecond
  (mutate ops).onFirst

/-- Fills a batch and applies it, unless filling it fails. An empty batch is not sent. -/
def transaction {α : Type} (body : Action (Database σ × Batch) α) : Action (Database σ) (α × Mutation.Summary) := do
  let b ← batch
  let whole : Action (Database σ × Batch) (α × Mutation.Summary) := do
    let a ← body
    if (← get).2.ops.isEmpty then
      discard Batch.drain.onSecond
      pure (a, .empty)
    else pure (a, ← commit)
  whole.within (·, b) fun _ s => s.1

def single (fill : Action Batch Unit) : Action (Database σ) Mutation.Summary := do
  let b ← batch
  let whole : Action (Database σ × Batch) Mutation.Summary := do
    fill.onSecond
    commit
  whole.within (·, b) fun _ s => s.1

def createNode (labels : List String) (props : Props) : Action (Database σ) (Option UInt64) := do
  pure (← single (Batch.createNode labels props)).createdNodes.head?

def updateNode (id : UInt64) (assigned : Props) (removed : List String) : Action (Database σ) UInt64 := do
  pure (← mutate [.updateNode id assigned removed]).updatedNodes

def deleteNode (id : UInt64) (cascade : Bool) : Action (Database σ) UInt64 := do
  pure (← mutate [.deleteNode id cascade]).deletedNodes

def createEdge (source target : UInt64) (edgeType : String) (props : Props) : Action (Database σ) (Option UInt64) := do
  pure (← single (Batch.createEdge source target edgeType props)).createdEdges.head?

def updateEdge (id : UInt64) (assigned : Props) (removed : List String) : Action (Database σ) UInt64 := do
  pure (← mutate [.updateEdge id assigned removed]).updatedEdges

def deleteEdge (id : UInt64) : Action (Database σ) UInt64 := do
  pure (← mutate [.deleteEdge id]).deletedEdges

end Database
end GraphClient
