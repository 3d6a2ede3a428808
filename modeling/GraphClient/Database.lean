import GraphClient.Answer
import GraphClient.Query.Builder

/-!
A handle on an engine: its options, whether it has been closed, and the calls that go straight through it. A closed
handle refuses every call before the engine hears of it.
-/
namespace GraphClient

structure Options where
  schema : Option Schema
  nodeChunk : Nat
  edgeChunk : Nat
  mutationBatch : Nat

def Options.default : Options := ⟨none, 10000, 100000, 1024⟩

structure Database (σ : Type) where
  engine : σ
  options : Options
  closed : Bool

namespace Database

variable {σ : Type}

def new (engine : σ) : Database σ := ⟨engine, .default, false⟩

/-- A handle with these options: its schema is valid, and sizes of chunks are positive. -/
def ofOptions (engine : σ) (options : Options) : Except Failure (Database σ) := do
  if let some s := options.schema then
    s.validate.mapError .schema
  if options.nodeChunk = 0 then throw (.argument (.notPositive "node_chunk_size"))
  if options.edgeChunk = 0 then throw (.argument (.notPositive "edge_chunk_size"))
  if options.mutationBatch = 0 then throw (.argument (.notPositive "mutation_batch_size"))
  pure ⟨engine, options, false⟩

def schema (db : Database σ) : Option Schema := db.options.schema

def withSchema (schema : Option Schema) : Action (Database σ) Unit := do
  if let some s := schema then
    Action.conform s.validate
  modify fun db => { db with options := { db.options with schema } }

def requireOpen : Action (Database σ) Unit := do
  if (← get).closed then throw .closed

def onEngine {α : Type} (a : Action σ α) : Action (Database σ) α :=
  a.within Database.engine fun db engine => { db with engine }

variable [Engine σ]

def send (call : Engine.Call) : Action (Database σ) call.Reply := do
  requireOpen
  onEngine (Engine.answer call)

/-- Closes the engine; a second call does nothing. The handle is closed even if the engine fails to. -/
def close : Action (Database σ) Unit := do
  unless (← get).closed do
    modify ({ · with closed := true })
    onEngine (Engine.answer .close)

def query : Action (Database σ) Builder := do
  requireOpen
  pure (.new (← get).schema)

def execute (q : Query) : Action (Database σ) Answer := do
  pure (.ofEnvelope (← send (.execute q)) q.requestId)

def explain (q : Query) (redactLiterals : Bool) : Action (Database σ) Answer := do
  pure (.ofEnvelope (← send (.explain ⟨q, redactLiterals⟩)) q.requestId)

def cancel (requestId : String) : Action (Database σ) Bool := do
  let id ← Action.check (trimmed "request_id" requestId)
  send (.cancel id)

def pragma (name : String) : Action (Database σ) Value := do
  let name ← Action.check (trimmed "pragma name" name)
  send (.pragma name)

def setPragma (name : String) (value : Value) : Action (Database σ) Value := do
  let name ← Action.check (trimmed "pragma name" name)
  send (.setPragma name value)

def intern (name : String) : Action (Database σ) UInt32 := do
  let name ← Action.check (trimmed "name" name)
  send (.intern name)

/-- Lists neighbours. The edge type is not blank; it is passed on as given. -/
def neighbors (node : UInt64) (expansion : Expansion) : Action (Database σ) (List Neighbor) := do
  if let some t := expansion.edgeType then
    discard (Action.check (nonBlank "edge_type" t))
  send (.neighbors node expansion)

/-- Walks breadth first. Edge types are not blank, a limit is positive; both are passed on as given. -/
def walk (start : UInt64) (depth : UInt32) (walk : Walk) : Action (Database σ) (List Visit) := do
  (walk.edgeTypes.getD []).forM fun t => discard (Action.check (nonBlank "edge_types entry" t))
  if walk.limit = some 0 then Action.refuse (.notPositive "max_results")
  send (.walk start depth walk)

def node? (id : UInt64) : Action (Database σ) (Option Props) := send (.node id)

def edge? (id : UInt64) : Action (Database σ) (Option Props) := send (.edge id)

def countNodes (label : String) : Action (Database σ) UInt64 := do
  let label ← Action.check (trimmed "label" label)
  send (.countNodes label)

def countEdges (edgeType : String) : Action (Database σ) UInt64 := do
  let edgeType ← Action.check (trimmed "edge_type" edgeType)
  send (.countEdges edgeType)

def listNodes (label : String) : Action (Database σ) (List UInt64) := do
  let label ← Action.check (trimmed "label" label)
  send (.listNodes label)

end Database
end GraphClient
