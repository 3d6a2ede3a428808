import GraphClient.Action
import GraphClient.Creation.Basic
import GraphClient.Engine.Exploration
import GraphClient.Mutation.Basic

/-!
The engine as its client sees it: calls, the answers they get, and cursors over rows. Storage and planning are the
engine's own affair, so an engine is any state that answers calls.
-/
namespace GraphClient

structure Envelope where
  rows : List Props
  requestId : Option String
  features : Option (List Value)
  plan : Option Value
  planHash : Option String

def Envelope.empty : Envelope := ⟨[], none, none, none, none⟩

namespace Engine

structure Cursor where
  id : Nat
deriving DecidableEq, Repr

inductive Call
  | execute (query : Query)
  | explain (request : PlanRequest)
  | stream (query : Query)
  | mutate (script : Mutation.Script)
  | create (fragment : Creation.Fragment)
  | cancel (requestId : String)
  | pragma (name : String)
  | setPragma (name : String) (value : Value)
  | intern (name : String)
  | neighbors (node : UInt64) (expansion : Expansion)
  | walk (start : UInt64) (depth : UInt32) (walk : Walk)
  | node (id : UInt64)
  | edge (id : UInt64)
  | countNodes (label : String)
  | countEdges (edgeType : String)
  | listNodes (label : String)
  | close

abbrev Call.Reply : Call → Type
  | execute _ | explain _ => Envelope
  | stream _ => Cursor
  | mutate _ => Mutation.Summary
  | create _ => Creation.Summary
  | cancel _ => Bool
  | pragma _ | setPragma _ _ => Value
  | intern _ => UInt32
  | neighbors _ _ => List Neighbor
  | walk _ _ _ => List Visit
  | node _ | edge _ => Option Props
  | countNodes _ | countEdges _ => UInt64
  | listNodes _ => List UInt64
  | close => Unit

end Engine

/-- A state that answers calls and delivers rows. -/
class Engine (σ : Type) where
  answer : (call : Engine.Call) → Action σ call.Reply
  /-- The next row, or none behind the last. -/
  nextRow : Engine.Cursor → Action σ (Option Props)
  closeCursor : Engine.Cursor → Action σ Unit

end GraphClient
