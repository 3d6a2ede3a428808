import GraphClient.Schema.Basic

/-!
Changes to nodes and edges that exist, or that come into being by them, and what the engine reports of them.
-/
namespace GraphClient

inductive Mutation
  | createNode (labels : List String) (props : Props)
  | updateNode (id : UInt64) (assigned : Props) (removed : List String)
  | deleteNode (id : UInt64) (cascade : Bool)
  | createEdge (source target : UInt64) (edgeType : String) (props : Props)
  | updateEdge (id : UInt64) (assigned : Props) (removed : List String)
  | deleteEdge (id : UInt64)

namespace Mutation

/-- A schema restricts what is created, not what is updated. -/
def conforms (s : Schema) : Mutation → Except Violation Unit
  | createNode labels props => s.checkNodeProps labels props
  | createEdge _ _ edgeType props => s.checkEdgeProps edgeType props
  | _ => .ok ()

def conforms? (s : Option Schema) (m : Mutation) : Except Violation Unit :=
  match s with
  | some s => m.conforms s
  | none => .ok ()

/-- Mutations that the engine applies in order, all or none. -/
structure Script where
  ops : List Mutation

structure Summary where
  createdNodes : List UInt64
  createdEdges : List UInt64
  updatedNodes : UInt64
  updatedEdges : UInt64
  deletedNodes : UInt64
  deletedEdges : UInt64
deriving DecidableEq, Repr

namespace Summary

def empty : Summary := ⟨[], [], 0, 0, 0, 0⟩

def merge (a b : Summary) : Summary :=
  ⟨a.createdNodes ++ b.createdNodes, a.createdEdges ++ b.createdEdges, a.updatedNodes + b.updatedNodes,
    a.updatedEdges + b.updatedEdges, a.deletedNodes + b.deletedNodes, a.deletedEdges + b.deletedEdges⟩

end Summary

structure EdgeLoad where
  source : UInt64
  target : UInt64
  edgeType : String
  props : Props

end Mutation
end GraphClient
