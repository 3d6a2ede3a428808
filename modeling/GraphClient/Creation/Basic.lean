import GraphClient.Json.Basic

/-!
Graph fragments that come into being at once. Edges refer to nodes of the fragment by position or alias, or to nodes
that exist by id.
-/
namespace GraphClient.Creation

structure Node where
  labels : List String
  props : Props
  aliasName : Option String

inductive Ref
  | position (index : Nat)
  | named (name : String)
  | id (id : UInt64)
deriving DecidableEq, Repr

structure Edge where
  source : Ref
  edgeType : String
  target : Ref
  props : Props

structure Fragment where
  nodes : List Node
  edges : List Edge

def Fragment.empty : Fragment := ⟨[], []⟩

/-- The ids that a fragment's nodes and edges were given, in its order. -/
structure Summary where
  nodes : List UInt64
  edges : List UInt64
  aliases : Record UInt64

namespace Summary

def alias? (s : Summary) (name : String) : Option UInt64 := s.aliases.get? name

def node? (s : Summary) (index : Nat) : Option UInt64 := s.nodes[index]?

end Summary
end GraphClient.Creation
