import GraphClient.Query.Basic

/-!
Direct reads around a node: its neighbours, and walks from it.
-/
namespace GraphClient

structure Expansion where
  direction : Direction
  edgeType : Option String
  /-- Each neighbour is listed once, however many edges lead to it. -/
  distinct : Bool
deriving DecidableEq, Repr

def Expansion.default : Expansion := ⟨.outgoing, none, true⟩

structure Walk where
  direction : Direction
  /-- The edge types to follow; all of them if none are given. -/
  edgeTypes : Option (List String)
  limit : Option Nat
deriving DecidableEq, Repr

def Walk.default : Walk := ⟨.outgoing, none, none⟩

structure Neighbor where
  node : UInt64
  edge : UInt64
  edgeType : UInt32
deriving DecidableEq, Repr

structure Visit where
  node : UInt64
  depth : UInt32
deriving DecidableEq, Repr

end GraphClient
