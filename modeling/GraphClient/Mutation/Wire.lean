import GraphClient.Mutation.Basic
import GraphClient.Wire.Format

/-!
The wire form of mutations, their scripts and their summaries.
-/
namespace GraphClient.Mutation

open Wire

def textsJson (l : List String) : Json := .array (l.map .string)

def idJson (id : UInt64) : Json := .integer id.toNat

def idsJson (l : List UInt64) : Json := .array (l.map idJson)

inductive Kind
  | createNode | updateNode | deleteNode | createEdge | updateEdge | deleteEdge
deriving DecidableEq, Repr

namespace Kind

/-- Every kind, in the order in which positions count. -/
def all : List Kind := [createNode, updateNode, deleteNode, createEdge, updateEdge, deleteEdge]

def text : Kind → String
  | createNode => "createNode"
  | updateNode => "updateNode"
  | deleteNode => "deleteNode"
  | createEdge => "createEdge"
  | updateEdge => "updateEdge"
  | deleteEdge => "deleteEdge"

end Kind

def kind : Mutation → Kind
  | createNode .. => .createNode
  | updateNode .. => .updateNode
  | deleteNode .. => .deleteNode
  | createEdge .. => .createEdge
  | updateEdge .. => .updateEdge
  | deleteEdge .. => .deleteEdge

def members : Mutation → List (String × Json)
  | createNode labels props => [("labels", textsJson labels), ("props", props.toJson)]
  | updateNode id assigned removed | updateEdge id assigned removed =>
    [("id", idJson id), ("set", assigned.toJson), ("unset", textsJson removed)]
  | deleteNode id cascade => [("id", idJson id), ("cascade", .bool cascade)]
  | createEdge source target edgeType props =>
    [("src", idJson source), ("dst", idJson target), ("ty", .string edgeType), ("props", props.toJson)]
  | deleteEdge id => [("id", idJson id)]

def toJson (m : Mutation) : Json := .object (("op", .string m.kind.text) :: m.members)

def update {α : Type} (make : UInt64 → Props → List String → α) (p : Parts) : Reading α :=
  make <$> p.required 0 "id" uint64 <*> p.defaulting 1 "set" .empty Wire.props <*> p.defaulting 2 "unset" [] (list text)

def ofKind (p : Parts) : Kind → Except Fault Mutation
  | .createNode => p.read 2 fun p =>
    createNode <$> p.required 0 "labels" (list text) <*> p.defaulting 1 "props" .empty Wire.props
  | .updateNode => p.read 3 (update updateNode)
  | .deleteNode => p.read 2 fun p =>
    deleteNode <$> p.required 0 "id" uint64 <*> p.defaulting 1 "cascade" false bool
  | .createEdge => p.read 4 fun p =>
    createEdge <$> p.required 0 "src" uint64 <*> p.required 1 "dst" uint64 <*> p.required 2 "ty" text <*>
      p.defaulting 3 "props" .empty Wire.props
  | .updateEdge => p.read 3 (update updateEdge)
  | .deleteEdge => p.read 1 fun p => deleteEdge <$> p.required 0 "id" uint64

def read : Reader Mutation := fun j => do
  let (kind, parts) ← tagged .outside "op" (Kind.all.map fun k => (k.text, k)) j
  ofKind parts kind

def format : Format Mutation := .whole read toJson

namespace Script

def toJson (s : Script) : Json := .object [("ops", .array (s.ops.map Mutation.toJson))]

def read : Reader Script := record "a script" 1 fun p => Script.mk <$> p.required 0 "ops" (list Mutation.read)

def format : Format Script := .named ["ops"] read toJson

end Script

namespace Summary

def toJson (s : Summary) : Json :=
  .object [("createdNodes", idsJson s.createdNodes), ("createdEdges", idsJson s.createdEdges),
    ("updatedNodes", idJson s.updatedNodes), ("updatedEdges", idJson s.updatedEdges),
    ("deletedNodes", idJson s.deletedNodes), ("deletedEdges", idJson s.deletedEdges)]

def read : Reader Summary :=
  record "a summary" 6 fun p =>
    Summary.mk <$> p.defaulting 0 "createdNodes" [] (list uint64) <*> p.defaulting 1 "createdEdges" [] (list uint64) <*>
      p.defaulting 2 "updatedNodes" 0 uint64 <*> p.defaulting 3 "updatedEdges" 0 uint64 <*>
      p.defaulting 4 "deletedNodes" 0 uint64 <*> p.defaulting 5 "deletedEdges" 0 uint64

def format : Format Summary :=
  .named ["createdNodes", "createdEdges", "updatedNodes", "updatedEdges", "deletedNodes", "deletedEdges"] read toJson

end Summary

namespace EdgeLoad

def toJson (e : EdgeLoad) : Json :=
  .object [("src", idJson e.source), ("dst", idJson e.target), ("ty", .string e.edgeType), ("props", e.props.toJson)]

def read : Reader EdgeLoad :=
  record "an edge to load" 4 fun p =>
    EdgeLoad.mk <$> p.required 0 "src" uint64 <*> p.required 1 "dst" uint64 <*> p.required 2 "ty" text <*>
      p.defaulting 3 "props" .empty Wire.props

def format : Format EdgeLoad := .named ["src", "dst", "ty", "props"] read toJson

end EdgeLoad
end GraphClient.Mutation
