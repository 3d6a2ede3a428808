import GraphClient.Creation.Basic
import GraphClient.Mutation.Wire

/-!
The wire form of graph fragments and their summaries.
-/
namespace GraphClient.Creation

open Wire
open Mutation (idJson idsJson textsJson)

namespace Ref

def toJson : Ref → Json
  | position index => .object [("kind", .string "handle"), ("index", .integer index)]
  | named name => .object [("kind", .string "alias"), ("alias", .string name)]
  | id n => .object [("kind", .string "id"), ("id", idJson n)]

/-- The kinds of references, each with the reader of its only part. -/
def kinds : List (String × (Parts → Reading Ref)) :=
  [("handle", fun p => position <$> p.required 0 "index" size), ("alias", fun p => named <$> p.required 0 "alias" text),
    ("id", fun p => id <$> p.required 0 "id" uint64)]

def read : Reader Ref := fun j => do
  let (parts, p) ← tagged .outside "kind" kinds j
  p.read 1 parts

def format : Format Ref := .whole read toJson

end Ref

namespace Node

def toJson (n : Node) : Json :=
  .object ([("labels", textsJson n.labels), ("props", n.props.toJson)] ++
    (n.aliasName.map fun a => ("alias", Json.string a)).toList)

def read : Reader Node :=
  record "a node" 3 fun p =>
    Node.mk <$> p.required 0 "labels" (list text) <*> p.defaulting 1 "props" .empty Wire.props <*>
      p.defaulting 2 "alias" none (optional text)

def format : Format Node := .named ["labels", "props", "alias"] read toJson

end Node

namespace Edge

def toJson (e : Edge) : Json :=
  .object [("src", e.source.toJson), ("ty", .string e.edgeType), ("dst", e.target.toJson), ("props", e.props.toJson)]

def read : Reader Edge :=
  record "an edge" 4 fun p =>
    Edge.mk <$> p.required 0 "src" Ref.read <*> p.required 1 "ty" text <*> p.required 2 "dst" Ref.read <*>
      p.defaulting 3 "props" .empty Wire.props

def format : Format Edge := .named ["src", "ty", "dst", "props"] read toJson

end Edge

namespace Fragment

def toJson (f : Fragment) : Json :=
  .object [("nodes", .array (f.nodes.map Node.toJson)), ("edges", .array (f.edges.map Edge.toJson))]

def read : Reader Fragment :=
  record "a fragment" 2 fun p =>
    Fragment.mk <$> p.defaulting 0 "nodes" [] (list Node.read) <*> p.defaulting 1 "edges" [] (list Edge.read)

def format : Format Fragment :=
  ⟨.record [("nodes", .list Node.format.outline), ("edges", .list Edge.format.outline)], read, toJson⟩

end Fragment

namespace Summary

def toJson (s : Summary) : Json :=
  .object [("nodes", idsJson s.nodes), ("edges", idsJson s.edges),
    ("aliases", .object (s.aliases.entries.map fun (name, id) => (name, idJson id)))]

def read : Reader Summary :=
  record "a summary" 3 fun p =>
    Summary.mk <$> p.defaulting 0 "nodes" [] (list uint64) <*> p.defaulting 1 "edges" [] (list uint64) <*>
      p.defaulting 2 "aliases" .empty (map uint64)

def format : Format Summary := .named ["nodes", "edges", "aliases"] read toJson

end Summary
end GraphClient.Creation
