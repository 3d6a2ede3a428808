import GraphClient.Schema.Basic
import GraphClient.Wire.Format

/-!
The wire form of schemas. Sets of properties are written as sorted lists.
-/
namespace GraphClient.Schema

open Wire

def namesJson (s : NameSet) : Json := .array (s.names.map .string)

def Node.toJson (n : Node) : Json := .object [("properties", namesJson n.properties)]

def Edge.toJson (e : Edge) : Json :=
  .object [("from", .string e.source), ("to", .string e.target), ("properties", namesJson e.properties)]

def toJson (s : Schema) : Json :=
  .object [("nodes", .object (s.nodes.entries.map fun (label, n) => (label, n.toJson))),
    ("edges", .object (s.edges.entries.map fun (edgeType, e) => (edgeType, e.toJson)))]

def Node.read : Reader Node :=
  record "a node schema" 1 fun p => Node.mk <$> p.defaulting 0 "properties" .empty nameSet

def Edge.read : Reader Edge :=
  record "an edge schema" 3 fun p =>
    Edge.mk <$> p.required 0 "from" text <*> p.required 1 "to" text <*> p.defaulting 2 "properties" .empty nameSet

def read : Reader Schema :=
  record "a schema" 2 fun p =>
    Schema.mk <$> p.defaulting 0 "nodes" .empty (map Node.read) <*> p.defaulting 1 "edges" .empty (map Edge.read)

def Node.format : Format Node := .named ["properties"] Node.read Node.toJson

def Edge.format : Format Edge := .named ["from", "to", "properties"] Edge.read Edge.toJson

def format : Format Schema :=
  ⟨.record [("nodes", .map Node.format.outline), ("edges", .map Edge.format.outline)], read, toJson⟩

end GraphClient.Schema
