import GraphClient.Creation.Wire
import GraphClient.Engine.Basic
import GraphClient.Query.Wire

/-!
The wire form of what goes to the engine beside queries and scripts, and of what comes back.
-/
namespace GraphClient

open Wire
open Mutation (idJson)

namespace Expansion

def toJson (e : Expansion) : Json :=
  .object ([("direction", e.direction.toJson)] ++ memberIfSome "edge_type" (e.edgeType.map Json.string) ++
    [("distinct", .bool e.distinct)])

def read : Reader Expansion :=
  record "options for neighbours" 3 fun p =>
    Expansion.mk <$> p.defaulting 0 "direction" .outgoing (Direction.read .outside) <*>
      p.slot 1 "edge_type" ["edgeType"] (some none) (optional text) <*> p.defaulting 2 "distinct" true bool

def format : Format Expansion := .named ["direction", "edge_type", "distinct", "edgeType"] read toJson

end Expansion

namespace Walk

def toJson (w : Walk) : Json :=
  .object ([("direction", w.direction.toJson)] ++ memberIfSome "edge_types" (w.edgeTypes.map Mutation.textsJson) ++
    memberIfSome "max_results" (w.limit.map fun n => .integer n))

def read : Reader Walk :=
  record "options for a walk" 3 fun p =>
    Walk.mk <$> p.defaulting 0 "direction" .outgoing (Direction.read .outside) <*>
      p.slot 1 "edge_types" ["edgeTypes"] (some none) (optional (list text)) <*>
      p.slot 2 "max_results" ["maxResults"] (some none) (optional size)

def format : Format Walk :=
  .named ["direction", "edge_types", "max_results", "edgeTypes", "maxResults"] read toJson

end Walk

namespace Neighbor

def toJson (n : Neighbor) : Json :=
  .object [("node_id", idJson n.node), ("edge_id", idJson n.edge), ("type_id", .integer n.edgeType.toNat)]

def read : Reader Neighbor :=
  record "a neighbour" 3 fun p =>
    Neighbor.mk <$> p.slot 0 "node_id" ["nodeId"] none uint64 <*> p.slot 1 "edge_id" ["edgeId"] none uint64 <*>
      p.slot 2 "type_id" ["typeId"] none uint32

def format : Format Neighbor :=
  .named ["node_id", "edge_id", "type_id", "nodeId", "edgeId", "typeId"] read toJson

end Neighbor

namespace Visit

def toJson (v : Visit) : Json := .object [("node_id", idJson v.node), ("depth", .integer v.depth.toNat)]

def read : Reader Visit :=
  record "a visit" 2 fun p => Visit.mk <$> p.slot 0 "node_id" ["nodeId"] none uint64 <*> p.required 1 "depth" uint32

def format : Format Visit := .named ["node_id", "depth", "nodeId"] read toJson

end Visit

namespace Envelope

def toJson (e : Envelope) : Json :=
  .object [("rows", .array (e.rows.map Props.toJson)), ("request_id", textOrNull e.requestId),
    ("features", (e.features.map fun vs => Json.array (vs.map Value.json)).getD .null),
    ("plan", (e.plan.map Value.json).getD .null), ("plan_hash", textOrNull e.planHash)]

/-- A plan of null counts as none. -/
def read : Reader Envelope :=
  record "an envelope" 5 fun p =>
    Envelope.mk <$> p.defaulting 0 "rows" [] (list Wire.props) <*>
      p.slot 1 "request_id" ["requestId"] (some none) (optional text) <*>
      p.defaulting 2 "features" none (optional (list value)) <*> p.defaulting 3 "plan" none (optional value) <*>
      p.slot 4 "plan_hash" ["planHash"] (some none) (optional text)

def format : Format Envelope :=
  .named ["rows", "request_id", "features", "plan", "plan_hash", "requestId", "planHash"] read toJson

end Envelope

namespace Engine

def Call.kind : Call → String
  | execute _ => "execute_query"
  | explain _ => "explain_query"
  | stream _ => "stream_query"
  | mutate _ => "apply_mutation"
  | create _ => "apply_create_script"
  | cancel _ => "cancel"
  | pragma _ => "pragma_get"
  | setPragma _ _ => "pragma_set"
  | intern _ => "intern"
  | neighbors _ _ => "neighbors"
  | walk _ _ _ => "bfs"
  | node _ => "get_node"
  | edge _ => "get_edge"
  | countNodes _ => "count_nodes"
  | countEdges _ => "count_edges"
  | listNodes _ => "list_nodes"
  | close => "close"

def Call.members : Call → List (String × Json)
  | execute q | stream q => [("spec", q.toJson)]
  | explain r => [("spec", r.toJson)]
  | mutate s => [("script", s.toJson)]
  | create f => [("script", f.toJson)]
  | cancel id => [("request_id", .string id)]
  | pragma name | intern name => [("name", .string name)]
  | setPragma name value => [("name", .string name), ("value", value.json)]
  | neighbors id e => [("id", idJson id), ("opts", e.toJson)]
  | walk start depth w => [("start", idJson start), ("depth", .integer depth.toNat), ("opts", w.toJson)]
  | node id | edge id => [("id", idJson id)]
  | countNodes label | listNodes label => [("label", .string label)]
  | countEdges edgeType => [("type", .string edgeType)]
  | close => []

def Call.toJson (c : Call) : Json := .object (("call", .string c.kind) :: c.members)

end Engine
end GraphClient
