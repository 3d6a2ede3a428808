import GraphClient.Predicate.Wire
import GraphClient.Query.Basic

/-!
The wire form of queries. A request for a plan is the query itself with one more member.
-/
namespace GraphClient

open Wire

def Wire.textOrNull (s : Option String) : Json := (s.map Json.string).getD .null

/-- A member that is left out where there is nothing to write. -/
def Wire.memberIfSome (name : String) (j : Option Json) : List (String × Json) := (j.map (name, ·)).toList

namespace Direction

def toJson (d : Direction) : Json := .string d.text

def read (place : Place) : Reader Direction := choice place (all.map fun d => (d.text, d))

def format : Format Direction := .whole (read .outside) toJson

end Direction

namespace Variable

def toJson (v : Variable) : Json := .object [("var", .string v.name), ("label", textOrNull v.label)]

def read : Reader Variable :=
  record "a variable" 2 fun p =>
    Variable.mk <$> p.required 0 "var" text <*> p.defaulting 1 "label" none (optional text)

def format : Format Variable := .named ["var", "label"] read toJson

end Variable

namespace EdgePattern

def toJson (e : EdgePattern) : Json :=
  .object [("from", .string e.source), ("to", .string e.target), ("edge_type", textOrNull e.edgeType),
    ("direction", e.direction.toJson)]

def read (place : Place) : Reader EdgePattern :=
  record "an edge" 4 fun p =>
    EdgePattern.mk <$> p.required 0 "from" text <*> p.required 1 "to" text <*>
      p.defaulting 2 "edge_type" none (optional text) <*> p.defaulting 3 "direction" .outgoing (Direction.read place)

def format : Format EdgePattern := .named ["from", "to", "edge_type", "direction"] (read .outside) toJson

end EdgePattern

namespace Projection

def toJson : Projection → Json
  | node var column => .object [("kind", .string "var"), ("var", .string var), ("alias", textOrNull column)]
  | property var prop column =>
    .object [("kind", .string "prop"), ("var", .string var), ("prop", .string prop), ("alias", textOrNull column)]

def kinds : List (String × Bool) := [("var", false), ("prop", true)]

def read (place : Place) : Reader Projection := fun j => do
  match ← tagged place "kind" kinds j with
  | (false, p) => p.read 2 fun p =>
    node <$> p.required 0 "var" text <*> p.defaulting 1 "alias" none (optional text)
  | (true, p) => p.read 3 fun p =>
    property <$> p.required 0 "var" text <*> p.required 1 "prop" text <*> p.defaulting 2 "alias" none (optional text)

def format : Format Projection := .whole (read .outside) toJson

end Projection

namespace Query

def members (q : Query) : List (String × Json) :=
  [("$schemaVersion", .integer q.version.toNat), ("matches", .array (q.vars.map Variable.toJson)),
    ("edges", .array (q.edges.map EdgePattern.toJson))] ++
    memberIfSome "predicate" (q.predicate.map Predicate.toJson) ++
  [("projections", .array (q.projections.map Projection.toJson)), ("distinct", .bool q.distinct)] ++
    memberIfSome "request_id" (q.requestId.map Json.string)

def toJson (q : Query) : Json := .object q.members

def parts (place : Place) (p : Parts) : Reading Query :=
  Query.mk <$> p.required 0 "$schemaVersion" uint32 <*> p.defaulting 1 "matches" [] (list Variable.read) <*>
    p.defaulting 2 "edges" [] (list (EdgePattern.read place)) <*>
    p.defaulting 3 "predicate" none (optional (Predicate.read place)) <*>
    p.defaulting 4 "projections" [] (list (Projection.read place)) <*> p.defaulting 5 "distinct" false bool <*>
    p.slot 6 "request_id" ["requestId"] (some none) (optional text)

def read : Reader Query := record "a query" 7 (parts .outside)

def outline : Json.Outline :=
  .record [("$schemaVersion", .whole), ("matches", .list Variable.format.outline),
    ("edges", .list EdgePattern.format.outline), ("predicate", .whole), ("projections", .whole), ("distinct", .whole),
    ("request_id", .whole), ("requestId", .whole)]

def format : Format Query := ⟨outline, read, toJson⟩

end Query

namespace PlanRequest

def toJson (r : PlanRequest) : Json :=
  .object (r.query.members ++ if r.redactLiterals then [("redact_literals", .bool true)] else [])

/-- Only an object is read; its own member comes before those of the query. -/
def read : Reader PlanRequest
  | .object ms => do
    let redact ← (Parts.defaulting (.members ms) 0 "redact_literals" false bool).result
    let query ← (Query.parts .inside (.members ms)).result
    pure ⟨query, redact⟩
  | _ => .error (.type "a request for a plan")

def format : Format PlanRequest := .whole read toJson

end PlanRequest
end GraphClient
