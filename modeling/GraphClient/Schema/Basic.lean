import GraphClient.Failure
import GraphClient.Json.Basic

/-!
Schemas: which properties belong to a label and to an edge type. Names that a schema does not mention are
not checked.
-/
namespace GraphClient

structure Schema.Node where
  properties : NameSet

structure Schema.Edge where
  source : String
  target : String
  properties : NameSet

structure Schema where
  nodes : Record Schema.Node
  edges : Record Schema.Edge

/-- The properties that a variable may be asked for. -/
inductive PropertyCheck
  | anything
  | among (label : String) (allowed : NameSet)

def PropertyCheck.named (prop : String) : Except Failure String :=
  if Text.isBlank prop then .error (.argument (.blank "property name")) else .ok prop

def PropertyCheck.check (c : PropertyCheck) (prop : String) : Except Failure String := do
  let prop ← named prop
  match c with
  | anything => pure prop
  | among label allowed =>
    if allowed.contains prop then pure prop else throw (.schema (.labelProperty prop label))

namespace Schema

def empty : Schema := ⟨.empty, .empty⟩

def node (s : Schema) (label : String) (properties : List String) : Schema :=
  { s with nodes := s.nodes.insert label ⟨.ofList properties⟩ }

def edge (s : Schema) (edgeType source target : String) (properties : List String) : Schema :=
  { s with edges := s.edges.insert edgeType ⟨source, target, .ofList properties⟩ }

def nodeViolation (label : String) (n : Node) : Option Violation :=
  if Text.isBlank label then some .blankLabel
  else if n.properties.names.any Text.isBlank then some (.blankLabelProperty label)
  else none

def edgeViolation (s : Schema) (edgeType : String) (e : Edge) : Option Violation :=
  if Text.isBlank edgeType then some .blankEdgeType
  else if !s.nodes.contains e.source then some (.unknownEndpoint edgeType e.source)
  else if !s.nodes.contains e.target then some (.unknownEndpoint edgeType e.target)
  else if e.properties.names.any Text.isBlank then some (.blankEdgeProperty edgeType)
  else none

/-- The first thing that is wrong: labels before edge types, each in the order of their names. -/
def violation? (s : Schema) : Option Violation :=
  (s.nodes.entries.findSome? fun (label, n) => nodeViolation label n) <|>
    s.edges.entries.findSome? fun (edgeType, e) => s.edgeViolation edgeType e

def validate (s : Schema) : Except Violation Unit :=
  match s.violation? with
  | some v => .error v
  | none => .ok ()

def nodeProperties? (s : Schema) (label : String) : Option NameSet := (s.nodes.get? label).map (·.properties)

def propertyCheck (s : Schema) (label : Option String) : PropertyCheck :=
  match label with
  | none => .anything
  | some l =>
    match s.nodeProperties? l with
    | some allowed => .among l allowed
    | none => .anything

/-- Refuses properties that none of the declared labels allows; without a declared label nothing is checked. -/
def checkNodeProps (s : Schema) (labels : List String) (props : Props) : Except Violation Unit :=
  match labels.filterMap s.nodeProperties? with
  | [] => .ok ()
  | declared =>
    match props.names.find? fun name => !declared.any (·.contains name) with
    | some name => .error (.nodeProperty name labels)
    | none => .ok ()

def checkEdgeProps (s : Schema) (edgeType : String) (props : Props) : Except Violation Unit :=
  match s.edges.get? edgeType with
  | none => .ok ()
  | some e =>
    match props.names.find? fun name => !e.properties.contains name with
    | some name => .error (.edgeProperty name edgeType)
    | none => .ok ()

def requireLabel (s : Schema) (label : String) : Except Violation Node :=
  match s.nodes.get? label with
  | some n => .ok n
  | none => .error (.unknownLabel label)

def requireEdgeType (s : Schema) (edgeType : String) : Except Violation Edge :=
  match s.edges.get? edgeType with
  | some e => .ok e
  | none => .error (.unknownEdgeType edgeType)

end Schema
end GraphClient
