import GraphClient.Database

/-!
Drafting a graph fragment node by node and edge by edge. A draft is executed once and refuses every call after that.
-/
namespace GraphClient.Creation

/-- A fragment while it is drafted, checked against the schema that was active when the draft was made, and the aliases
that are taken. -/
structure Draft where
  schema : Option Schema
  fragment : Fragment
  taken : List String
  isSealed : Bool

namespace Draft

def new (schema : Option Schema) : Draft := ⟨schema, .empty, [], false⟩

def requireOpen : Action Draft Unit := do
  if (← get).isSealed then Action.refuse .executed

def checkNode (labels : List String) (props : Props) : Action Draft Unit := do
  requireOpen
  if labels.isEmpty then Action.refuse (.noLabel "node")
  if labels.any Text.isBlank then Action.refuse (.blankAmong "node labels")
  if let some s := (← get).schema then
    Action.conform (s.checkNodeProps labels props)

def takeAlias (name : String) : Action Draft Unit := do
  discard (Action.check (nonBlank "node alias" name))
  if (← get).taken.contains name then Action.refuse (.duplicateAlias name)
  modify fun d => { d with taken := d.taken ++ [name] }

def node (labels : List String) (props : Props) (aliasName : Option String) : Action Draft Nat := do
  checkNode labels props
  if let some name := aliasName then
    takeAlias name
  let position := (← get).fragment.nodes.length
  modify fun d => { d with fragment := { d.fragment with nodes := d.fragment.nodes ++ [⟨labels, props, aliasName⟩] } }
  pure position

/-- A reference by alias is not blank; whether it refers to anything is not looked at. -/
def reference : Ref → Except Failure Ref
  | .named name => if Text.isBlank name then .error (.argument (.blankAmong "alias references")) else .ok (.named name)
  | r => .ok r

def edge (source : Ref) (edgeType : String) (target : Ref) (props : Props) : Action Draft Unit := do
  requireOpen
  let edgeType ← Action.check (nonBlank "edge type" edgeType)
  if let some s := (← get).schema then
    Action.conform (s.checkEdgeProps edgeType props)
  let source ← Action.check (reference source)
  let target ← Action.check (reference target)
  modify fun d =>
    { d with fragment := { d.fragment with edges := d.fragment.edges ++ [⟨source, edgeType, target, props⟩] } }

end Draft
end Creation

namespace Database

open Creation

variable {σ : Type} [Engine σ]

def draft : Action (Database σ) Draft := do
  requireOpen
  pure (.new (← get).schema)

/-- Sends the fragment and seals the draft, whatever the engine answers; one on a closed handle stays as it is. -/
def create : Action (Database σ × Draft) Creation.Summary := do
  Draft.requireOpen.onSecond
  requireOpen.onFirst
  let fragment := (← get).2.fragment
  modify fun (db, d) => (db, { d with fragment := .empty, isSealed := true })
  (send (.create fragment)).onFirst

end Database
end GraphClient
