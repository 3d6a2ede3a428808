import GraphClient.Predicate.Condition
import GraphClient.Query.Basic
import GraphClient.Query.Clause

/-!
Building a query call by call. Every call is checked when it is made, against the variables declared so far and the
schema, and only `Builder.build` is needed at the end.
-/
namespace GraphClient

/-- What a caller wants matched: a label alone, whose variable is named here, or a variable. -/
inductive Target
  | label (label : String)
  | variable (name : String) (label : Option String)

/-- A query while it is built. The schema stays the same. The next edge starts from the current variable and has the
pending direction; the search for the next automatic name starts at the counter. -/
structure Builder where
  schema : Option Schema
  vars : List Variable
  edges : List EdgePattern
  predicate : Option Predicate
  projections : List Projection
  distinct : Bool
  requestId : Option String
  current : Option String
  counter : Nat
  pending : Direction

/-- A name that is not blank, as it was given. -/
def nonBlank (what text : String) : Except Failure String :=
  if Text.isBlank text then .error (.argument (.blank what)) else .ok text

def trimmed (what text : String) : Except Failure String := do
  discard (nonBlank what text)
  pure (Text.trim text)

/-- Adds a variable, or gives a label to one that has none. -/
def declare (name : String) (label : Option String) : List Variable → List Variable
  | [] => [⟨name, label⟩]
  | v :: vs => if v.name = name then { v with label := v.label <|> label } :: vs else v :: declare name label vs

def autoName (i : Nat) : String :=
  let letter := String.singleton (Char.ofNat (97 + i % 26))
  if i < 26 then letter else letter ++ toString (i / 26)

namespace Builder

def new (schema : Option Schema) : Builder := ⟨schema, [], [], none, [], false, none, none, 0, .outgoing⟩

def find? (b : Builder) (name : String) : Option Variable := b.vars.find? (·.name == name)

def label? (b : Builder) (name : String) : Option String := (b.find? name).bind (·.label)

/-- The number of the next automatic name: the first from the counter on whose name is not declared. -/
def freshNumber (b : Builder) : Nat :=
  ((List.range' b.counter (b.vars.length + 1)).find? fun i => (b.find? (autoName i)).isNone).getD b.counter

def declared (name : String) : Action Builder String := do
  match (← get).find? name with
  | some v => pure v.name
  | none => Action.refuse (.unknownVariable name)

def requireLabel (name : String) : Action Builder Unit := do
  if ((← get).label? name).isNone then Action.refuse (.unlabelled name)

def propertyCheck (b : Builder) (name : String) : PropertyCheck :=
  match b.schema with
  | some s => s.propertyCheck (b.label? name)
  | none => .anything

def freshName : Action Builder String := do
  let n := (← get).freshNumber
  modify fun b => { b with counter := n + 1 }
  pure (autoName n)

def resolve : Target → Action Builder (String × Option String)
  | .label label => do
    let label ← Action.check (nonBlank "label" label)
    pure (← freshName, some label)
  | .variable name label => do
    let name ← Action.check (nonBlank "variable name" name)
    let label ← label.mapM fun l => Action.check (nonBlank "label" l)
    pure (name, label)

def enter (name : String) (label : Option String) : Action Builder Unit :=
  modify fun b => { b with vars := declare name label b.vars, current := some name }

def nodes (label : String) : Action Builder String := do
  let label ← Action.check (nonBlank "label" label)
  let name ← freshName
  enter name (some label)
  pure name

def matchTarget (target : Target) : Action Builder Unit := do
  let (name, label) ← resolve target
  enter name label

def matchAll (targets : List Target) : Action Builder Unit := do
  targets.forM matchTarget
  if targets.isEmpty then Action.refuse .noTarget

def traverse (edgeType : Option String) (target : Target) : Action Builder Unit := do
  let some source := (← get).current | Action.refuse .noCurrentVariable
  let edgeType ← edgeType.mapM fun t => Action.check (nonBlank "edge type" t)
  let (name, label) ← resolve target
  enter name label
  modify fun b => { b with edges := b.edges ++ [⟨source, name, edgeType, b.pending⟩], pending := .outgoing }

def direction (d : Direction) : Action Builder Unit := modify ({ · with pending := d })

def distinctRows : Action Builder Unit := modify ({ · with distinct := true })

def request (id : Option String) : Action Builder Unit := do
  let id ← id.mapM fun i => Action.check (trimmed "request_id" i)
  modify ({ · with requestId := id })

def append (p : Predicate) (mode : Mode) : Action Builder Unit := modify fun b =>
  { b with predicate := some (match b.predicate with | some q => mode.join q p | none => p) }

def whereVar (name : String) (clauses : List Clause) : Action Builder Unit := do
  let name ← declared name
  let p ← Action.check (Clause.predicate name ((← get).propertyCheck name) clauses)
  append p .all

def column : Projection → Action Builder Projection
  | .node var name => do
    let var ← declared var
    pure (.node var (← columnName name))
  | .property var prop name => do
    let var ← declared var
    let prop ← Action.check (((← get).propertyCheck var).check prop)
    pure (.property var prop (← columnName name))
where
  columnName : Option String → Action Builder (Option String)
    | some name => if Text.isBlank name then Action.refuse .blankColumn else pure (some name)
    | none => pure none

def select (columns : List Projection) : Action Builder Unit := do
  let columns ← columns.mapM column
  modify ({ · with projections := columns })

/-- The query. Without columns of its own it answers with every variable. -/
def build (b : Builder) : Query :=
  { version := Query.currentVersion
    vars := b.vars, edges := b.edges, predicate := b.predicate
    projections := if b.projections.isEmpty then b.vars.map fun v => .node v.name none else b.projections
    distinct := b.distinct, requestId := b.requestId }

def scope (name : String) : Action Builder String := do
  let name ← declared name
  requireLabel name
  pure name

def withScope {α : Type} (name : String) (body : String → Action Builder α) : Action Builder α := do body (← scope name)

def attach (var : String) (condition : Condition) (mode : Mode) : Action Builder Unit := do
  requireLabel var
  let p ← Action.check (condition.bind var ((← get).propertyCheck var))
  append p mode

def selectProperties (var : String) (props : List String) : Action Builder Unit := do
  let check := (← get).propertyCheck var
  let columns ← props.mapM fun prop => do pure (.property var (← Action.check (check.check prop)) none)
  if columns.isEmpty then Action.refuse .emptySelection
  modify fun b => { b with projections := b.projections ++ columns }

end Builder
end GraphClient
