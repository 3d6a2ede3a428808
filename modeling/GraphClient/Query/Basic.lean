import GraphClient.Predicate.Basic

/-!
Requests: the declared variables, the edges between them, a predicate and the columns of the answer.
-/
namespace GraphClient

inductive Direction
  | outgoing | incoming | both
deriving DecidableEq, Repr

namespace Direction

def all : List Direction := [outgoing, incoming, both]

def text : Direction → String
  | outgoing => "out"
  | incoming => "in"
  | both => "both"

def ofText (s : String) : Except Failure Direction :=
  match all.find? (·.text == s) with
  | some d => .ok d
  | none => .error (.argument (.direction s))

end Direction

structure Variable where
  name : String
  label : Option String
deriving DecidableEq, Repr

structure EdgePattern where
  source : String
  target : String
  edgeType : Option String
  direction : Direction
deriving DecidableEq, Repr

/-- A column of the answer: a whole node or one of its properties, with a name of its own if it has one. -/
inductive Projection
  | node (var : String) (column : Option String)
  | property (var prop : String) (column : Option String)
deriving DecidableEq, Repr

namespace Projection

def var : Projection → String
  | node var _ => var
  | property var _ _ => var

end Projection

structure Query where
  version : UInt32
  vars : List Variable
  edges : List EdgePattern
  predicate : Option Predicate
  projections : List Projection
  distinct : Bool
  requestId : Option String

def Query.currentVersion : UInt32 := 1

structure PlanRequest where
  query : Query
  redactLiterals : Bool

end GraphClient
