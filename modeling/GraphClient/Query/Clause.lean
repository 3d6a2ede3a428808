import GraphClient.Action
import GraphClient.Predicate.Operand
import GraphClient.Schema.Basic

/-!
Predicates of one variable, put together clause by clause. Each group of clauses queues its predicates and ends as
one of them; a clause that fails ends the groups around it, unless it is only attempted.
-/
namespace GraphClient

inductive Clause
  | test (prop : String) (operand : Operand)
  | group (mode : Mode) (clauses : List Clause)
  | negated (clauses : List Clause)
  | fail (cause : Failure)
  | attempt (clause : Clause)

structure Group where
  var : String
  check : PropertyCheck
  mode : Mode
  queued : List Predicate

namespace Group

def nested (g : Group) (mode : Mode) : Group := { g with mode, queued := [] }

def push (g : Group) (p : Predicate) : Group := { g with queued := g.queued ++ [p] }

/-- A single predicate stands for the group; without one there is no group. -/
def finish (g : Group) : Except Failure Predicate :=
  match g.queued with
  | [] => .error (.argument .emptyGroup)
  | [p] => .ok p
  | ps => .ok (g.mode.group ps)

/-- Queues a test; its operand is checked before its property. -/
def test (prop : String) (operand : Operand) : Action Group Unit := do
  let t ← Action.check operand.test
  let g ← get
  let prop ← Action.check (g.check.check prop)
  set (g.push (.leaf ⟨g.var, prop, t⟩))

def inner (mode : Mode) (fill : Action Group Unit) : Action Group Predicate := do
  let g ← get
  let (result, g) := fill.outcome (g.nested mode)
  Action.check result
  Action.check g.finish

end Group

namespace Clause

mutual

def run : Clause → Action Group Unit
  | test prop operand => Group.test prop operand
  | group mode clauses => do
    let p ← Group.inner mode (runAll clauses)
    modify (·.push p)
  | negated clauses => do
    let p ← Group.inner .all (runAll clauses)
    modify (·.push (.negate p))
  | fail cause => throw cause
  | attempt clause => discard (run clause).attempt

def runAll : List Clause → Action Group Unit
  | [] => pure ()
  | c :: cs => do
    run c
    runAll cs

end

def predicate (var : String) (check : PropertyCheck) (clauses : List Clause) : Except Failure Predicate := do
  let (result, g) := (runAll clauses).outcome ⟨var, check, .all, []⟩
  result
  g.finish

end Clause
end GraphClient
