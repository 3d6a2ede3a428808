import GraphClient.Predicate.Operand
import GraphClient.Schema.Basic

/-!
Conditions: predicates that are not yet bound to a variable. Binding checks every property again, against what is
known of the variable.
-/
namespace GraphClient

inductive Condition
  | leaf (prop : String) (test : Test)
  | all (args : List Condition)
  | any (args : List Condition)
  | negate (arg : Condition)

namespace Condition

mutual

def beq : Condition → Condition → Bool
  | leaf p t, leaf q u => p == q && t == u
  | all xs, all ys | any xs, any ys => beqItems xs ys
  | negate x, negate y => beq x y
  | _, _ => false

def beqItems : List Condition → List Condition → Bool
  | [], [] => true
  | x :: xs, y :: ys => beq x y && beqItems xs ys
  | _, _ => false

end

instance : BEq Condition := ⟨beq⟩

/-- The operand is checked before the name. -/
def ofOperand (prop : String) (operand : Operand) : Except Failure Condition := do
  let test ← operand.test
  pure (leaf (← PropertyCheck.named prop) test)

/-- A single condition stands for itself. -/
def conjunction : List Condition → Except Failure Condition
  | [] => .error (.argument (.noConditions "and"))
  | [c] => .ok c
  | cs => .ok (all cs)

def disjunction : List Condition → Except Failure Condition
  | [] => .error (.argument (.noConditions "or"))
  | [c] => .ok c
  | cs => .ok (any cs)

mutual

/-- The predicate that asks this of a variable; the first name that does not pass decides. -/
def bind (var : String) (check : PropertyCheck) : Condition → Except Failure Predicate
  | leaf prop test => do pure (.leaf ⟨var, ← check.check prop, test⟩)
  | all args => .all <$> bindItems var check args
  | any args => .any <$> bindItems var check args
  | negate arg => .negate <$> bind var check arg

def bindItems (var : String) (check : PropertyCheck) : List Condition → Except Failure (List Predicate)
  | [] => .ok []
  | c :: cs => do pure ((← bind var check c) :: (← bindItems var check cs))

end

end Condition
end GraphClient
