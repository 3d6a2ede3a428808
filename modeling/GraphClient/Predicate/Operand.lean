import GraphClient.Predicate.Basic

/-!
From the application's scalars to the test of a property. Null has no place in an order, and the values of a
list are of one kind apart from nulls.
-/
namespace GraphClient

inductive Operand
  | compare (op : Comparator) (value : Scalar)
  | between (low high : Scalar) (lowIncluded highIncluded : Bool)
  | oneOf (values : List Scalar)
  | present
  | isNull
  | isNotNull

namespace Test

def ofCompare (op : Comparator) (value : Scalar) : Except Failure Test := do
  let l ← value.encode
  if op.ordered && l.isNull then throw (.argument (.nullOperand op.text))
  pure (.compare op l)

/-- The bounds are kept as given, in any order. -/
def ofBounds (low high : Scalar) (lowIncluded highIncluded : Bool) : Except Failure Test := do
  let l ← low.encode
  let h ← high.encode
  if l.isNull || h.isNull then throw (.argument (.nullOperand "between"))
  pure (.between l h lowIncluded highIncluded)

def kinds (ls : List Literal) : List LiteralKind := (ls.map Literal.kind).filter (· != .null)

/-- The first kind of a list and the first one that differs from it. -/
def mixed? (ls : List Literal) : Option (LiteralKind × LiteralKind) :=
  match kinds ls with
  | [] => none
  | first :: others => (others.find? (· != first)).map (first, ·)

def ofValues (values : List Scalar) : Except Failure Test := do
  let ls ← values.mapM Scalar.encode
  if ls.isEmpty then throw (.argument .emptyList)
  match mixed? ls with
  | some (first, other) => throw (.argument (.mixedKinds first other))
  | none => pure (.oneOf ls)

end Test

def Operand.test : Operand → Except Failure Test
  | compare op value => Test.ofCompare op value
  | between low high a b => Test.ofBounds low high a b
  | oneOf values => Test.ofValues values
  | present => .ok .present
  | isNull => .ok .isNull
  | isNotNull => .ok .isNotNull

end GraphClient
