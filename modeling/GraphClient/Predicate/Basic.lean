import GraphClient.Literal.Basic

/-!
Predicates over the properties of variables. `conj` and `disj` join two predicates and splice in the
arguments of a predicate that is already of their kind.
-/
namespace GraphClient

inductive Comparator
  | eq | ne | lt | le | gt | ge
deriving DecidableEq, Repr

namespace Comparator

def all : List Comparator := [eq, ne, lt, le, gt, ge]

def text : Comparator → String
  | eq => "eq"
  | ne => "ne"
  | lt => "lt"
  | le => "le"
  | gt => "gt"
  | ge => "ge"

/-- Comparisons that ask for an order, which null has no place in. -/
def ordered : Comparator → Bool
  | eq | ne => false
  | lt | le | gt | ge => true

end Comparator

inductive Test
  | compare (op : Comparator) (value : Literal)
  | between (low high : Literal) (lowIncluded highIncluded : Bool)
  | oneOf (values : List Literal)
  | present
  | isNull
  | isNotNull
deriving BEq

structure Comparison where
  var : String
  prop : String
  test : Test

inductive Predicate
  | leaf (comparison : Comparison)
  | all (args : List Predicate)
  | any (args : List Predicate)
  | negate (arg : Predicate)

namespace Predicate

/-- The arguments that a predicate brings into a conjunction. -/
def conjuncts : Predicate → List Predicate
  | all args => args
  | p => [p]

def disjuncts : Predicate → List Predicate
  | any args => args
  | p => [p]

def conj (p q : Predicate) : Predicate := all (p.conjuncts ++ q.conjuncts)

def disj (p q : Predicate) : Predicate := any (p.disjuncts ++ q.disjuncts)

end Predicate

inductive Mode
  | all | any
deriving DecidableEq, Repr

namespace Mode

def join : Mode → Predicate → Predicate → Predicate
  | all => .conj
  | any => .disj

/-- One predicate over a list of arguments, which are kept as they are. -/
def group : Mode → List Predicate → Predicate
  | all => .all
  | any => .any

end Mode
end GraphClient
