import GraphClient.Literal.Wire
import GraphClient.Predicate.Basic

/-!
The wire form of predicates: one object per node, its kind under `op`, with the parts of a comparison beside it. A
document is read as a whole before the numbers of arguments are looked at.
-/
namespace GraphClient

open Wire

inductive Connective
  | all | any | negate
deriving DecidableEq, Repr

namespace Connective

def text : Connective → String
  | all => "and"
  | any => "or"
  | negate => "not"

end Connective

inductive PredicateKind
  | join (how : Connective)
  | compare (op : Comparator)
  | between
  | oneOf
  | present
  | isNull
  | isNotNull
deriving DecidableEq, Repr

namespace PredicateKind

def every : List PredicateKind :=
  [join .all, join .any, join .negate] ++ Comparator.all.map compare ++ [between, oneOf, present, isNull, isNotNull]

def text : PredicateKind → String
  | join c => c.text
  | compare op => op.text
  | between => "between"
  | oneOf => "in"
  | present => "exists"
  | isNull => "isNull"
  | isNotNull => "isNotNull"

end PredicateKind

namespace Test

def kind : Test → PredicateKind
  | compare op _ => .compare op
  | between .. => .between
  | oneOf _ => .oneOf
  | present => .present
  | isNull => .isNull
  | isNotNull => .isNotNull

def operands : Test → List (String × Json)
  | compare _ value => [("value", value.toJson)]
  | between low high a b =>
    [("low", low.toJson), ("high", high.toJson), ("inclusive", .array [.bool a, .bool b])]
  | oneOf values => [("values", .array (values.map Literal.toJson))]
  | present | isNull | isNotNull => []

end Test

namespace Predicate

mutual

def toJson : Predicate → Json
  | leaf c =>
    .object ([("op", .string c.test.kind.text), ("var", .string c.var), ("prop", .string c.prop)] ++ c.test.operands)
  | all args => .object [("op", .string Connective.all.text), ("args", .array (toJsonItems args))]
  | any args => .object [("op", .string Connective.any.text), ("args", .array (toJsonItems args))]
  | negate arg => .object [("op", .string Connective.negate.text), ("args", .array [arg.toJson])]

def toJsonItems : List Predicate → List Json
  | [] => []
  | p :: ps => p.toJson :: toJsonItems ps

end

/-- A predicate as it is written: any number of arguments anywhere. -/
inductive Written
  | leaf (comparison : Comparison)
  | join (how : Connective) (args : List Written)

namespace Written

mutual

/-- The predicate that is meant. A conjunction or disjunction has an argument, a negation exactly one; this is
looked at from the outside in. -/
def predicate : Written → Except Misuse Predicate
  | leaf c => .ok (.leaf c)
  | join .all [] => .error (.noArguments Connective.all.text)
  | join .any [] => .error (.noArguments Connective.any.text)
  | join .all args => .all <$> predicates args
  | join .any args => .any <$> predicates args
  | join .negate [arg] => .negate <$> predicate arg
  | join .negate _ => .error .notOneArgument

def predicates : List Written → Except Misuse (List Predicate)
  | [] => .ok []
  | w :: ws => do pure ((← predicate w) :: (← predicates ws))

end

def readBounds : Reader (Bool × Bool)
  | .array [a, b] => do pure (← Wire.bool a, ← Wire.bool b)
  | .array (a :: b :: _) => do
    discard (Wire.bool a)
    discard (Wire.bool b)
    .error (.length "two booleans")
  | .array [a] => do
    discard (Wire.bool a)
    .error (.length "two booleans")
  | .array [] => .error (.length "two booleans")
  | _ => .error (.type "two booleans")

def comparison (test : Parts → Reading Test) (p : Parts) : Reading Written :=
  (fun var prop test => leaf ⟨var, prop, test⟩) <$>
    p.required 0 "var" Wire.text <*> p.required 1 "prop" Wire.text <*> test p

def ofKind (arg : Reader Written) (p : Parts) : PredicateKind → Except Fault Written
  | .join c => p.read 1 fun p => join c <$> p.required 0 "args" (Wire.list arg)
  | .compare op => p.read 3 (comparison fun p => .compare op <$> p.required 2 "value" (Literal.read .inside))
  | .between => p.read 5 (comparison fun p =>
      (fun low high (a, b) => .between low high a b) <$> p.required 2 "low" (Literal.read .inside) <*>
        p.required 3 "high" (Literal.read .inside) <*> p.defaulting 4 "inclusive" (true, true) readBounds)
  | .oneOf => p.read 3 (comparison fun p => .oneOf <$> p.required 2 "values" (Wire.list (Literal.read .inside)))
  | .present => p.read 2 (comparison fun _ => pure .present)
  | .isNull => p.read 2 (comparison fun _ => pure .isNull)
  | .isNotNull => p.read 2 (comparison fun _ => pure .isNotNull)

/-- Reads nodes at most `levels` deep; arguments lie inside a tagged record. -/
def readWithin : Nat → Place → Reader Written
  | 0, _ => fun _ => .error (.type "a predicate")
  | levels + 1, place => fun j => do
    let (kind, parts) ← Wire.tagged place "op" (PredicateKind.every.map fun k => (k.text, k)) j
    ofKind (readWithin levels .inside) parts kind

/-- A document holds no more levels of nodes than of containers. -/
def read (place : Place) : Reader Written := fun j => readWithin j.depth place j

end Written

def read (place : Place) : Reader Predicate := fun j => do
  match (← Written.read place j).predicate with
  | .ok p => pure p
  | .error cause => .error (.predicate cause)

/-- All of a document counts, also what no part asks for. -/
def format : Format Predicate := .whole (read .outside) toJson

end Predicate
end GraphClient
