/-!
TOML documents, and how one is put together from its statements: a table is opened by one header only, a dotted key
extends only tables that dotted keys have made, and a value is never extended.
-/
namespace GraphClient.Toml

/-- A value. Date-times keep their text. -/
inductive Value
  | string (s : String)
  | integer (n : Int)
  | float (x : Float)
  | bool (b : Bool)
  | dateTime (text : String)
  | array (items : List Value)
  | table (members : List (String × Value))
deriving Inhabited

/-- What a table owes its existence to: a header of its own, the header of a table inside it, or a dotted key. -/
inductive Origin
  | header
  | implied
  | dotted
deriving DecidableEq, Repr

/-- A place in a document that is being put together. Rows are tables with a header each. -/
inductive Node
  | value (v : Value)
  | table (origin : Origin) (members : List (String × Node))
  | rows (tables : List (List (String × Node)))

namespace Node

mutual

def toValue : Node → Value
  | value v => v
  | table _ ms => .table (toMembers ms)
  | rows ts => .array (toItems ts)

def toMembers : List (String × Node) → List (String × Value)
  | [] => []
  | (k, n) :: ms => (k, n.toValue) :: toMembers ms

def toItems : List (List (String × Node)) → List Value
  | [] => []
  | t :: ts => .table (toMembers t) :: toItems ts

end

end Node

abbrev Members := List (String × Node)

namespace Members

def put (key : String) (n : Node) : Members → Members
  | [] => [(key, n)]
  | (k, m) :: ms => if k = key then (k, n) :: ms else (k, m) :: put key n ms

def lastRow (f : Members → Option Members) : List Members → Option (List Members)
  | [] => none
  | [t] => do pure [← f t]
  | t :: ts => do pure (t :: (← lastRow f ts))

/-- Changes the table that a header's path leads to; tables on the way come into being by that. -/
def within (f : Members → Option Members) : List String → Members → Option Members
  | [], ms => f ms
  | k :: path, ms => do
    let n ← match ms.lookup k with
      | none => do pure (Node.table .implied (← within f path []))
      | some (.table origin inner) => do pure (.table origin (← within f path inner))
      | some (.rows ts) => do pure (.rows (← lastRow (within f path) ts))
      | some (.value _) => none
    pure (put k n ms)

def openTable (key : String) (ms : Members) : Option Members :=
  match ms.lookup key with
  | none => some (put key (.table .header []) ms)
  | some (.table .implied inner) => some (put key (.table .header inner) ms)
  | some _ => none

def openRow (key : String) (ms : Members) : Option Members :=
  match ms.lookup key with
  | none => some (put key (.rows [[]]) ms)
  | some (.rows ts) => some (put key (.rows (ts ++ [[]])) ms)
  | some _ => none

/-- Gives a value to a dotted key: every table on its way is new or made by dotted keys, and the last one is. -/
def assign (key : String) (v : Value) : List String → Members → Option Members
  | [], ms => if (ms.lookup key).isSome then none else some (put key (.value v) ms)
  | k :: path, ms => do
    let n ← match ms.lookup k with
      | none => do pure (Node.table .dotted (← assign key v path []))
      | some (.table .dotted inner) => do pure (.table .dotted (← assign key v path inner))
      | some (.table .implied inner) =>
        if path.isEmpty then none else do pure (.table .implied (← assign key v path inner))
      | some (.rows ts) => if path.isEmpty then none else do pure (.rows (← lastRow (assign key v path) ts))
      | some (.table .header _) | some (.value _) => none
    pure (put k n ms)

end Members
end GraphClient.Toml
