import GraphClient.Wire.Fault
import GraphClient.Json.Basic

/-!
Readers of documents. A record is read part by part, and of several faults the one met first counts: the
parts in the order of the document, then the parts that are missing in the order of the record.
-/
namespace GraphClient.Wire

abbrev Reader (α : Type) := Json → Except Fault α

/-- The outcome of reading some parts of a record: a value, or a fault and the place at which it is met. -/
inductive Reading (α : Type)
  | done (a : α)
  | failed (place : Nat) (fault : Fault)

namespace Reading

variable {α β : Type}

/-- Of two faults the one at the smaller place counts, at one place the left one. -/
def both (f : Reading (α → β)) (x : Reading α) : Reading β :=
  match f, x with
  | done f, done a => done (f a)
  | done _, failed p e => failed p e
  | failed p e, done _ => failed p e
  | failed p e, failed q d => if p ≤ q then failed p e else failed q d

instance : Applicative Reading where
  pure := done
  seq f x := both f (x ())

def result : Reading α → Except Fault α
  | done a => .ok a
  | failed _ e => .error e

def here (place : Nat) (x : Except Fault α) : Reading α :=
  match x with
  | .ok a => done a
  | .error e => failed place e

end Reading

/-- What a record is read from: members by name, or elements by position. -/
inductive Parts
  | members (ms : List (String × Json))
  | elements (xs : List Json)

namespace Parts

variable {α : Type}

def ofJson (wanted : String) : Reader Parts
  | .object ms => .ok (members ms)
  | .array xs => .ok (elements xs)
  | _ => .error (.type wanted)

def occurrences (names : List String) (ms : List (String × Json)) : List (Nat × Json) :=
  (ms.zipIdx.filter fun m => names.contains m.1.1).map fun m => (m.2, m.1.2)

/-- One part of a record: its position, its name and its other names, and what stands for it when it is absent. -/
def slot (p : Parts) (position : Nat) (name : String) (others : List String) (absent : Option α) (read : Reader α) :
    Reading α :=
  match p with
  | members ms =>
    match occurrences (name :: others) ms, absent with
    | [], some a => .done a
    | [], none => .failed ms.length (.missing name)
    | [(i, v)], _ => .here i (read v)
    | (i, v) :: (j, _) :: _, _ =>
      -- the first is read before the second is refused
      match read v with
      | .ok _ => .failed j (.duplicate name)
      | .error e => .failed i e
  | elements xs =>
    match xs[position]?, absent with
    | some v, _ => .here position (read v)
    | none, some a => .done a
    | none, none => .failed position (.length name)

def required (p : Parts) (position : Nat) (name : String) (read : Reader α) : Reading α :=
  p.slot position name [] none read

def defaulting (p : Parts) (position : Nat) (name : String) (absent : α) (read : Reader α) : Reading α :=
  p.slot position name [] (some absent) read

/-- Elements behind the last part are refused once the parts are read. -/
def atMost (p : Parts) (n : Nat) : Reading Unit :=
  match p with
  | members _ => .done ()
  | elements xs => if n < xs.length then .failed n (.length "fewer elements") else .done ()

end Parts

variable {α β : Type}

def Parts.read (p : Parts) (size : Nat) (parts : Parts → Reading α) : Except Fault α :=
  (parts p <* p.atMost size).result

def record (wanted : String) (size : Nat) (parts : Parts → Reading α) : Reader α := fun j => do
  (← Parts.ofJson wanted j).read size parts

def nothing : Reader Unit
  | .null => .ok ()
  | _ => .error (.type "null")

def bool : Reader Bool
  | .bool b => .ok b
  | _ => .error (.type "a boolean")

def text : Reader String
  | .string s => .ok s
  | _ => .error (.type "a string")

def float : Reader Float
  | .float x => .ok x
  | .integer n => .ok (Float.ofInt n)
  | _ => .error (.type "a number")

/-- An integer between two bounds; a float never counts as one. -/
def integer (least greatest : Int) : Reader Int
  | .integer n => if least ≤ n ∧ n ≤ greatest then .ok n else .error (.value "an integer in range")
  | _ => .error (.type "an integer")

def int64 : Reader Int64 := fun j => (integer (-0x8000000000000000) 0x7FFFFFFFFFFFFFFF j).map Int64.ofInt

def uint64 : Reader UInt64 := fun j => (integer 0 0xFFFFFFFFFFFFFFFF j).map fun n => UInt64.ofNat n.toNat

def uint32 : Reader UInt32 := fun j => (integer 0 0xFFFFFFFF j).map fun n => UInt32.ofNat n.toNat

def size : Reader Nat
  | .integer n => if 0 ≤ n then .ok n.toNat else .error (.value "a count")
  | _ => .error (.type "a count")

def optional (read : Reader α) : Reader (Option α)
  | .null => .ok none
  | j => some <$> read j

def list (read : Reader α) : Reader (List α)
  | .array xs => xs.mapM read
  | _ => .error (.type "a sequence")

/-- A map from names; the last member of a name counts. -/
def map (read : Reader α) : Reader (Record α)
  | .object ms => Record.ofList <$> ms.mapM fun (n, v) => (n, ·) <$> read v
  | _ => .error (.type "a map")

def value : Reader Value := fun j => .ok (.ofJson j)

def props : Reader Props := map value

def nameSet : Reader NameSet := fun j => NameSet.ofList <$> list text j

def variant (variants : List (String × α)) (name : String) : Except Fault α :=
  match variants.lookup name with
  | some a => .ok a
  | none => .error (.unknownVariant name (variants.map Prod.fst))

/-- How a document inside a tagged record is read: there a position stands for the name of a variant, and an empty
object for null. -/
inductive Place
  | outside | inside
deriving DecidableEq, Repr

def choice (place : Place) (variants : List (String × α)) : Reader α
  | .string s => variant variants s
  | .object [(name, v)] => do
    let a ← variant variants name
    match v, place with
    | .null, _ | .object [], .inside => .ok a
    | _, _ => .error (.type "null")
  | .object _ => .error (.value "a map with one member")
  | _ => .error (.type "a string or a map")

def tagOf (place : Place) (variants : List (String × α)) : Reader α
  | .string s => variant variants s
  | .integer n =>
    match place, if 0 ≤ n then variants[n.toNat]? else none with
    | .inside, some v => .ok v.2
    | .inside, none => .error (.value "the position of a variant")
    | .outside, _ => .error (.type "the name of a variant")
  | _ => .error (.type "the name of a variant")

/-- Takes a tagged record apart: the variant that its tag names, and the other parts. The tag leads an array. -/
def tagged (place : Place) (tag : String) (variants : List (String × α)) : Reader (α × Parts)
  | .object ms => do
    match Parts.occurrences [tag] ms with
    | [] => .error (.missing tag)
    | [(_, v)] => pure (← tagOf place variants v, .members (ms.filter (·.1 != tag)))
    | (_, v) :: _ => do
      discard (tagOf place variants v)
      .error (.duplicate tag)
  | .array [] => .error (.missing tag)
  | .array (v :: xs) => do pure (← tagOf place variants v, .elements xs)
  | _ => .error (.type "a tagged record")

end GraphClient.Wire
