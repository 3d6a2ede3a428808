import GraphClient.Config.Basic
import GraphClient.Toml.Reader

/-!
Configuration as it is written in TOML. Keys that it does not know are passed over.
-/
namespace GraphClient.Config

/-- The parts of a value that is read as a record: a table by its keys, an array by positions. A date-time has
no part that any record asks for. -/
def parts (names : List String) : Toml.Value → Option (String → Option Toml.Value)
  | .table ms => some fun name => ms.lookup name
  | .array xs => some fun name => xs[names.idxOf name]?
  | .dateTime _ => some fun _ => none
  | _ => none

def readSize : Toml.Value → Option Nat
  | .integer n => if 0 ≤ n then some n.toNat else none
  | _ => none

def readText : Toml.Value → Option String
  | .string s => some s
  | _ => none

def readNames : Toml.Value → Option NameSet
  | .array xs => NameSet.ofList <$> xs.mapM readText
  | _ => none

def optional {α : Type} (read : Toml.Value → Option α) (v : Option Toml.Value) : Option (Option α) :=
  match v with
  | none => some none
  | some v => some <$> read v

def defaulting {α : Type} (absent : α) (read : Toml.Value → Option α) (v : Option Toml.Value) : Option α :=
  (optional read v).map (·.getD absent)

def readMap {α : Type} (read : Toml.Value → Option α) : Toml.Value → Option (Record α)
  | .table ms => Record.ofList <$> ms.mapM fun (name, v) => (name, ·) <$> read v
  | _ => none

def readNode (v : Toml.Value) : Option Schema.Node := do
  let part ← parts ["properties"] v
  pure ⟨← defaulting .empty readNames (part "properties")⟩

def readEdge (v : Toml.Value) : Option Schema.Edge := do
  let part ← parts ["from", "to", "properties"] v
  pure ⟨← readText (← part "from"), ← readText (← part "to"), ← defaulting .empty readNames (part "properties")⟩

def readSchema (v : Toml.Value) : Option Schema := do
  let part ← parts ["nodes", "edges"] v
  pure ⟨← defaulting .empty (readMap readNode) (part "nodes"), ← defaulting .empty (readMap readEdge) (part "edges")⟩

def readBulk (v : Toml.Value) : Option Config := do
  let part ← parts ["node_chunk_size", "edge_chunk_size", "mutation_batch_size"] v
  pure ⟨← optional readSize (part "node_chunk_size"), ← optional readSize (part "edge_chunk_size"),
    ← optional readSize (part "mutation_batch_size"), none⟩

def read (v : Toml.Value) : Option Config := do
  let part ← parts ["bulk", "schema"] v
  let bulk ← defaulting .empty readBulk (part "bulk")
  pure { bulk with schema := ← optional readSchema (part "schema") }

def ofText (inFile : Bool) (s : String) : Except ConfigFault Config := do
  match (Toml.ofText s).bind read with
  | none => throw (.malformed inFile)
  | some c => do
    c.validate
    pure c

end GraphClient.Config
