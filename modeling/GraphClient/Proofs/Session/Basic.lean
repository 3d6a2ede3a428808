import GraphClient.Proofs.Creation.Calls
import GraphClient.Proofs.Database.Calls
import GraphClient.Proofs.Query.History
import GraphClient.Query.Stream

/-!
Sessions: a handle together with all that has been made on it and is in use. Calls come in any order, inside and outside
of transactions. The schema is replaced only where nothing that was made on the handle is in use any more.
-/
namespace GraphClient

inductive Item
  | query (b : Builder)
  | draft (d : Creation.Draft)
  | batch (b : Batch)
  | stream (s : RowStream)

structure Item.Kind (τ : Type) where
  wrap : τ → Item
  pick : Item → Option τ
  picked : ∀ {i x}, pick i = some x → i = wrap x

namespace Item.Kind

def query : Kind Builder where
  wrap := .query
  pick | .query b => some b | _ => none
  picked {i _} h := by cases i <;> cases h; rfl

def draft : Kind Creation.Draft where
  wrap := .draft
  pick | .draft d => some d | _ => none
  picked {i _} h := by cases i <;> cases h; rfl

def batch : Kind Batch where
  wrap := .batch
  pick | .batch b => some b | _ => none
  picked {i _} h := by cases i <;> cases h; rfl

def stream : Kind RowStream where
  wrap := .stream
  pick | .stream s => some s | _ => none
  picked {i _} h := by cases i <;> cases h; rfl

end Item.Kind

/-- An engine, and what has been made on its handle, in the order it was made. -/
structure Workbench (σ : Type) where
  engine : σ
  items : List Item

instance {σ : Type} [Engine σ] : Engine (Workbench σ) where
  answer call := (Engine.answer call).within Workbench.engine fun w engine => { w with engine }
  nextRow c := (Engine.nextRow c).within Workbench.engine fun w engine => { w with engine }
  closeCursor c := (Engine.closeCursor c).within Workbench.engine fun w engine => { w with engine }

abbrev Session (σ : Type) := Database (Workbench σ)

namespace Session

open Engine (Observed Exchange)

/-- A call. Items are named by their places; a call on an item that is not there does nothing. -/
inductive Call
  | ask (c : Database.Call)
  | close
  | query
  | draft
  | batch
  | onQuery (k : Nat) (c : Builder.Call)
  | onScope (k : Nat) (name : String) (c : Builder.ScopeCall)
  | execute (k : Nat)
  | explain (k : Nat) (redactLiterals : Bool)
  | stream (k : Nat)
  | pull (k : Nat)
  | letGo (k : Nat)
  | onDraft (k : Nat) (c : Creation.Draft.Call)
  | create (k : Nat)
  | onBatch (k : Nat) (c : Batch.Call)
  /-- Applies a batch that was made on another handle. A batch of this one that is applied elsewhere is drained. -/
  | applyOther (b : Batch)
  | transaction (body : List Call) (result : Except Failure Unit)

/-- Between calls that use what has been made, a caller may give all of it up and replace the schema. -/
inductive Phase
  | call (c : Call)
  | withSchema (schema : Option Schema)

section
variable {σ α τ : Type}

def items (s : Session σ) : List Item := s.engine.items

def restock (s : Session σ) (items : List Item) : Session σ := { s with engine := { s.engine with items } }

def shelved (s : Session σ) (i : Item) : Session σ := s.restock (s.items ++ [i])

def handle (s : Session σ) : Database σ := ⟨s.engine.engine, s.options, s.closed⟩

def keep (kind : Item.Kind τ) (make : Action (Session σ) τ) : Action (Session σ) Unit := do
  let x ← make
  modify (·.shelved (kind.wrap x))

def item? (s : Session σ) (kind : Item.Kind τ) (k : Nat) : Option τ := s.items[k]?.bind kind.pick

def onItem (kind : Item.Kind τ) (k : Nat) (a : Action (Session σ × τ) α) : Action (Session σ) Unit := do
  if let some x := (← get).item? kind k then
    discard (a.within (·, x) fun _ (s, x) => s.restock (s.items.set k (kind.wrap x)))

/-- The body of a transaction finds the batch behind all other items, and leaves it in its place. -/
def inside (body : Action (Session σ) α) : Action (Session σ × Batch) α :=
  body.within (fun (s, b) => s.shelved (.batch b)) fun (s, b) t =>
    (t.restock (t.items.eraseIdx s.items.length), (t.item? .batch s.items.length).getD b)

def onStream (a : Action (Workbench σ × RowStream) α) : Action (Session σ × RowStream) α :=
  a.within (fun (s, r) => (s.engine, r)) fun (s, _) (engine, r) => ({ s with engine }, r)

end

section
variable {σ : Type} [Engine σ]

mutual

def Call.run : Call → Action (Session σ) Unit
  | .ask c => discard c.run
  | .close => Database.close
  | .query => keep .query Database.query
  | .draft => keep .draft Database.draft
  | .batch => keep .batch Database.batch
  | .onQuery k c => onItem .query k c.run.onSecond
  | .onScope k name c => onItem .query k (c.run name).onSecond
  | .execute k => onItem .query k do (Database.execute (← get).2.build).onFirst
  | .explain k redactLiterals => onItem .query k do (Database.explain (← get).2.build redactLiterals).onFirst
  | .stream k => onItem .query k do (keep .stream (Database.stream (← get).2.build)).onFirst
  | .pull k => onItem .stream k (onStream RowStream.next)
  | .letGo k => onItem .stream k (onStream RowStream.close)
  | .onDraft k c => onItem .draft k c.run.onSecond
  | .create k => onItem .draft k Database.create
  | .onBatch k c => onItem .batch k c.run
  | .applyOther b => discard (Database.applyBatch.within (·, b) fun _ s => s.1)
  | .transaction body result => discard (Database.transaction (inside do
      Call.runAll body
      Action.check result))

def Call.runAll : List Call → Action (Session σ) Unit
  | [] => pure ()
  | c :: cs => do
    discard c.run.attempt
    Call.runAll cs

end

def Phase.run : Phase → Action (Session σ) Unit
  | call c => c.run
  | withSchema schema => do
    modify (·.restock [])
    Database.withSchema schema

def step (s : Session σ) (p : Phase) : Session σ := (p.run.outcome s).2

def after (s : Session σ) (phases : List Phase) : Session σ := phases.foldl step s

def opened (e : σ) (options : Options) : Session (Observed σ) := ⟨⟨⟨e, []⟩, []⟩, options, false⟩

def log (s : Session (Observed σ)) : List Exchange := s.engine.engine.exchanges

end
end Session
end GraphClient
