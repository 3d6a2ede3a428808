import GraphClient.Database

/-!
Rows one by one. A stream lets go of its cursor at the end of the rows, at the first failure, or when it is closed, and
gives nothing after that.
-/
namespace GraphClient

structure RowStream where
  cursor : Option Engine.Cursor
  requestId : Option String

namespace RowStream

variable {σ : Type} [Engine σ]

def closed (s : RowStream) : Bool := s.cursor.isNone

def close : Action (σ × RowStream) Unit := do
  if let some c := (← get).2.cursor then
    modify fun (engine, s) => (engine, { s with cursor := none })
    (Engine.closeCursor c).onFirst

/-- The next row. At the end of the rows a failure to close counts; after another failure it does not. -/
def next : Action (σ × RowStream) (Option Props) := do
  let some c := (← get).2.cursor | pure none
  match ← ((Engine.nextRow c).onFirst : Action (σ × RowStream) (Option Props)).attempt with
  | .ok (some row) => pure (some row)
  | .ok none => do
    close
    pure none
  | .error e => do
    discard (close : Action (σ × RowStream) Unit).attempt
    throw e

/-- The engine once the stream is given up, open or not. -/
def drop (engine : σ) (s : RowStream) : σ := (close.outcome (engine, s)).2.1

end RowStream

def Database.stream {σ : Type} [Engine σ] (q : Query) : Action (Database σ) RowStream := do
  pure ⟨some (← send (.stream q)), q.requestId⟩

end GraphClient
