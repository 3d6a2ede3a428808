import GraphClient.Mutation.Loading
import GraphClient.Proofs.Mutation.Submission

/-!
How calls on a handle are guarded. While the handle is open they ask the engine for what the schema admits; once it is
closed they fail and ask for nothing, with the failure of a closed handle unless they fail by themselves.
-/
namespace GraphClient.Database

open GraphClient.Action (Goes)

section
variable {σ α β : Type}

def reopened (db : Database σ) : Database σ := { db with closed := false }

def ReadsOptions (a : Action (Database σ) α) : Prop :=
  ∀ db, ∃ r, a.outcome db = (r, db) ∧ a.outcome db.reopened = (r, db.reopened)

namespace ReadsOptions

theorem pure (v : α) : ReadsOptions (Pure.pure v : Action (Database σ) α) := fun _ => ⟨_, rfl, rfl⟩

theorem check (x : Except Failure α) : ReadsOptions (Action.check x : Action (Database σ) α) := fun _ => ⟨_, rfl, rfl⟩

theorem refuse (cause : Misuse) : ReadsOptions (Action.refuse cause : Action (Database σ) α) := fun _ => ⟨_, rfl, rfl⟩

theorem bind {a : Action (Database σ) α} {f : α → Action (Database σ) β} (first : ReadsOptions a)
    (rest : ∀ v, ReadsOptions (f v)) : ReadsOptions (a >>= f) := by
  intro db
  obtain ⟨r, done, again⟩ := first db
  rw [Action.outcome_bind, Action.outcome_bind, done, again]
  cases r with
  | error f => exact ⟨_, rfl, rfl⟩
  | ok v => exact rest v db

theorem get_bind {f : Database σ → Action (Database σ) β} (same : ∀ db, f db.reopened = f db)
    (rest : ∀ db, ReadsOptions (f db)) : ReadsOptions (get >>= f) := by
  intro db
  rw [Action.outcome_bind_ok (Action.outcome_get db), Action.outcome_bind_ok (Action.outcome_get db.reopened), same]
  exact rest db db

theorem discard {a : Action (Database σ) α} (h : ReadsOptions a) :
    ReadsOptions (Functor.discard a : Action (Database σ) Unit) := by
  intro db
  obtain ⟨r, done, again⟩ := h db
  exact ⟨_, by rw [Action.outcome_discard, done], by rw [Action.outcome_discard, again]⟩

theorem forM {f : α → Action (Database σ) PUnit} (each : ∀ v, ReadsOptions (f v)) (l : List α) :
    ReadsOptions (l.forM f) := by
  induction l with
  | nil => exact pure _
  | cons v l ih => exact (each v).bind fun _ => ih

theorem mapM_check (f : α → Except Failure β) (l : List α) :
    ReadsOptions (l.mapM fun v => Action.check (f v) : Action (Database σ) (List β)) :=
  fun _ => ⟨_, Action.mapM_reads (fun _ => rfl) l, Action.mapM_reads (fun _ => rfl) l⟩

theorem conform (ops : List Mutation) : ReadsOptions (Database.conform ops : Action (Database σ) Unit) :=
  fun db => ⟨_, conform_checks ops db, conform_checks ops db.reopened⟩

theorem chunkSize (asked : Option Nat) (fallback : Options → Nat) :
    ReadsOptions (Database.chunkSize asked fallback : Action (Database σ) Nat) := by
  refine get_bind (fun _ => rfl) fun db => ?_
  dsimp only
  split
  · exact (refuse _).bind fun _ => pure _
  · exact pure _

theorem leaves {a : Action (Database σ) α} (h : ReadsOptions a) (db : Database σ) : (a.outcome db).2 = db := by
  obtain ⟨r, done, _⟩ := h db
  rw [done]

end ReadsOptions
end

theorem made_of_options {σ α : Type} {db db' : Database σ} (make : Options → α) {v : α}
    (h : (do requireOpen; pure (make (← get).options) : Action (Database σ) α).outcome db = (.ok v, db')) :
    v = make db.options := by
  cases shut : db.closed with
  | true =>
      rw [Action.outcome_bind_error (requireOpen_closed shut)] at h
      cases h
  | false =>
      rw [Action.outcome_bind_ok (requireOpen_opened shut)] at h
      cases h
      rfl

section
variable {σ α β : Type} [Engine σ]

/-- An open handle asks its engine for something that the schema admits; closing is no such question. -/
inductive Asks : Database σ → Database σ → Prop
  | ask {db : Database σ} (call : Engine.Call) : db.closed = false → call ≠ .close → call.Admitted db.schema →
      Asks db { db with engine := ((Engine.answer call).outcome db.engine).2 }

theorem Asks.schema {db db' : Database σ} (h : Asks db db') : db'.schema = db.schema := by
  cases h
  rfl

/-- An open handle asks only for what is admitted, and a closed one refuses. -/
structure Guarded (a : Action (Database σ) α) (db : Database σ) : Prop where
  asks : Goes Asks a db
  refuses : db.closed = true →
    ∃ f, a.outcome db = (.error f, db) ∧ (f = .closed ∨ a.outcome db.reopened = (.error f, db.reopened))

namespace Guarded

variable {a : Action (Database σ) α} {db : Database σ}

theorem of_closed (asks : Goes Asks a db) (refuses : db.closed = true → a.outcome db = (.error .closed, db)) :
    Guarded a db where
  asks := asks
  refuses shut := ⟨_, refuses shut, .inl rfl⟩

theorem requireOpen_bind {f : Unit → Action (Database σ) β} (rest : db.closed = false → Goes Asks (f ()) db) :
    Guarded (requireOpen >>= f) db := by
  cases shut : db.closed with
  | true =>
      have refused := Action.outcome_bind_error (requireOpen_closed shut) f
      exact of_closed (.of_reads (by rw [refused])) fun _ => refused
  | false =>
      refine of_closed ?_ (by simp [shut])
      rw [Goes, Action.outcome_bind_ok (requireOpen_opened shut)]
      exact rest shut

theorem send {call : Engine.Call} (other : call ≠ .close) (admitted : call.Admitted db.schema) :
    Guarded (Database.send call) db :=
  requireOpen_bind fun opened => .single (.ask call opened other admitted)

theorem bind {f : α → Action (Database σ) β} (first : Guarded a db)
    (rest : ∀ v t, a.outcome db = (.ok v, t) → Goes Asks (f v) t) : Guarded (a >>= f) db where
  asks := first.asks.bind rest
  refuses shut := by
    obtain ⟨e, failed, alone⟩ := first.refuses shut
    exact ⟨e, Action.outcome_bind_error failed f, alone.imp id fun again => Action.outcome_bind_error again f⟩

theorem bind_pure (first : Guarded a db) (f : α → β) : Guarded (a >>= fun v => pure (f v)) db :=
  first.bind fun _ _ _ => .pure _ _

theorem reads_bind {f : α → Action (Database σ) β} (reads : ReadsOptions a)
    (rest : ∀ v, a.outcome db = (.ok v, db) → Guarded (f v) db) : Guarded (a >>= f) db := by
  obtain ⟨r, done, again⟩ := reads db
  cases r with
  | error e =>
      have failed := Action.outcome_bind_error done f
      exact ⟨.of_reads (by rw [failed]), fun _ => ⟨e, failed, .inr (Action.outcome_bind_error again f)⟩⟩
  | ok v =>
      have later := rest v done
      constructor
      · rw [Goes, Action.outcome_bind_ok done]
        exact later.asks
      · intro shut
        rw [Action.outcome_bind_ok done, Action.outcome_bind_ok again]
        exact later.refuses shut

theorem check_bind {x : Except Failure α} {f : α → Action (Database σ) β} (rest : ∀ v, x = .ok v → Guarded (f v) db) :
    Guarded (Action.check x >>= f) db :=
  reads_bind (.check x) fun v passed => rest v (congrArg Prod.fst passed)

theorem get_bind {f : Database σ → Action (Database σ) β} (same : f db.reopened = f db) (rest : Guarded (f db) db) :
    Guarded (get >>= f) db := by
  constructor
  · exact .get_bind rest.asks
  · intro shut
    rw [Action.outcome_bind_ok (Action.outcome_get db), Action.outcome_bind_ok (Action.outcome_get db.reopened), same]
    exact rest.refuses shut

end Guarded
end
end GraphClient.Database
