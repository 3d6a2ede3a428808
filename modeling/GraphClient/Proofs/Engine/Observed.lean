import GraphClient.Database
import GraphClient.Proofs.Mirroring

/-!
An engine that is watched. What it is asked and what it answers is kept in order, and it answers as it does unwatched.
-/
namespace GraphClient

namespace Engine

/-- A call, and the answer to it or the failure it met. -/
structure Exchange where
  call : Call
  reply : Except Failure call.Reply

structure Submission where
  ops : List Mutation
  reply : Except Failure Mutation.Summary

def Exchange.submission? : Exchange → Option Submission
  | ⟨.mutate script, reply⟩ => some ⟨script.ops, reply⟩
  | _ => none

structure Observed (σ : Type) where
  engine : σ
  exchanges : List Exchange

namespace Observed

variable {σ : Type}

def submissions (o : Observed σ) : List Submission := o.exchanges.filterMap Exchange.submission?

variable [Engine σ]

def answer (call : Call) : Action (Observed σ) call.Reply := .ofOutcome fun o =>
  let (reply, engine) := (Engine.answer call).outcome o.engine
  (reply, ⟨engine, o.exchanges ++ [⟨call, reply⟩]⟩)

instance : Engine (Observed σ) where
  answer := answer
  nextRow c := (Engine.nextRow c).within Observed.engine fun o engine => { o with engine }
  closeCursor c := (Engine.closeCursor c).within Observed.engine fun o engine => { o with engine }

theorem answer_outcome (call : Call) (o : Observed σ) :
    ((Engine.answer call).outcome o).1 = ((Engine.answer call).outcome o.engine).1 ∧
      ((Engine.answer call).outcome o).2.engine = ((Engine.answer call).outcome o.engine).2 ∧
      ((Engine.answer call).outcome o).2.exchanges = o.exchanges ++ [⟨call, ((Engine.answer call).outcome o).1⟩] :=
  ⟨rfl, rfl, rfl⟩

theorem submissions_mutate (ops : List Mutation) (o : Observed σ) :
    ((Engine.answer (.mutate ⟨ops⟩)).outcome o).2.submissions =
      o.submissions ++ [⟨ops, ((Engine.answer (.mutate ⟨ops⟩)).outcome o).1⟩] := by
  rw [submissions, (answer_outcome _ o).2.2, List.filterMap_append]
  rfl

end Observed
end Engine

namespace Database

open GraphClient.Action (Mirrors)
open Engine (Observed)

variable {σ : Type}

def observed (db : Database σ) : Database (Observed σ) := ⟨⟨db.engine, []⟩, db.options, db.closed⟩

def unwatched (db : Database (Observed σ)) : Database σ := ⟨db.engine.engine, db.options, db.closed⟩

theorem requireOpen_outcome (db : Database σ) :
    requireOpen.outcome db = (if db.closed then .error .closed else .ok (), db) := by
  simp only [requireOpen, Action.outcome_bind, Action.outcome_get]
  cases db.closed <;> rfl

section
variable {db : Database σ}

theorem requireOpen_opened (opened : db.closed = false) : requireOpen.outcome db = (.ok (), db) := by
  rw [requireOpen_outcome, opened, if_neg Bool.false_ne_true]

theorem requireOpen_closed (shut : db.closed = true) : requireOpen.outcome db = (.error .closed, db) := by
  rw [requireOpen_outcome, if_pos shut]

variable {τ : Type} (t : τ)

theorem requireOpen_onFirst_opened (opened : db.closed = false) :
    requireOpen.onFirst.outcome (db, t) = (.ok (), (db, t)) := by
  rw [Action.outcome_onFirst, requireOpen_opened opened]

theorem requireOpen_onFirst_closed (shut : db.closed = true) :
    requireOpen.onFirst.outcome (db, t) = (.error .closed, (db, t)) := by
  rw [Action.outcome_onFirst, requireOpen_closed shut]

end

theorem requireOpen_mirrors : Mirrors (unwatched (σ := σ)) requireOpen requireOpen := by
  intro db
  rw [requireOpen_outcome, requireOpen_outcome]
  rfl

theorem send_mirrors [Engine σ] (call : Engine.Call) : Mirrors (unwatched (σ := σ)) (send call) (send call) :=
  requireOpen_mirrors.bind fun _ _ => rfl

end Database
end GraphClient
