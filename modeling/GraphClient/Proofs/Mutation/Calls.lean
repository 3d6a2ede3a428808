import GraphClient.Mutation.Batch
import GraphClient.Proofs.Engine.Observed

/-!
What the calls on a batch do to it and to the engine behind it. A call is refused, or it queues one mutation, or it
seals the batch, and only in sealing it can it reach the engine.
-/
namespace GraphClient

open Engine (Observed)

namespace Batch

inductive Queueing
  | mutation (m : Mutation)
  | createNode (labels : List String) (props : Props)
  | updateNode (id : UInt64) (assigned : Props) (removed : List String)
  | deleteNode (id : UInt64) (cascade : Bool)
  | createEdge (source target : UInt64) (edgeType : String) (props : Props)
  | updateEdge (id : UInt64) (assigned : Props) (removed : List String)
  | deleteEdge (id : UInt64)

namespace Queueing

def run : Queueing → Action Batch Unit
  | mutation m => Batch.queue m
  | createNode labels props => Batch.createNode labels props
  | updateNode id assigned removed => Batch.updateNode id assigned removed
  | deleteNode id cascade => Batch.deleteNode id cascade
  | createEdge source target edgeType props => Batch.createEdge source target edgeType props
  | updateEdge id assigned removed => Batch.updateEdge id assigned removed
  | deleteEdge id => Batch.deleteEdge id

def queued : Queueing → Mutation
  | mutation m => m
  | createNode labels props => .createNode labels props
  | updateNode id assigned removed => .updateNode id assigned removed
  | deleteNode id cascade => .deleteNode id cascade
  | createEdge source target edgeType props => .createEdge source target edgeType props
  | updateEdge id assigned removed => .updateEdge id assigned removed
  | deleteEdge id => .deleteEdge id

end Queueing

inductive Call
  | queue (q : Queueing)
  | drain
  | commit
  | applyBatch

namespace Call

abbrev Reply : Call → Type
  | queue _ => Unit
  | drain => List Mutation
  | commit | applyBatch => Mutation.Summary

def run {σ : Type} [Engine σ] : (c : Call) → Action (Database σ × Batch) c.Reply
  | queue q => q.run.onSecond
  | drain => Batch.drain.onSecond
  | commit => Database.commit
  | applyBatch => Database.applyBatch

/-- What a call has queued, which a failing call has not. -/
def accepted : (c : Call) → Except Failure c.Reply → List Mutation
  | queue q, .ok _ => [q.queued]
  | queue _, .error _ => []
  | drain, _ => []
  | commit, _ => []
  | applyBatch, _ => []

@[simp] theorem accepted_error (c : Call) (f : Failure) : c.accepted (.error f) = [] := by
  cases c <;> rfl

end Call

def spent (b : Batch) : Batch := { b with ops := [], isSealed := true }

theorem requireOpen_outcome (b : Batch) :
    requireOpen.outcome b = (if b.isSealed then .error (.argument .committed) else .ok (), b) := by
  simp only [requireOpen, Action.outcome_bind, Action.outcome_get]
  cases b.isSealed <;> rfl

theorem queue_accepted {m : Mutation} {b : Batch} (opened : b.isSealed = false) (fits : m.conforms? b.schema = .ok ()) :
    (Batch.queue m).outcome b = (.ok (), { b with ops := b.ops ++ [m] }) := by
  have first := requireOpen_outcome b
  have second : (Action.conform (m.conforms? b.schema) : Action Batch Unit).outcome b = (.ok (), b) := by
    rw [fits]
    rfl
  rw [opened, if_neg Bool.false_ne_true] at first
  rw [Batch.queue, Action.outcome_bind_ok first, Action.outcome_bind_ok (Action.outcome_get b)]
  exact Action.outcome_bind_ok second _

theorem queue_outcome (m : Mutation) (b : Batch) :
    (∃ f, (Batch.queue m).outcome b = (.error f, b)) ∨ b.isSealed = false ∧ m.conforms? b.schema = .ok () ∧
      (Batch.queue m).outcome b = (.ok (), { b with ops := b.ops ++ [m] }) := by
  have first := requireOpen_outcome b
  by_cases shut : b.isSealed = true
  · rw [if_pos shut] at first
    exact .inl ⟨_, Action.outcome_bind_error first _⟩
  · rw [if_neg shut] at first
    cases fits : m.conforms? b.schema with
    | error v =>
        have second : (Action.conform (m.conforms? b.schema) : Action Batch Unit).outcome b = (.error (.schema v), b) := by
          rw [fits]
          rfl
        rw [Batch.queue, Action.outcome_bind_ok first, Action.outcome_bind_ok (Action.outcome_get b)]
        exact .inl ⟨_, Action.outcome_bind_error second _⟩
    | ok _ =>
        have opened : b.isSealed = false := by simpa using shut
        exact .inr ⟨opened, rfl, queue_accepted opened fits⟩

theorem drain_outcome (b : Batch) :
    drain.outcome b = if b.isSealed then (.error (.argument .committed), b) else (.ok b.ops, b.spent) := by
  simp only [drain, Action.outcome_bind, requireOpen_outcome]
  cases b.isSealed <;> rfl

end Batch

def Mutation.conformAll (schema : Option Schema) (ops : List Mutation) : Except Failure PUnit :=
  ops.forM fun m => (m.conforms? schema).mapError .schema

namespace Database

variable {σ : Type}

theorem batch_outcome (opened : db.closed = false) : batch.outcome db = (.ok (.new db.schema), db) :=
  Action.outcome_bind_ok (requireOpen_opened opened) _

theorem conform_checks (ops : List Mutation) (db : Database σ) :
    (conform ops).outcome db = (Mutation.conformAll db.schema ops, db) := by
  rw [conform, Action.outcome_bind_ok (Action.outcome_get db)]
  exact Action.forM_check (fun m : Mutation => (m.conforms? db.schema).mapError .schema) ops db

theorem conform_outcome (ops : List Mutation) (db : Database σ) : ((conform ops).outcome db).2 = db := by
  rw [conform_checks]

variable [Engine σ]

theorem send_outcome {db : Database σ} (opened : db.closed = false) (call : Engine.Call) :
    (send call).outcome db =
      (((Engine.answer call).outcome db.engine).1, { db with engine := ((Engine.answer call).outcome db.engine).2 }) :=
  Action.outcome_bind_ok (requireOpen_opened opened) _

/-- Mutations are refused before the engine hears of them, or they are submitted as they are. -/
theorem mutate_outcome (ops : List Mutation) (db : Database (Observed σ)) :
    (∃ f, (mutate ops).outcome db = (.error f, db)) ∨
      db.closed = false ∧ ∃ (engine : Observed σ) (reply : Except Failure Mutation.Summary),
        (mutate ops).outcome db = (reply, { db with engine }) ∧
          engine.submissions = db.engine.submissions ++ [⟨ops, reply⟩] := by
  by_cases shut : db.closed = true
  · exact .inl ⟨_, Action.outcome_bind_error (requireOpen_closed shut) _⟩
  · have opened : db.closed = false := by simpa using shut
    obtain ⟨r, second⟩ : ∃ r, (conform ops).outcome db = (r, db) := ⟨_, Prod.ext rfl (conform_outcome ops db)⟩
    rw [mutate, Action.outcome_bind_ok (requireOpen_opened opened)]
    cases r with
    | error f => exact .inl ⟨f, Action.outcome_bind_error second _⟩
    | ok _ =>
        have third := send_outcome opened (.mutate ⟨ops⟩)
        exact .inr ⟨opened, _, _, (Action.outcome_bind_ok second _).trans third,
          Engine.Observed.submissions_mutate ops db.engine⟩

end Database

namespace Batch

theorem Queueing.outcome (q : Queueing) (b : Batch) :
    (∃ f, q.run.outcome b = (.error f, b)) ∨ b.isSealed = false ∧ q.queued.conforms? b.schema = .ok () ∧
      q.run.outcome b = (.ok (), { b with ops := b.ops ++ [q.queued] }) := by
  cases q with
  | createNode labels props =>
      by_cases none : labels.isEmpty = true
      · exact .inl ⟨.argument (.noLabel "createNode"), by simp [run, Batch.createNode, none, Action.outcome_bind]⟩
      · have same : (createNode labels props).run = Batch.queue (.createNode labels props) := by
          simp [run, Batch.createNode, none]
        rw [same]
        exact queue_outcome _ b
  | createEdge source target edgeType props =>
      by_cases blank : Text.isBlank edgeType = true
      · have checked : nonBlank "edge type" edgeType = .error (.argument (.blank "edge type")) := if_pos blank
        exact .inl ⟨_, by rw [run, Batch.createEdge, Action.outcome_bind, Action.outcome_check, checked]⟩
      · have checked : nonBlank "edge type" edgeType = .ok edgeType := if_neg blank
        rw [run, Batch.createEdge, Action.outcome_bind, Action.outcome_check, checked]
        exact queue_outcome _ b
  | _ => exact queue_outcome _ b

section
variable {τ : Type} (t : τ) (b : Batch)

theorem requireOpen_onSecond (opened : b.isSealed = false) : requireOpen.onSecond.outcome (t, b) = (.ok (), (t, b)) := by
  simp [Action.outcome_onSecond, requireOpen_outcome, opened]

theorem requireOpen_onSecond_sealed (shut : b.isSealed = true) :
    requireOpen.onSecond.outcome (t, b) = (.error (.argument .committed), (t, b)) := by
  simp [Action.outcome_onSecond, requireOpen_outcome, shut]

theorem drain_onSecond (opened : b.isSealed = false) : drain.onSecond.outcome (t, b) = (.ok b.ops, (t, b.spent)) := by
  simp [Action.outcome_onSecond, drain_outcome, opened]

theorem drain_onSecond_sealed (shut : b.isSealed = true) :
    drain.onSecond.outcome (t, b) = (.error (.argument .committed), (t, b)) := by
  simp [Action.outcome_onSecond, drain_outcome, shut]

end

section
variable {σ : Type} (db : Database (Observed σ)) (b : Batch)

/-- What applying a batch can come to. Mutations that are taken may still be refused before the engine hears of them. -/
inductive Sends : Except Failure Mutation.Summary → Database (Observed σ) × Batch → Prop
  | refused {f : Failure} : Sends (.error f) (db, b)
  | lost {f : Failure} : b.isSealed = false → Sends (.error f) (db, b.spent)
  | submitted {engine : Observed σ} {reply : Except Failure Mutation.Summary} : b.isSealed = false → db.closed = false →
      engine.submissions = db.engine.submissions ++ [⟨b.ops, reply⟩] → Sends reply ({ db with engine }, b.spent)

inductive Change : (c : Call) → Except Failure c.Reply → Database (Observed σ) × Batch → Prop
  | refused {c : Call} {f : Failure} : Change c (.error f) (db, b)
  | queued {q : Queueing} : b.isSealed = false → q.queued.conforms? b.schema = .ok () →
      Change (.queue q) (.ok ()) (db, { b with ops := b.ops ++ [q.queued] })
  | drained : b.isSealed = false → Change .drain (.ok b.ops) (db, b.spent)
  | committed {result : Except Failure Mutation.Summary} {s : Database (Observed σ) × Batch} : Sends db b result s →
      Change .commit result s
  | applied {result : Except Failure Mutation.Summary} {s : Database (Observed σ) × Batch} : Sends db b result s →
      Change .applyBatch result s

variable [Engine σ]

theorem mutate_sends (opened : b.isSealed = false) :
    let done := (Database.mutate b.ops).onFirst.outcome (db, b.spent)
    Sends db b done.1 done.2 := by
  rw [Action.outcome_onFirst]
  rcases Database.mutate_outcome b.ops db with ⟨f, refused⟩ | ⟨ready, engine, reply, sent, kept⟩
  · rw [refused]
    exact .lost opened
  · rw [sent]
    exact .submitted opened ready kept

theorem applyBatch_sends :
    let done := Database.applyBatch.outcome (db, b)
    Sends db b done.1 done.2 := by
  cases shut : b.isSealed with
  | true =>
      rw [Database.applyBatch, Action.outcome_bind_error (drain_onSecond_sealed db b shut)]
      exact .refused
  | false =>
      rw [Database.applyBatch, Action.outcome_bind_ok (drain_onSecond db b shut)]
      exact mutate_sends db b shut

theorem commit_sends :
    let done := Database.commit.outcome (db, b)
    Sends db b done.1 done.2 := by
  -- the batch is looked at before the handle, and behind both checks it is applied as any other
  cases shut : b.isSealed with
  | true =>
      rw [Database.commit, Action.outcome_bind_error (requireOpen_onSecond_sealed db b shut)]
      exact .refused
  | false =>
      rw [Database.commit, Action.outcome_bind_ok (requireOpen_onSecond db b shut)]
      cases closed : db.closed with
      | true =>
          rw [Action.outcome_bind_error (Database.requireOpen_onFirst_closed b closed)]
          exact .refused
      | false =>
          rw [Action.outcome_bind_ok (Database.requireOpen_onFirst_opened b closed)]
          exact applyBatch_sends db b

theorem Call.run_change (c : Call) :
    let done := c.run.outcome (db, b)
    Change db b c done.1 done.2 := by
  cases c with
  | queue q =>
      rcases q.outcome b with ⟨f, refused⟩ | ⟨opened, fits, done⟩
      · simp only [run, Action.outcome_onSecond, refused]
        exact .refused
      · simp only [run, Action.outcome_onSecond, done]
        exact .queued opened fits
  | drain =>
      cases shut : b.isSealed with
      | true =>
          rw [run, drain_onSecond_sealed db b shut]
          exact .refused
      | false =>
          rw [run, drain_onSecond db b shut]
          exact .drained shut
  | commit => exact .committed (commit_sends db b)
  | applyBatch => exact .applied (applyBatch_sends db b)

end
end Batch

/-! Watching an engine changes nothing that a caller sees. -/

section
open GraphClient.Action (Mirrors)
open Database (unwatched)

variable {σ : Type}

theorem Database.conform_mirrors (ops : List Mutation) : Mirrors (unwatched (σ := σ)) (conform ops) (conform ops) :=
  .get_bind fun _ => .forM (fun _ => .check _) ops

variable [Engine σ]

theorem Database.mutate_mirrors (ops : List Mutation) : Mirrors (unwatched (σ := σ)) (mutate ops) (mutate ops) :=
  requireOpen_mirrors.bind fun _ => (conform_mirrors ops).bind fun _ => send_mirrors (.mutate ⟨ops⟩)

theorem Database.applyBatch_mirrors : Mirrors (Prod.map (unwatched (σ := σ)) id) applyBatch applyBatch :=
  (Mirrors.onSecond _).bind fun ops => (mutate_mirrors ops).onFirst

theorem Database.commit_mirrors : Mirrors (Prod.map (unwatched (σ := σ)) id) commit commit :=
  (Mirrors.onSecond _).bind fun _ => requireOpen_mirrors.onFirst.bind fun _ => applyBatch_mirrors

theorem Batch.Call.run_mirrors (c : Call) : Mirrors (Prod.map (unwatched (σ := σ)) id) c.run c.run := by
  cases c with
  | queue q => exact .onSecond _
  | drain => exact .onSecond _
  | commit => exact Database.commit_mirrors
  | applyBatch => exact Database.applyBatch_mirrors

end
end GraphClient
