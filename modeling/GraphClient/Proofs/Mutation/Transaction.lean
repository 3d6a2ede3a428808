import GraphClient.Engine.Scripted
import GraphClient.Proofs.Mutation.Calls

/-!
Transactions, over every body that makes calls on the batch it is given. A transaction is all or nothing as long as its
body leaves the batch to it; a body that applies the batch itself may fail afterwards, and so may the transaction.
-/
namespace GraphClient

open GraphClient.Action (Mirrors)
open Database (unwatched)
open Engine (Observed Submission)

namespace Batch

/-- A body: calls on the batch, each chosen after the outcomes of those before it, and a result of its own. -/
inductive Body (α : Type)
  | finish (result : Except Failure α)
  | call (c : Call) (next : Except Failure c.Reply → Body α)

namespace Body

variable {σ α : Type} [Engine σ]

def run : Body α → Action (Database σ × Batch) α
  | finish result => Action.check result
  | call c next => do (next (← c.run.attempt)).run

def accepted : Body α → Database σ × Batch → List Mutation
  | finish _, _ => []
  | call c next, s =>
    let (result, s) := c.run.outcome s
    c.accepted result ++ (next result).accepted s

end Body

theorem Body.run_mirrors {σ α : Type} [Engine σ] (body : Body α) :
    Mirrors (Prod.map (unwatched (σ := σ)) id) body.run body.run := by
  induction body with
  | finish result => exact .check result
  | call c next ih => exact c.run_mirrors.attempt.bind ih

/-- What is known of a batch and its handle once some mutations are accepted: an open batch holds them and nothing was
submitted, a sealed one holds none, and a handle that was closed stays silent. -/
structure Holds {σ : Type} (closed : Bool) (accepted : List Mutation) (s : Database (Observed σ) × Batch) : Prop where
  handle : s.1.closed = closed
  silent : closed = true → s.1.engine.submissions = []
  waiting : s.2.isSealed = false → s.2.ops = accepted ∧ s.1.engine.submissions = []
  spent : s.2.isSealed = true → s.2.ops = []

variable {σ α : Type} {closed : Bool} {accepted : List Mutation} {s t : Database (Observed σ) × Batch}

theorem holds_new (db : Database σ) : Holds db.closed [] (db.observed, Batch.new db.schema) where
  handle := rfl
  silent _ := rfl
  waiting _ := ⟨rfl, rfl⟩
  spent := nofun

theorem Holds.sends {result : Except Failure Mutation.Summary} (h : Holds closed accepted s)
    (sends : Sends s.1 s.2 result t) : Holds closed accepted t := by
  cases sends with
  | refused => exact h
  | lost _ => exact ⟨h.handle, h.silent, nofun, fun _ => rfl⟩
  | submitted _ ready _ =>
      -- only an open handle submits, so nothing is asked of a closed one
      have opened : closed = false := h.handle.symm.trans ready
      exact ⟨h.handle, fun shut => absurd (opened.symm.trans shut) nofun, nofun, fun _ => rfl⟩

theorem Holds.change {c : Call} {result : Except Failure c.Reply} (h : Holds closed accepted s)
    (change : Change s.1 s.2 c result t) : Holds closed (accepted ++ c.accepted result) t := by
  cases change with
  | refused =>
      rw [Call.accepted_error, List.append_nil]
      exact h
  | queued opened _ =>
      obtain ⟨ops, unsent⟩ := h.waiting opened
      exact ⟨h.handle, h.silent, fun _ => ⟨by rw [ops]; rfl, unsent⟩, fun shut => absurd (opened.symm.trans shut) nofun⟩
  | drained _ =>
      rw [Call.accepted, List.append_nil]
      exact ⟨h.handle, h.silent, nofun, fun _ => rfl⟩
  | committed sends =>
      rw [Call.accepted, List.append_nil]
      exact h.sends sends
  | applied sends =>
      rw [Call.accepted, List.append_nil]
      exact h.sends sends

theorem Body.run_holds [Engine σ] (body : Body α) (h : Holds closed accepted s) :
    Holds closed (accepted ++ body.accepted s) (body.run.outcome s).2 := by
  -- what has been accepted grows from call to call, so the induction is over every such list
  induction body generalizing accepted s with
  | finish result =>
      rw [Body.accepted, List.append_nil]
      exact h
  | call c next ih =>
      have first := h.change (c.run_change s.1 s.2)
      have rest := ih (c.run.outcome s).1 first
      rwa [List.append_assoc] at rest

end Batch

/-- Either nothing was submitted or all that was accepted, and an error says which; only the error of the engine comes
after a submission. -/
def AllOrNothing {α : Type} (accepted : List Mutation) (made : List Submission) :
    Except Failure (α × Mutation.Summary) → Prop
  | .ok (_, summary) => made = [⟨accepted, .ok summary⟩] ∨ accepted = [] ∧ made = [] ∧ summary = .empty
  | .error f => made = [] ∨ ∃ s ∈ made, s.reply = .error f

namespace Database

variable {σ α : Type} [Engine σ]

section
variable {db : Database σ} {body : Action (Database σ × Batch) α} {s : Database σ × Batch}

theorem transaction_closed (shut : db.closed = true) : (transaction body).outcome db = (.error .closed, db) := by
  have second : batch.outcome db = (.error .closed, db) := Action.outcome_bind_error (requireOpen_closed shut) _
  exact Action.outcome_bind_error second _

theorem transaction_failed {f : Failure} (opened : db.closed = false)
    (filled : body.outcome (db, .new db.schema) = (.error f, s)) :
    (transaction body).outcome db = (.error f, s.1) := by
  rw [transaction, Action.outcome_bind_ok (batch_outcome opened), Action.outcome_within,
    Action.outcome_bind_error filled]

theorem transaction_filled {a : α} (opened : db.closed = false)
    (filled : body.outcome (db, .new db.schema) = (.ok a, s)) :
    (transaction body).outcome db =
      if s.2.ops.isEmpty then ((fun _ => (a, .empty)) <$> (Batch.drain.outcome s.2).1, s.1)
      else ((a, ·) <$> (commit.outcome s).1, (commit.outcome s).2.1) := by
  rw [transaction, Action.outcome_bind_ok (batch_outcome opened), Action.outcome_within,
    Action.outcome_bind_ok filled, Action.outcome_bind_ok (Action.outcome_get s)]
  split
  · rw [bind_pure_comp, Action.outcome_map, Action.outcome_discard, Action.outcome_onSecond]
    cases (Batch.drain.outcome s.2).1 <;> rfl
  · rw [bind_pure_comp, Action.outcome_map]

end

theorem transaction_mirrors {a : Action (Database (Observed σ) × Batch) α} {b : Action (Database σ × Batch) α}
    (body : Mirrors (Prod.map unwatched id) a b) : Mirrors unwatched (transaction a) (transaction b) := by
  have opening : Mirrors (unwatched (σ := σ)) batch batch := requireOpen_mirrors.bind fun _ => .get_bind fun _ => .pure _
  refine opening.bind fun fresh => .within (body.bind fun v => .get_bind fun s => ?_) (fun _ => rfl) fun _ _ => rfl
  rw [Prod.map_snd, id]
  split
  · exact (Mirrors.onSecond _).discard.bind fun _ => .pure _
  · exact commit_mirrors.bind fun _ => .pure _

theorem allOrNothing_error {accepted : List Mutation} {made : List Submission} {f : Failure} :
    AllOrNothing (α := α) accepted made (.error f) ↔
      made = [] ∨ ∃ g, (.error f : Except Failure (α × Mutation.Summary)) = .error g ∧ ∃ s ∈ made, s.reply = .error g := by
  simp [AllOrNothing]

theorem commit_allOrNothing {db : Database (Observed σ)} {b : Batch} (a : α) (silent : db.engine.submissions = []) :
    let done := commit.outcome (db, b)
    AllOrNothing b.ops done.2.1.engine.submissions ((a, ·) <$> done.1) := by
  have sends := Batch.commit_sends db b
  cases done : commit.outcome (db, b) with
  | mk result s =>
      rw [done] at sends
      cases sends with
      | refused => exact .inl silent
      | lost _ => exact .inl silent
      | submitted _ _ kept =>
          rw [silent, List.nil_append] at kept
          cases result with
          | error f => exact .inr ⟨_, by rw [kept]; exact List.mem_singleton_self _, rfl⟩
          | ok summary => exact .inl kept

theorem allOrNothing_iff_of_holds {db : Database (Observed σ)} {body : Action (Database (Observed σ) × Batch) α}
    {accepted : List Mutation} (fresh : db.engine.submissions = [])
    (holds : Batch.Holds db.closed accepted (body.outcome (db, .new db.schema)).2) :
    let done := (transaction body).outcome db
    AllOrNothing accepted done.2.engine.submissions done.1 ↔
      (body.outcome (db, .new db.schema)).2.1.engine.submissions = [] ∨
        ∃ f, done.1 = .error f ∧ ∃ s ∈ done.2.engine.submissions, s.reply = .error f := by
  intro done
  cases shut : db.closed with
  | true =>
      have refused : done = (.error .closed, db) := transaction_closed shut
      rw [refused]
      exact iff_of_true (.inl fresh) (.inl (holds.silent shut))
  | false =>
      cases filled : body.outcome (db, .new db.schema) with
      | mk result s =>
          rw [filled] at holds
          cases result with
          | error f =>
              have failed : done = (.error f, s.1) := transaction_failed shut filled
              rw [failed]
              exact allOrNothing_error
          | ok a =>
              have taken : done = _ := transaction_filled shut filled
              cases sealed : s.2.isSealed with
              | true =>
                  -- the body has sealed the batch, so nothing is left in it and taking it fails
                  rw [holds.spent sealed, List.isEmpty_nil, if_pos rfl, Batch.drain_outcome, if_pos sealed] at taken
                  rw [taken]
                  exact allOrNothing_error
              | false =>
                  obtain ⟨ops, silent⟩ := holds.waiting sealed
                  refine iff_of_true ?_ (.inl silent)
                  rw [taken, ← ops]
                  split
                  next none =>
                    rw [Batch.drain_outcome, if_neg (by simp [sealed])]
                    exact .inr ⟨List.isEmpty_iff.mp none, silent, rfl⟩
                  next => exact commit_allOrNothing a silent

/-- A transaction is all or nothing exactly if its body submits nothing itself, or the error it ends with is the answer
of the engine. -/
theorem transaction_allOrNothing_iff (db : Database σ) (body : Batch.Body α) :
    let start := (db.observed, Batch.new db.schema)
    let answer := ((transaction body.run).outcome db).1
    let made := ((transaction body.run).outcome db.observed).2.engine.submissions
    AllOrNothing (body.accepted start) made answer ↔
      (body.run.outcome start).2.1.engine.submissions = [] ∨
        ∃ f, answer = .error f ∧ ∃ s ∈ made, s.reply = .error f := by
  intro start answer made
  have same : answer = ((transaction body.run).outcome db.observed).1 :=
    congrArg Prod.fst (transaction_mirrors body.run_mirrors db.observed)
  have holds : Batch.Holds db.closed (body.accepted start) (body.run.outcome start).2 :=
    body.run_holds (Batch.holds_new db)
  rw [same]
  exact allOrNothing_iff_of_holds rfl holds

def committing : Batch.Body Nat :=
  .call (.queue (.deleteEdge 4)) fun _ => .call .commit fun _ => .finish (.error (.ofEngineText "abort"))

theorem committing_transaction_fails : ¬ ∀ (db : Database Engine.Scripted) (body : Batch.Body Nat),
    let start := (db.observed, Batch.new db.schema)
    let answer := ((transaction body.run).outcome db).1
    let made := ((transaction body.run).outcome db.observed).2.engine.submissions
    AllOrNothing (body.accepted start) made answer := by
  intro all
  let db : Database Engine.Scripted := .new .empty
  have failed : ((transaction committing.run).outcome db).1 = .error (.ofEngineText "abort") := by rfl
  have sent : ((transaction committing.run).outcome db.observed).2.engine.submissions =
      [⟨[.deleteEdge 4], .ok { Mutation.Summary.empty with deletedEdges := 1 }⟩] := by rfl
  have broken := all db committing
  dsimp only at broken
  rw [failed, sent] at broken
  rcases broken with unsent | ⟨s, member, answered⟩
  · cases unsent
  · rw [List.mem_singleton.mp member] at answered
    cases answered

end Database
end GraphClient
