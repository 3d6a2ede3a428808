import GraphClient.Proofs.Mutation.Calls
import GraphClient.Proofs.Schema.Admission
import GraphClient.Proofs.Transitions

/-!
Submitting mutations, check by check: whether the batch is open, whether the handle is, whether the schema admits what is
in it. A call that fails one of these checks should leave the batch as it is; applying a batch seals it first.
-/
namespace GraphClient

theorem Mutation.conformAll_eq_ok_iff {schema : Option Schema} {ops : List Mutation} :
    conformAll schema ops = .ok ⟨⟩ ↔ ∀ m ∈ ops, m.conforms? schema = .ok () := by
  unfold conformAll
  induction ops with
  | nil => simp [pure, Except.pure]
  | cons m ops ih =>
      rw [List.forM_eq_forM, List.forM_cons, List.forall_mem_cons, ← ih]
      cases m.conforms? schema with
      | error v => exact iff_of_false nofun nofun
      | ok _ => exact ⟨fun rest => ⟨rfl, rest⟩, fun both => both.2⟩

theorem Mutation.conformAll_eq_error {schema : Option Schema} {before after : List Mutation} {m : Mutation}
    {v : Violation} (fine : ∀ m ∈ before, m.conforms? schema = .ok ()) (fails : m.conforms? schema = .error v) :
    conformAll schema (before ++ m :: after) = .error (.schema v) := by
  have passed : conformAll schema before = .ok ⟨⟩ := conformAll_eq_ok_iff.mpr fine
  rw [conformAll, List.forM_eq_forM] at passed
  rw [conformAll, List.forM_eq_forM, List.forM_append, passed, ok_bind, List.forM_cons, fails]
  rfl

theorem Mutation.conformAll_of_admitted {schema : Option Schema} {ops : List Mutation}
    (admitted : ∀ s ∈ schema, ∀ m ∈ ops, m.Admitted s) : conformAll schema ops = .ok ⟨⟩ :=
  conformAll_eq_ok_iff.mpr fun m member => conforms?_eq_ok_iff.mpr fun s active => admitted s active m member

theorem Engine.Call.admitted_mutate {schema : Option Schema} {ops : List Mutation}
    (conforming : ∀ m ∈ ops, m.conforms? schema = .ok ()) : (mutate ⟨ops⟩).Admitted schema :=
  fun s active m member => Mutation.conforms?_eq_ok_iff.mp (conforming m member) s active

namespace Database

open Engine (Observed)

variable {σ α β : Type}

/-- If a call on a handle and something beside it fails without a word to the engine, the latter stays as it was. -/
def LosesNothing (a : Action (Database (Observed σ) × β) α) (db : Database (Observed σ)) (x : β) : Prop :=
  ∀ f, (a.outcome (db, x)).1 = .error f → (a.outcome (db, x)).2.1.engine.exchanges = db.engine.exchanges →
    (a.outcome (db, x)).2.2 = x

theorem losesNothing_of_same {a : Action (Database (Observed σ) × β) α} {db : Database (Observed σ)} {x : β}
    (same : (a.outcome (db, x)).2.2 = x) : LosesNothing a db x := fun _ _ _ => same

variable [Engine σ]

theorem exchanges_ne_of_answered (call : Engine.Call) (db : Database (Observed σ)) :
    ((Engine.answer call).outcome db.engine).2.exchanges ≠ db.engine.exchanges := by
  rw [(Engine.Observed.answer_outcome call db.engine).2.2]
  simp

theorem losesNothing_of_asked {a : Action (Database (Observed σ) × β) α} {db : Database (Observed σ)} {x : β}
    (call : Engine.Call)
    (asked : (a.outcome (db, x)).2.1.engine = ((Engine.answer call).outcome db.engine).2) : LosesNothing a db x := by
  intro f _ silent
  rw [asked] at silent
  exact absurd silent (exchanges_ne_of_answered call db)

inductive Mutates (ops : List Mutation) (db : Database σ) : Except Failure Mutation.Summary × Database σ → Prop
  | closed : db.closed = true → Mutates ops db (.error .closed, db)
  | refused {f : Failure} : db.closed = false → (¬ ∀ m ∈ ops, m.conforms? db.schema = .ok ()) →
      Mutates ops db (.error f, db)
  | sent : db.closed = false → (∀ m ∈ ops, m.conforms? db.schema = .ok ()) →
      Mutates ops db (((Engine.answer (.mutate ⟨ops⟩)).outcome db.engine).1,
        { db with engine := ((Engine.answer (.mutate ⟨ops⟩)).outcome db.engine).2 })

theorem mutate_closed {db : Database σ} (shut : db.closed = true) (ops : List Mutation) :
    (mutate ops).outcome db = (.error .closed, db) :=
  Action.outcome_bind_error (requireOpen_closed shut) _

theorem mutate_checked {db : Database σ} (opened : db.closed = false) (ops : List Mutation) :
    (mutate ops).outcome db =
      match Mutation.conformAll db.schema ops with
      | .error f => (.error f, db)
      | .ok _ => (send (.mutate ⟨ops⟩)).outcome db := by
  have second := conform_checks ops db
  rw [mutate, Action.outcome_bind_ok (requireOpen_opened opened)]
  cases checked : Mutation.conformAll db.schema ops with
  | error f =>
      rw [checked] at second
      exact Action.outcome_bind_error second _
  | ok _ =>
      rw [checked] at second
      exact Action.outcome_bind_ok second _

theorem mutate_mutates (ops : List Mutation) (db : Database σ) : Mutates ops db ((mutate ops).outcome db) := by
  cases shut : db.closed with
  | true =>
      rw [mutate_closed shut]
      exact .closed shut
  | false =>
      rw [mutate_checked shut]
      cases checked : Mutation.conformAll db.schema ops with
      | error f =>
          refine .refused shut fun conforming => ?_
          rw [Mutation.conformAll_eq_ok_iff.mpr conforming] at checked
          cases checked
      | ok _ =>
          rw [send_outcome shut]
          exact .sent shut (Mutation.conformAll_eq_ok_iff.mp checked)

theorem applyBatch_outcome (db : Database σ) (b : Batch) :
    applyBatch.outcome (db, b) =
      if b.isSealed then (.error (.argument .committed), (db, b))
      else (((mutate b.ops).outcome db).1, (((mutate b.ops).outcome db).2, b.spent)) := by
  cases shut : b.isSealed with
  | true => exact Action.outcome_bind_error (Batch.drain_onSecond_sealed db b shut) _
  | false => exact Action.outcome_bind_ok (Batch.drain_onSecond db b shut) _

theorem commit_outcome (db : Database σ) (b : Batch) :
    commit.outcome (db, b) =
      if db.closed = true ∧ b.isSealed = false then (.error .closed, (db, b)) else applyBatch.outcome (db, b) := by
  cases shut : b.isSealed with
  | true =>
      rw [if_neg (by simp), applyBatch_outcome, if_pos shut]
      exact Action.outcome_bind_error (Batch.requireOpen_onSecond_sealed db b shut) _
  | false =>
      rw [commit, Action.outcome_bind_ok (Batch.requireOpen_onSecond db b shut)]
      cases closed : db.closed with
      | true =>
          rw [if_pos ⟨rfl, rfl⟩]
          exact Action.outcome_bind_error (requireOpen_onFirst_closed b closed) _
      | false =>
          rw [if_neg (by simp)]
          exact Action.outcome_bind_ok (requireOpen_onFirst_opened b closed) _

section
variable {db : Database σ} {fill : Action Batch Unit} {b : Batch}

theorem single_refused {f : Failure} (opened : db.closed = false)
    (refused : fill.outcome (.new db.schema) = (.error f, b)) : (single fill).outcome db = (.error f, db) := by
  have first : fill.onSecond.outcome (db, .new db.schema) = (.error f, (db, b)) := by
    rw [Action.outcome_onSecond, refused]
  rw [single, Action.outcome_bind_ok (batch_outcome opened)]
  dsimp only
  rw [Action.outcome_within, Action.outcome_bind_error first]

theorem single_filled (opened : db.closed = false) (filled : fill.outcome (.new db.schema) = (.ok (), b)) :
    (single fill).outcome db = ((commit.outcome (db, b)).1, (commit.outcome (db, b)).2.1) := by
  have first : fill.onSecond.outcome (db, .new db.schema) = (.ok (), (db, b)) := by
    rw [Action.outcome_onSecond, filled]
  rw [single, Action.outcome_bind_ok (batch_outcome opened)]
  dsimp only
  rw [Action.outcome_within, Action.outcome_bind_ok first]

end

theorem commit_sent {db : Database σ} {b : Batch} (opened : db.closed = false) (unsealed : b.isSealed = false)
    (conforming : ∀ m ∈ b.ops, m.conforms? db.schema = .ok ()) :
    let answered := (Engine.answer (.mutate ⟨b.ops⟩)).outcome db.engine
    commit.outcome (db, b) = (answered.1, ({ db with engine := answered.2 }, b.spent)) := by
  rw [commit_outcome, if_neg (by simp [opened]), applyBatch_outcome, if_neg (by simp [unsealed]), mutate_checked opened,
    Mutation.conformAll_eq_ok_iff.mpr conforming]
  dsimp only
  rw [send_outcome opened]

theorem applyBatch_takes (db : Database σ) (b : Batch) :
    (applyBatch.outcome (db, b)).2.2 = b ∨ (applyBatch.outcome (db, b)).2.2 = b.spent := by
  rw [applyBatch_outcome]
  split
  · exact .inl rfl
  · exact .inr rfl

theorem commit_takes (db : Database σ) (b : Batch) :
    (commit.outcome (db, b)).2.2 = b ∨ (commit.outcome (db, b)).2.2 = b.spent := by
  rw [commit_outcome]
  split
  · exact .inl rfl
  · exact applyBatch_takes db b

section
variable {db : Database (Observed σ)} {b : Batch}

/-- A sealed batch stays sealed, and one that reaches the engine is gone for good; any other is lost. -/
theorem applyBatch_losesNothing_iff :
    LosesNothing applyBatch db b ↔
      b.isSealed = true ∨ db.closed = false ∧ ∀ m ∈ b.ops, m.conforms? db.schema = .ok () := by
  have applied := applyBatch_outcome db b
  cases shut : b.isSealed with
  | true =>
      rw [if_pos shut] at applied
      exact iff_of_true (losesNothing_of_same (by rw [applied])) (.inl rfl)
  | false =>
      rw [if_neg (by simp [shut])] at applied
      -- the batch is spent in any case, so all depends on whether the engine has heard of it
      have spent : b.spent ≠ b := fun same => by simpa [Batch.spent, shut] using congrArg Batch.isSealed same
      have mutates := mutate_mutates b.ops db
      generalize (mutate b.ops).outcome db = done at mutates applied
      cases mutates with
      | closed closed =>
          refine iff_of_false (fun keeps => spent ?_) (by simp [closed])
          have kept := keeps .closed (by rw [applied]) (by rw [applied])
          rwa [applied] at kept
      | @refused f _ stray =>
          refine iff_of_false (fun keeps => spent ?_) (by simp [stray])
          have kept := keeps f (by rw [applied]) (by rw [applied])
          rwa [applied] at kept
      | sent opened conforming =>
          exact iff_of_true (losesNothing_of_asked _ (by rw [applied])) (.inr ⟨opened, conforming⟩)

theorem commit_losesNothing (conforming : ∀ m ∈ b.ops, m.conforms? db.schema = .ok ()) : LosesNothing commit db b := by
  have committed := commit_outcome db b
  by_cases early : db.closed = true ∧ b.isSealed = false
  · rw [if_pos early] at committed
    exact losesNothing_of_same (by rw [committed])
  · rw [if_neg early] at committed
    have applied : LosesNothing applyBatch db b := by
      refine applyBatch_losesNothing_iff.mpr ?_
      cases shut : b.isSealed with
      | true => exact .inl rfl
      | false => exact .inr ⟨by simpa [shut] using early, conforming⟩
    unfold LosesNothing
    rwa [committed]

end
end Database
end GraphClient
