import GraphClient.Proofs.Mutation.Submission

/-!
A batch over its whole life: any calls on it, and between them anything that leaves its handle with the schema it has.
What the batch has accepted is handed over at most once, and then all of it and in order.
-/
namespace GraphClient

open Engine (Exchange Observed)

namespace Batch

/-- What may happen to a handle between two calls on a batch of it. The batch borrows the handle, so the schema stays. -/
structure Interlude (σ : Type) where
  run : Database σ → Database σ
  sameSchema : ∀ db, (run db).schema = db.schema

structure Turn (σ : Type) where
  call : Call
  found : Database σ × Batch
  result : Except Failure call.Reply
  asked : List Exchange
  left : Database σ × Batch

namespace Turn

variable {σ : Type}

def accepted (t : Turn σ) : List Mutation := t.call.accepted t.result

def seals (t : Turn σ) : Bool := !t.found.2.isSealed && t.left.2.isSealed

structure Waits (t : Turn σ) : Prop where
  opened : t.left.2.isSealed = false
  silent : t.asked = []
  leaves : (∃ q, t.call = .queue q) ∨ t.call = .commit ∧ t.found.1.closed = true

structure Fails (t : Turn σ) : Prop where
  shut : t.found.2.isSealed = true
  failed : ∃ f, t.result = .error f
  silent : t.asked = []
  empty : t.left.2.ops = []

end Turn

/-- What becomes of the mutations in a batch as a call seals it, on a handle that is closed or not. They are lost only
where they are applied to a closed one. -/
inductive Handover (ops : List Mutation) : (closed : Bool) → (c : Call) → Except Failure c.Reply → List Exchange → Prop
  | drained {closed : Bool} : Handover ops closed .drain (.ok ops) []
  | committed {reply : Except Failure Mutation.Summary} : Handover ops false .commit reply [⟨.mutate ⟨ops⟩, reply⟩]
  | applied {reply : Except Failure Mutation.Summary} : Handover ops false .applyBatch reply [⟨.mutate ⟨ops⟩, reply⟩]
  | lost : Handover ops true .applyBatch (.error .closed) []

section
variable {ops : List Mutation} {closed : Bool} {c : Call} {result : Except Failure c.Reply} {asked : List Exchange}

theorem Handover.call (h : Handover ops closed c result asked) :
    c = .drain ∨ c = .applyBatch ∨ c = .commit ∧ closed = false := by
  cases h with
  | drained => exact .inl rfl
  | committed => exact .inr (.inr ⟨rfl, rfl⟩)
  | applied => exact .inr (.inl rfl)
  | lost => exact .inr (.inl rfl)

theorem Handover.asks_once (h : Handover ops closed c result asked) : asked.length ≤ 1 := by
  cases h <;> simp

theorem Handover.commit_asks (h : Handover ops closed c result asked) (commit : c = .commit) :
    ∃ reply, asked = [⟨.mutate ⟨ops⟩, reply⟩] := by
  cases h with
  | committed => exact ⟨_, rfl⟩
  | _ => cases commit

end

structure Turn.Takes {σ : Type} (ops : List Mutation) (t : Turn σ) : Prop where
  opened : t.found.2.isSealed = false
  shut : t.left.2.isSealed = true
  empty : t.left.2.ops = []
  handover : Handover ops t.found.1.closed t.call t.result t.asked

/-- The calls on a batch that has accepted some mutations: it waits until one of them takes it, and the rest fail. -/
inductive Course {σ : Type} : List Mutation → List (Turn σ) → Prop
  | done {accepted : List Mutation} : Course accepted []
  | waits {accepted : List Mutation} {t : Turn σ} {later : List (Turn σ)} : t.Waits →
      Course (accepted ++ t.accepted) later → Course accepted (t :: later)
  | takes {accepted : List Mutation} {t : Turn σ} {later : List (Turn σ)} : t.Takes accepted → (∀ u ∈ later, u.Fails) →
      Course accepted (t :: later)

/-- A batch that still waits holds all that it has accepted, and its schema, which is that of the handle, admits it. -/
structure Waiting {σ : Type} (accepted : List Mutation) (s : Database σ × Batch) : Prop where
  opened : s.2.isSealed = false
  held : s.2.ops = accepted
  sameSchema : s.1.schema = s.2.schema
  conforming : ∀ m ∈ accepted, m.conforms? s.2.schema = .ok ()

theorem Waiting.meanwhile {σ : Type} {accepted : List Mutation} {db : Database σ} {b : Batch}
    (h : Waiting accepted (db, b)) (meanwhile : Interlude σ) : Waiting accepted (meanwhile.run db, b) :=
  ⟨h.opened, h.held, (meanwhile.sameSchema db).trans h.sameSchema, h.conforming⟩

section
variable {σ : Type} [Engine σ] {accepted : List Mutation}

def turn (c : Call) (s : Database σ × Batch) : Turn σ :=
  -- the call is made on the engine as it is; that it is watched only tells what it is asked
  let watched := c.run.outcome (s.1.observed, s.2)
  let done := c.run.outcome s
  ⟨c, s, done.1, watched.2.1.engine.exchanges, done.2⟩

def turns : Database σ × Batch → List (Interlude σ × Call) → List (Turn σ)
  | _, [] => []
  | s, (meanwhile, c) :: calls =>
    let t := turn c (meanwhile.run s.1, s.2)
    t :: turns t.left calls

theorem turn_eq {c : Call} {s : Database σ × Batch} {result : Except Failure c.Reply} {db : Database (Observed σ)}
    {b : Batch} (outcome : c.run.outcome (s.1.observed, s.2) = (result, (db, b))) :
    turn c s = ⟨c, s, result, db.engine.exchanges, (db.unwatched, b)⟩ := by
  have same : c.run.outcome s = (result, (db.unwatched, b)) := by
    have mirrored := c.run_mirrors (s.1.observed, s.2)
    rw [outcome] at mirrored
    exact mirrored
  rw [turn, outcome, same]

theorem turn_refused {c : Call} {s : Database σ × Batch} {f : Failure}
    (outcome : c.run.outcome (s.1.observed, s.2) = (.error f, (s.1.observed, s.2))) :
    turn c s = ⟨c, s, .error f, [], s⟩ :=
  turn_eq outcome

theorem Waiting.asks {s : Database σ × Batch} (h : Waiting accepted s) (handle : s.1.closed = false) :
    ∃ (reply : Except Failure Mutation.Summary) (engine : Observed σ),
      Database.applyBatch.outcome (s.1.observed, s.2) = (reply, ({ s.1.observed with engine }, s.2.spent)) ∧
        engine.exchanges = [⟨.mutate ⟨accepted⟩, reply⟩] := by
  have handle : s.1.observed.closed = false := handle
  -- what passed when it was queued passes again: the handle has the schema of the batch
  have conforming : Mutation.conformAll s.1.observed.schema accepted = .ok ⟨⟩ := by
    refine Mutation.conformAll_eq_ok_iff.mpr ?_
    rw [show s.1.observed.schema = s.2.schema from h.sameSchema]
    exact h.conforming
  have mutated := Database.mutate_checked handle accepted
  rw [conforming] at mutated
  have outcome := Database.applyBatch_outcome s.1.observed s.2
  rw [if_neg (by simp [h.opened]), h.held, mutated, Database.send_outcome handle] at outcome
  exact ⟨_, _, outcome, (Observed.answer_outcome _ _).2.2⟩

theorem Waiting.applied {s : Database σ × Batch} (h : Waiting accepted s) : (turn .applyBatch s).Takes accepted := by
  cases handle : s.1.closed with
  | true =>
      have shut : s.1.observed.closed = true := handle
      have outcome := Database.applyBatch_outcome s.1.observed s.2
      rw [if_neg (by simp [h.opened]), Database.mutate_closed shut] at outcome
      rw [turn_eq (c := .applyBatch) outcome]
      exact ⟨h.opened, rfl, rfl, by rw [handle]; exact .lost⟩
  | false =>
      obtain ⟨reply, engine, outcome, asked⟩ := h.asks handle
      rw [turn_eq (c := .applyBatch) outcome]
      exact ⟨h.opened, rfl, rfl, by rw [handle, asked]; exact .applied⟩

theorem Waiting.committed {s : Database σ × Batch} (h : Waiting accepted s) :
    (turn .commit s).Waits ∧ Waiting (accepted ++ (turn .commit s).accepted) (turn .commit s).left ∨
      (turn .commit s).Takes accepted := by
  have outcome := Database.commit_outcome s.1.observed s.2
  cases handle : s.1.closed with
  | true =>
      rw [if_pos ⟨handle, h.opened⟩] at outcome
      rw [turn_refused (c := .commit) outcome, Turn.accepted, Call.accepted_error, List.append_nil]
      exact .inl ⟨⟨h.opened, rfl, .inr ⟨rfl, handle⟩⟩, h⟩
  | false =>
      obtain ⟨reply, engine, applied, asked⟩ := h.asks handle
      rw [if_neg (by simp [Database.observed, handle]), applied] at outcome
      rw [turn_eq (c := .commit) outcome]
      exact .inr ⟨h.opened, rfl, rfl, by rw [handle, asked]; exact .committed⟩

theorem Waiting.queued {s : Database σ × Batch} (h : Waiting accepted s) (q : Queueing) :
    (turn (.queue q) s).Waits ∧ Waiting (accepted ++ (turn (.queue q) s).accepted) (turn (.queue q) s).left := by
  have outcome : (Call.queue q).run.outcome (s.1.observed, s.2) =
      ((q.run.outcome s.2).1, (s.1.observed, (q.run.outcome s.2).2)) := rfl
  rcases q.outcome s.2 with ⟨f, refused⟩ | ⟨opened, fits, done⟩
  · rw [refused] at outcome
    rw [turn_refused outcome, Turn.accepted, Call.accepted_error, List.append_nil]
    exact ⟨⟨h.opened, rfl, .inl ⟨q, rfl⟩⟩, h⟩
  · rw [done] at outcome
    rw [turn_eq (c := .queue q) outcome]
    refine ⟨⟨h.opened, rfl, .inl ⟨q, rfl⟩⟩, h.opened, congrArg (· ++ [q.queued]) h.held, h.sameSchema, ?_⟩
    exact List.forall_mem_append.mpr ⟨h.conforming, List.forall_mem_singleton.mpr fits⟩

theorem Waiting.drained {s : Database σ × Batch} (h : Waiting accepted s) : (turn .drain s).Takes accepted := by
  rw [turn_eq (c := .drain) (drain_onSecond s.1.observed s.2 h.opened), h.held]
  exact ⟨h.opened, rfl, rfl, .drained⟩

theorem Waiting.turn {s : Database σ × Batch} (h : Waiting accepted s) (c : Call) :
    (turn c s).Waits ∧ Waiting (accepted ++ (turn c s).accepted) (turn c s).left ∨ (turn c s).Takes accepted := by
  cases c with
  | queue q => exact .inl (h.queued q)
  | drain => exact .inr h.drained
  | commit => exact h.committed
  | applyBatch => exact .inr h.applied

theorem turn_sealed {s : Database σ × Batch} (shut : s.2.isSealed = true) (c : Call) :
    ∃ f, turn c s = ⟨c, s, .error f, [], s⟩ := by
  cases c with
  | queue q =>
      rcases q.outcome s.2 with ⟨f, refused⟩ | ⟨opened, _, _⟩
      · refine ⟨f, turn_refused ?_⟩
        rw [Call.run, Action.outcome_onSecond, refused]
      · rw [shut] at opened
        cases opened
  | drain => exact ⟨_, turn_refused (c := .drain) (drain_onSecond_sealed s.1.observed s.2 shut)⟩
  | commit =>
      have outcome := Database.commit_outcome s.1.observed s.2
      rw [if_neg (by simp [shut]), Database.applyBatch_outcome, if_pos shut] at outcome
      exact ⟨_, turn_refused (c := .commit) outcome⟩
  | applyBatch =>
      have outcome := Database.applyBatch_outcome s.1.observed s.2
      rw [if_pos shut] at outcome
      exact ⟨_, turn_refused (c := .applyBatch) outcome⟩

theorem turns_fail {db : Database σ} {b : Batch} (shut : b.isSealed = true) (empty : b.ops = [])
    (calls : List (Interlude σ × Call)) : ∀ t ∈ turns (db, b) calls, t.Fails := by
  induction calls generalizing db with
  | nil => exact List.forall_mem_nil _
  | cons call calls ih =>
      obtain ⟨meanwhile, c⟩ := call
      obtain ⟨f, late⟩ := turn_sealed (s := (meanwhile.run db, b)) shut c
      rw [turns, late]
      exact List.forall_mem_cons.mpr ⟨⟨shut, ⟨f, rfl⟩, rfl, empty⟩, ih⟩

theorem turns_course {s : Database σ × Batch} (h : Waiting accepted s) (calls : List (Interlude σ × Call)) :
    Course accepted (turns s calls) := by
  -- the batch waits with more and more in it, up to the call that takes it
  induction calls generalizing accepted s with
  | nil => exact .done
  | cons call calls ih =>
      obtain ⟨meanwhile, c⟩ := call
      rcases (h.meanwhile meanwhile).turn c with ⟨waits, kept⟩ | takes
      · exact .waits waits (ih kept)
      · exact .takes takes (turns_fail takes.shut takes.empty calls)

end

section
variable {σ : Type} {accepted : List Mutation} {history earlier later : List (Turn σ)} {t : Turn σ}

theorem Turn.Waits.not_seals (h : t.Waits) : t.seals = false := by
  simp [Turn.seals, h.opened]

theorem Turn.Fails.not_seals (h : t.Fails) : t.seals = false := by
  simp [Turn.seals, h.shut]

theorem Turn.Takes.seals {ops : List Mutation} (h : t.Takes ops) : t.seals = true := by
  simp [Turn.seals, h.opened, h.shut]

theorem Course.kinds (h : Course accepted history) (member : t ∈ history) : t.Waits ∨ (∃ ops, t.Takes ops) ∨ t.Fails := by
  induction h with
  | done => cases member
  | waits waits _ ih =>
      rcases List.mem_cons.mp member with rfl | member
      · exact .inl waits
      · exact ih member
  | takes takes fail =>
      rcases List.mem_cons.mp member with rfl | member
      · exact .inr (.inl ⟨_, takes⟩)
      · exact .inr (.inr (fail t member))

theorem Course.taken (h : Course accepted (earlier ++ t :: later)) (seals : t.seals = true) :
    t.Takes (accepted ++ earlier.flatMap Turn.accepted) ∧ ∀ u ∈ later, u.Fails := by
  induction earlier generalizing accepted with
  | nil =>
      rw [List.flatMap_nil, List.append_nil]
      cases h with
      | waits waits _ =>
          rw [waits.not_seals] at seals
          cases seals
      | takes takes fail => exact ⟨takes, fail⟩
  | cons u earlier ih =>
      cases h with
      | waits _ rest =>
          rw [List.flatMap_cons, ← List.append_assoc]
          exact ih rest
      | takes _ fail =>
          rw [(fail t (List.mem_append_right _ List.mem_cons_self)).not_seals] at seals
          cases seals

theorem Course.seals_once (h : Course accepted history) : history.countP Turn.seals ≤ 1 := by
  induction h with
  | done => exact Nat.zero_le 1
  | waits waits _ ih => rwa [List.countP_cons_of_neg (by simp [waits.not_seals])]
  | @takes _ t later takes fail =>
      have none : later.countP Turn.seals = 0 := by
        apply List.countP_eq_zero.mpr
        intro u member
        simp [(fail u member).not_seals]
      have one : (t :: later).countP Turn.seals = 1 := by
        rw [List.countP_cons_of_pos takes.seals, none]
      exact Nat.le_of_eq one

theorem Course.asks_once (h : Course accepted history) : (history.flatMap Turn.asked).length ≤ 1 := by
  induction h with
  | done => exact Nat.zero_le 1
  | waits waits _ ih => rwa [List.flatMap_cons, waits.silent, List.nil_append]
  | takes takes fail =>
      rw [List.flatMap_cons, List.flatMap_eq_nil_iff.mpr fun u member => (fail u member).silent, List.append_nil]
      exact takes.handover.asks_once

structure DeliversOnce (history : List (Turn σ)) : Prop where
  sealsOnce : history.countP Turn.seals ≤ 1
  /-- Draining and applying seal an open batch, and so does committing it to an open handle. -/
  sealing : ∀ t ∈ history, t.seals = true ↔
    t.found.2.isSealed = false ∧ (t.call = .drain ∨ t.call = .applyBatch ∨ t.call = .commit ∧ t.found.1.closed = false)
  whole : ∀ earlier t later, history = earlier ++ t :: later → t.seals = true →
    Handover (earlier.flatMap Turn.accepted) t.found.1.closed t.call t.result t.asked
  asksOnce : (history.flatMap Turn.asked).length ≤ 1
  silent : ∀ t ∈ history, t.seals = false → t.asked = []
  committed : ∀ earlier t later, history = earlier ++ t :: later → t.call = .commit → t.found.2.isSealed = false →
    t.found.1.closed = false → ∃ reply, t.asked = [⟨.mutate ⟨earlier.flatMap Turn.accepted⟩, reply⟩]
  afterwards : ∀ earlier t later, history = earlier ++ t :: later → t.seals = true →
    t.left.2.ops = [] ∧ ∀ u ∈ later, u.Fails

theorem Course.deliversOnce (h : Course [] history) : DeliversOnce history := by
  have sealing : ∀ t ∈ history, t.seals = true ↔ t.found.2.isSealed = false ∧
      (t.call = .drain ∨ t.call = .applyBatch ∨ t.call = .commit ∧ t.found.1.closed = false) := by
    intro t member
    rcases h.kinds member with waits | ⟨ops, takes⟩ | fails
    · refine iff_of_false (by simp [waits.not_seals]) fun ⟨_, call⟩ => ?_
      rcases waits.leaves with ⟨q, queue⟩ | ⟨commit, closed⟩
      · simp [queue] at call
      · simp [commit, closed] at call
    · exact iff_of_true takes.seals ⟨takes.opened, takes.handover.call⟩
    · exact iff_of_false (by simp [fails.not_seals]) (by simp [fails.shut])
  have taken : ∀ earlier t later, history = earlier ++ t :: later → t.seals = true →
      t.Takes (earlier.flatMap Turn.accepted) ∧ ∀ u ∈ later, u.Fails := by
    rintro earlier t later rfl seals
    exact h.taken seals
  exact {
    sealsOnce := h.seals_once
    sealing := sealing
    whole := fun earlier t later split seals => (taken earlier t later split seals).1.handover
    asksOnce := h.asks_once
    silent := by
      intro t member unsealed
      rcases h.kinds member with waits | ⟨ops, takes⟩ | fails
      · exact waits.silent
      · rw [takes.seals] at unsealed
        cases unsealed
      · exact fails.silent
    committed := by
      rintro earlier t later rfl commit opened handle
      have seals := (sealing t (by simp)).mpr ⟨opened, .inr (.inr ⟨commit, handle⟩)⟩
      exact (taken earlier t later rfl seals).1.handover.commit_asks commit
    afterwards := fun earlier t later split seals =>
      ⟨(taken earlier t later split seals).1.empty, (taken earlier t later split seals).2⟩ }

end

section
variable {σ : Type} [Engine σ]

/-- Whatever is called on a batch and whatever else happens to its handle, it delivers at most once. -/
theorem turns_deliversOnce (db : Database σ) (calls : List (Interlude σ × Call)) :
    DeliversOnce (turns (db, .new db.schema) calls) :=
  have fresh : Waiting [] (db, new db.schema) := ⟨rfl, rfl, rfl, List.forall_mem_nil _⟩
  (turns_course fresh calls).deliversOnce

end
end Batch
end GraphClient
