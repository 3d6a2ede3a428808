import GraphClient.Proofs.Session.Runs

/-!
Closing a session. Its engine is told once and hears nothing after that: every call that would reach it is refused, as a
call on a closed handle unless the call is refused for its own sake.
-/
namespace GraphClient.Session

open Engine (Observed Exchange)
open Relation (ReflTransGen)

/-- The engine is told to close when the handle is closed, and at no other time; it is the last thing it hears. -/
inductive ClosesLast : Bool → List Exchange → Prop
  | opened {log : List Exchange} : (∀ x ∈ log, x.call ≠ .close) → ClosesLast false log
  | closed {log : List Exchange} (reply : Except Failure Unit) : (∀ x ∈ log, x.call ≠ .close) →
      ClosesLast true (log ++ [⟨.close, reply⟩])

section
variable {σ : Type} [Engine σ] {s t : Session (Observed σ)}

theorem Move.closesLast (h : Move s t) (before : ClosesLast s.closed s.log) : ClosesLast t.closed t.log := by
  cases h with
  | ask asks =>
      obtain ⟨call, opened, other, _⟩ := asks
      rw [opened] at before
      cases before with
      | opened quiet =>
          change ClosesLast s.closed (s.log ++ [⟨call, _⟩])
          rw [opened]
          exact .opened (List.forall_mem_append.mpr ⟨quiet, List.forall_mem_singleton.mpr other⟩)
  | close opened =>
      rw [opened] at before
      cases before with
      | opened quiet => exact .closed _ quiet
  | pull c => exact before
  | letGo c => exact before
  | restock items _ => exact before

theorem Move.silent (h : Move s t) (shut : s.closed = true) : t.closed = true ∧ t.log = s.log := by
  cases h with
  | ask asks =>
      obtain ⟨call, opened, _, _⟩ := asks
      rw [opened] at shut
      cases shut
  | close opened =>
      rw [opened] at shut
      cases shut
  | pull c => exact ⟨shut, rfl⟩
  | letGo c => exact ⟨shut, rfl⟩
  | restock items _ => exact ⟨shut, rfl⟩

theorem moves_closesLast (h : ReflTransGen Move s t) (before : ClosesLast s.closed s.log) :
    ClosesLast t.closed t.log :=
  kept_by_steps h (P := fun u => ClosesLast u.closed u.log) (fun _ _ move => move.closesLast) before

theorem moves_silent (h : ReflTransGen Move s t) (shut : s.closed = true) : t.closed = true ∧ t.log = s.log := by
  refine kept_by_steps h (P := fun u => u.closed = true ∧ u.log = s.log) ?_ ⟨shut, rfl⟩
  rintro u v move ⟨still, same⟩
  obtain ⟨closed, quiet⟩ := move.silent still
  exact ⟨closed, quiet.trans same⟩

theorem step_closesLast (sound : s.Sound) (p : Phase) (before : ClosesLast s.closed s.log) :
    ClosesLast (s.step p).closed (s.step p).log := by
  cases p with
  | call c => exact moves_closesLast (c.run_leads sound).moves before
  | withSchema schema =>
      rw [withSchema_log, (withSchema_step s schema).2.2]
      exact before

theorem step_silent (sound : s.Sound) (p : Phase) (shut : s.closed = true) :
    (s.step p).closed = true ∧ (s.step p).log = s.log := by
  cases p with
  | call c => exact moves_silent (c.run_leads sound).moves shut
  | withSchema schema => exact ⟨(withSchema_step s schema).2.2.trans shut, withSchema_log s schema⟩

theorem after_closesLast (sound : s.Sound) (phases : List Phase) (before : ClosesLast s.closed s.log) :
    ClosesLast (s.after phases).closed (s.after phases).log := by
  -- only a sound session is known to close last after its next phase, so both go through the run together
  have both : (s.after phases).Sound ∧ ClosesLast (s.after phases).closed (s.after phases).log := by
    refine after_keeps (P := fun u => u.Sound ∧ ClosesLast u.closed u.log) ?_ phases ⟨sound, before⟩
    rintro u p ⟨fine, last⟩
    exact ⟨step_sound fine p, step_closesLast fine p last⟩
  exact both.2

theorem after_silent (sound : s.Sound) (phases : List Phase) (shut : s.closed = true) :
    (s.after phases).closed = true ∧ (s.after phases).log = s.log := by
  have all : (s.after phases).Sound ∧ (s.after phases).closed = true ∧ (s.after phases).log = s.log := by
    refine after_keeps (P := fun u => u.Sound ∧ u.closed = true ∧ u.log = s.log) ?_ phases ⟨sound, shut, rfl⟩
    rintro u p ⟨fine, still, same⟩
    obtain ⟨closed, quiet⟩ := step_silent fine p still
    exact ⟨step_sound fine p, closed, quiet.trans same⟩
  exact all.2

end

/-! Calls on a closed handle. -/

def Call.Reaches {σ : Type} (s : Session σ) : Call → Prop
  | .ask _ | .query | .draft | .batch | .applyOther _ | .transaction _ _ => True
  | .execute k | .explain k _ | .stream k => (s.item? .query k).isSome
  | .create k => (s.item? .draft k).isSome
  | .onBatch k .commit | .onBatch k .applyBatch => (s.item? .batch k).isSome
  | _ => False

section
variable {σ α τ : Type}

structure Fails (f : Failure) (s : Session (Observed σ)) (a : Action (Session (Observed σ)) α) : Prop where
  failed : (a.outcome s).1 = .error f
  silent : (a.outcome s).2.log = s.log

/-- A call fails as on a closed handle, or as it would if the handle were open, and without a word to the engine. -/
def Refused (s : Session (Observed σ)) (a : Action (Session (Observed σ)) α) : Prop :=
  ∃ f, Fails f s a ∧ (f = .closed ∨ Fails f s.reopened a)

variable {s : Session (Observed σ)}

theorem Fails.discard {f : Failure} {a : Action (Session (Observed σ)) α} (h : Fails f s a) :
    Fails f s (Functor.discard a : Action (Session (Observed σ)) Unit) := by
  constructor
  · rw [Action.outcome_discard, h.failed]
    rfl
  · rw [Action.outcome_discard]
    exact h.silent

theorem Refused.discard {a : Action (Session (Observed σ)) α} (h : Refused s a) :
    Refused s (Functor.discard a : Action (Session (Observed σ)) Unit) := by
  obtain ⟨f, fails, alone⟩ := h
  exact ⟨f, fails.discard, alone.imp id Fails.discard⟩

theorem refused_of_closed {a : Action (Session (Observed σ)) α} (h : a.outcome s = (.error .closed, s)) :
    Refused s a :=
  ⟨.closed, ⟨by rw [h], by rw [h]⟩, .inl rfl⟩

theorem refused_alone {a : Action (Session (Observed σ)) α} (f : Failure) (h : ∀ t, a.outcome t = (.error f, t)) :
    Refused s a := by
  have fails (t : Session (Observed σ)) : Fails f t a := ⟨by rw [h], by rw [h]⟩
  exact ⟨f, fails s, .inr (fails s.reopened)⟩

theorem refused_of_guarded [Engine σ] {a : Action (Session (Observed σ)) α} (shut : s.closed = true)
    (h : Database.Guarded a s) : Refused s a := by
  obtain ⟨f, failed, alone⟩ := h.refuses shut
  refine ⟨f, ⟨by rw [failed], by rw [failed]⟩, alone.imp id fun again => ?_⟩
  exact ⟨by rw [again], by rw [again]⟩

theorem onItem_refused {kind : Item.Kind τ} {k : Nat} {a : Action (Session (Observed σ) × τ) α}
    (there : (s.item? kind k).isSome) (each : ∀ x, Refused s (a.within (·, x) fun _ t => t.1)) :
    Refused s (onItem kind k a) := by
  obtain ⟨x, found⟩ := Option.isSome_iff_exists.mp there
  have fails {f : Failure} {t : Session (Observed σ)} (found : t.item? kind k = some x)
      (h : Fails f t (a.within (·, x) fun _ t => t.1)) : Fails f t (onItem kind k a) := by
    have failed : (a.outcome (t, x)).1 = .error f := h.failed
    constructor
    · rw [onItem_outcome found, failed]
      rfl
    · rw [onItem_outcome found]
      exact h.silent
  obtain ⟨f, here, alone⟩ := each x
  exact ⟨f, fails found here, alone.imp id (fails found)⟩

theorem onQuery_refused {k : Nat} (there : (s.item? .query k).isSome) (make : Query → Action (Session (Observed σ)) α)
    (each : ∀ q, Refused s (make q)) : Refused s (onItem .query k do (make (← get).2.build).onFirst) :=
  onItem_refused there fun b => each b.build

end

section
variable {σ α : Type} [Engine σ] {s : Session (Observed σ)} (shut : s.closed = true)
include shut

theorem keep_guarded_refused {τ : Type} (kind : Item.Kind τ) {make : Action (Session (Observed σ)) τ}
    (h : Database.Guarded make s) : Refused s (keep kind make) := by
  obtain ⟨f, failed, alone⟩ := h.refuses shut
  have fails {t : Session (Observed σ)} (h : make.outcome t = (.error f, t)) : Fails f t (keep kind make) := by
    have kept := Action.outcome_bind_error h fun x => modify (·.shelved (kind.wrap x))
    exact ⟨by rw [keep, kept], by rw [keep, kept]⟩
  exact ⟨f, fails failed, alone.imp id fails⟩

theorem applyBatch_refused (b : Batch) : Refused s (Database.applyBatch.within (·, b) fun _ t => t.1) := by
  by_cases spent : b.isSealed = true
  · refine refused_alone (.argument .committed) fun t => ?_
    rw [Action.outcome_within, Database.applyBatch_outcome, if_pos spent]
  · refine refused_of_closed ?_
    rw [Action.outcome_within, Database.applyBatch_outcome, if_neg spent, Database.mutate_closed shut]

theorem commit_refused (b : Batch) : Refused s (Database.commit.within (·, b) fun _ t => t.1) := by
  by_cases spent : b.isSealed = true
  · refine refused_alone (.argument .committed) fun t => ?_
    rw [Action.outcome_within, Database.commit_outcome, if_neg (by simp [spent]), Database.applyBatch_outcome,
      if_pos spent]
  · refine refused_of_closed ?_
    rw [Action.outcome_within, Database.commit_outcome, if_pos ⟨shut, by simpa using spent⟩]

theorem create_refused (d : Creation.Draft) : Refused s (Database.create.within (·, d) fun _ t => t.1) := by
  by_cases spent : d.isSealed = true
  · refine refused_alone (.argument .executed) fun t => ?_
    rw [Action.outcome_within, Database.create_outcome, if_pos spent]
  · refine refused_of_closed ?_
    rw [Action.outcome_within, Database.create_outcome, if_neg spent, if_pos shut]

theorem Call.run_refused (c : Call) (reaches : c.Reaches s) : Refused s c.run := by
  cases c with
  | ask c => exact (refused_of_guarded shut (c.run_guarded s)).discard
  | query => exact keep_guarded_refused shut .query s.query_guarded
  | draft => exact keep_guarded_refused shut .draft s.draft_guarded
  | batch => exact keep_guarded_refused shut .batch s.batch_guarded
  | execute k => exact onQuery_refused reaches Database.execute fun q => refused_of_guarded shut (s.execute_guarded q)
  | explain k redactLiterals =>
      exact onQuery_refused reaches (Database.explain · redactLiterals) fun q =>
        refused_of_guarded shut (s.explain_guarded q redactLiterals)
  | stream k =>
      exact onQuery_refused reaches (fun q => keep .stream (Database.stream q)) fun q =>
        keep_guarded_refused shut .stream (s.stream_guarded q)
  | create k => exact onItem_refused reaches (create_refused shut)
  | onBatch k c =>
      cases c with
      | commit => exact onItem_refused reaches (commit_refused shut)
      | applyBatch => exact onItem_refused reaches (applyBatch_refused shut)
      | _ => exact reaches.elim
  | applyOther b => exact (applyBatch_refused shut b).discard
  | transaction body result => exact (refused_of_closed (Database.transaction_closed shut)).discard
  | _ => exact reaches.elim

end

section
variable {σ : Type} [Engine σ] {s : Session σ}

theorem runAll_outcome (calls : List Call) (s : Session σ) :
    (Call.runAll calls).outcome s = (.ok (), s.after (calls.map .call)) := by
  induction calls generalizing s with
  | nil => rfl
  | cons c calls ih =>
      rw [Call.runAll, Action.outcome_bind_ok (Action.outcome_discard_attempt c.run s), ih]
      rfl

theorem batch_step (opened : s.closed = false) : s.step (.call .batch) = s.shelved (.batch (.new s.schema)) := by
  have made := Database.batch_outcome opened
  rw [step, Phase.run, Call.run, keep, Action.outcome_bind_ok made]
  rfl

theorem inside_outcome (opened : s.closed = false) {calls : List Call} {b : Batch}
    (filled : (s.after (.call .batch :: calls.map .call)).item? .batch s.items.length = some b) :
    let inner := s.after (.call .batch :: calls.map .call)
    (inside (do Call.runAll calls; Action.check (.ok ()))).outcome (s, .new s.schema) =
      (.ok (), (inner.restock (inner.items.eraseIdx s.items.length), b)) := by
  intro inner
  -- the batch stands where a call before the body would have put it
  have entered : inner = (s.shelved (.batch (.new s.schema))).after (calls.map .call) := by
    rw [← batch_step opened]
    rfl
  rw [inside, Action.outcome_within, Action.outcome_bind_ok (runAll_outcome calls _), ← entered]
  change (_, (_, (inner.item? .batch s.items.length).getD _)) = _
  rw [filled]
  rfl

/-- A transaction that closes its own handle does not get what it has queued across. -/
theorem transaction_closing (opened : s.closed = false) {calls : List Call} {b : Batch}
    (shut : (s.after (.call .batch :: calls.map .call)).closed = true)
    (filled : (s.after (.call .batch :: calls.map .call)).item? .batch s.items.length = some b) (some : b.ops ≠ []) :
    let inner := s.after (.call .batch :: calls.map .call)
    (Call.transaction calls (.ok ())).run.outcome s =
      (.error (if b.isSealed then .argument .committed else .closed),
        inner.restock (inner.items.eraseIdx s.items.length)) := by
  intro inner
  rw [Call.run, Action.outcome_discard, Database.transaction_filled opened (inside_outcome opened filled),
    if_neg (by simpa using some), Database.commit_outcome]
  cases spent : b.isSealed with
  | true =>
      rw [if_neg (by simp), Database.applyBatch_outcome, if_pos spent]
      rfl
  | false =>
      rw [if_pos ⟨shut, rfl⟩]
      rfl

end

structure ClosedForGood {σ : Type} [Engine σ] (s : Session (Observed σ)) : Prop where
  last : ClosesLast s.closed s.log
  closes : (s.step (.call .close)).closed = true
  silent : s.closed = true → ∀ phases, (s.after phases).closed = true ∧ (s.after phases).log = s.log
  refuses : s.closed = true → ∀ c, Call.Reaches s c → Refused s c.run
  /-- What a transaction has queued when its handle is closed inside of it. -/
  stranded : s.closed = false → ∀ (calls : List Call) (b : Batch),
    let inner := s.after (.call .batch :: calls.map .call)
    inner.closed = true → inner.item? .batch s.items.length = some b → b.ops ≠ [] →
      ((Call.transaction calls (.ok ())).run.outcome s).1 =
        .error (if b.isSealed then .argument .committed else .closed) ∧
      ((Call.transaction calls (.ok ())).run.outcome s).2.log = inner.log

/-- Whatever a session has been through, its engine hears nothing once it is closed. -/
theorem after_closedForGood {σ : Type} [Engine σ] (e : σ) (options : Options) (phases : List Phase) :
    ClosedForGood ((opened e options).after phases) := by
  have start := opened_sound e options
  exact {
    last := after_closesLast start phases (.opened fun _ member => nomatch member)
    closes := by
      rw [step, Phase.run, Call.run, close_outcome]
      split
      · assumption
      · rfl
    silent := fun shut more => after_silent (after_sound start phases) more shut
    refuses := fun shut c reaches => c.run_refused shut reaches
    stranded := fun opened calls b shut filled some => by
      rw [transaction_closing opened shut filled some]
      exact ⟨rfl, rfl⟩ }

end GraphClient.Session
