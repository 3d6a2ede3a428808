import GraphClient.Proofs.Mutation.Transaction
import GraphClient.Proofs.Session.Basic
import GraphClient.Proofs.Stream.Course

/-!
What a session can do in one move, and that calls are made of such moves. All that has been made on the handle stays in
accord with its schema, so nothing is sent that the schema does not admit.
-/
namespace GraphClient

open GraphClient.Action (Goes)
open Relation (ReflTransGen)

namespace Batch

structure Sound (schema : Option Schema) (b : Batch) : Prop where
  same : b.schema = schema
  conforming : ∀ m ∈ b.ops, m.conforms? schema = .ok ()

theorem Sound.spent {schema : Option Schema} {b : Batch} (h : b.Sound schema) : b.spent.Sound schema :=
  ⟨h.same, fun _ member => nomatch member⟩

theorem Call.run_sound {σ : Type} [Engine σ] {schema : Option Schema} {b : Batch} (h : b.Sound schema) (c : Call)
    (db : Database σ) :
    ReflTransGen Database.Asks db (c.run.outcome (db, b)).2.1 ∧ (c.run.outcome (db, b)).2.2.Sound schema := by
  have taken {b' : Batch} (takes : b' = b ∨ b' = b.spent) : b'.Sound schema := by
    rcases takes with rfl | rfl
    · exact h
    · exact h.spent
  cases c with
  | queue q =>
      refine ⟨.refl, ?_⟩
      rw [run, Action.outcome_onSecond]
      rcases q.outcome b with ⟨f, refused⟩ | ⟨_, fits, made⟩
      · rw [refused]
        exact h
      · rw [made]
        rw [h.same] at fits
        exact ⟨h.same, List.forall_mem_append.mpr ⟨h.conforming, List.forall_mem_singleton.mpr fits⟩⟩
  | drain =>
      refine ⟨.refl, taken ?_⟩
      rw [run, Action.outcome_onSecond, drain_outcome]
      split
      · exact .inl rfl
      · exact .inr rfl
  | commit => exact ⟨db.commit_asks b, taken (db.commit_takes b)⟩
  | applyBatch => exact ⟨db.applyBatch_asks b, taken (db.applyBatch_takes b)⟩

end Batch

def Item.Sound (schema : Option Schema) : Item → Prop
  | query _ | stream _ => True
  | draft d => d.Sound schema
  | batch b => b.Sound schema

namespace Session

variable {σ : Type}

def Sound (s : Session σ) : Prop := ∀ i ∈ s.items, i.Sound s.schema

section
variable {s : Session σ} {α τ : Type}

theorem item_sound (sound : s.Sound) {kind : Item.Kind τ} {k : Nat} {x : τ} (found : s.item? kind k = some x) :
    (kind.wrap x).Sound s.schema := by
  obtain ⟨i, here, picked⟩ := Option.bind_eq_some_iff.mp found
  rw [← kind.picked picked]
  exact sound i (List.mem_of_getElem? here)

theorem batch_sound {b : Batch} {t : Session σ} (made : Database.batch.outcome s = (.ok b, t)) : b.Sound s.schema := by
  obtain rfl := Database.made_of_options (Batch.new ·.schema) made
  exact ⟨rfl, nofun⟩

theorem draft_sound {d : Creation.Draft} {t : Session σ} (made : Database.draft.outcome s = (.ok d, t)) :
    d.Sound s.schema := by
  obtain rfl := Database.made_of_options (Creation.Draft.new ·.schema) made
  exact .empty rfl rfl

theorem onItem_outcome {kind : Item.Kind τ} {k : Nat} {x : τ} (found : s.item? kind k = some x)
    (a : Action (Session σ × τ) α) :
    (onItem kind k a).outcome s = ((fun _ => ()) <$> (a.outcome (s, x)).1,
      (a.outcome (s, x)).2.1.restock ((a.outcome (s, x)).2.1.items.set k (kind.wrap (a.outcome (s, x)).2.2))) := by
  rw [onItem, Action.outcome_bind_ok (Action.outcome_get s), found]
  exact Action.outcome_discard _ s

end

section
variable [Engine σ]

/-- One thing that a call does: a question to the engine, its end, a word to a cursor, or a change of the items. -/
inductive Move : Session σ → Session σ → Prop
  | ask {s t : Session σ} : Database.Asks s t → Move s t
  | close {s : Session σ} : s.closed = false →
      Move s { s with engine := ((Engine.answer .close).outcome s.engine).2, closed := true }
  | pull {s : Session σ} (c : Engine.Cursor) : Move s { s with engine := ((Engine.nextRow c).outcome s.engine).2 }
  | letGo {s : Session σ} (c : Engine.Cursor) : Move s { s with engine := ((Engine.closeCursor c).outcome s.engine).2 }
  | restock {s : Session σ} (items : List Item) : (∀ i ∈ items, i.Sound s.schema) → Move s (s.restock items)

theorem Move.schema {s t : Session σ} (h : Move s t) : t.schema = s.schema := by
  cases h with
  | ask asks => exact asks.schema
  | _ => rfl

theorem Move.sound {s t : Session σ} (h : Move s t) (sound : s.Sound) : t.Sound := by
  cases h with
  | ask asks =>
      cases asks
      exact sound
  | restock items all => exact all
  | _ => exact sound

/-- A session reached from another by moves that keep everything in accord. -/
structure Leads (s t : Session σ) : Prop where
  moves : ReflTransGen Move s t
  schema : t.schema = s.schema
  sound : t.Sound

theorem moves_schema {s t : Session σ} (h : ReflTransGen Move s t) : t.schema = s.schema :=
  kept_by_steps h (P := fun u => u.schema = s.schema) (fun _ _ move same => move.schema.trans same) rfl

theorem leads_of_moves {s t : Session σ} (sound : s.Sound) (h : ReflTransGen Move s t) : Leads s t :=
  ⟨h, moves_schema h, kept_by_steps h (fun _ _ move => move.sound) sound⟩

theorem Leads.refl {s : Session σ} (sound : s.Sound) : Leads s s := ⟨.refl, rfl, sound⟩

theorem Leads.trans {s t u : Session σ} (h : Leads s t) (k : Leads t u) : Leads s u :=
  ⟨h.moves.trans k.moves, k.schema.trans h.schema, k.sound⟩

theorem leads_of_asks {s t : Session σ} (sound : s.Sound) (h : ReflTransGen Database.Asks s t) : Leads s t :=
  leads_of_moves sound (h.lift id fun _ _ => .ask)

theorem Leads.restock {s t : Session σ} (h : Leads s t) (items : List Item) (all : ∀ i ∈ items, i.Sound s.schema) :
    Leads s (t.restock items) := by
  refine h.trans (leads_of_moves h.sound (.single (.restock items ?_)))
  rwa [h.schema]

theorem Leads.shelved {s t : Session σ} (h : Leads s t) {i : Item} (new : i.Sound s.schema) : Leads s (t.shelved i) := by
  refine h.restock _ (List.forall_mem_append.mpr ⟨?_, List.forall_mem_singleton.mpr new⟩)
  rw [← h.schema]
  exact h.sound

section
variable {s : Session σ} {α τ : Type}

theorem keep_leads (sound : s.Sound) (kind : Item.Kind τ) {make : Action (Session σ) τ}
    (asks : Goes Database.Asks make s) (new : ∀ x t, make.outcome s = (.ok x, t) → (kind.wrap x).Sound s.schema) :
    Leads s ((keep kind make).outcome s).2 := by
  have led := leads_of_asks sound asks
  cases made : make.outcome s with
  | mk r t =>
      rw [made] at led
      cases r with
      | error f =>
          rw [keep, Action.outcome_bind_error made]
          exact led
      | ok x =>
          rw [keep, Action.outcome_bind_ok made]
          exact led.shelved (new x t made)

theorem onItem_leads (sound : s.Sound) (kind : Item.Kind τ) (k : Nat) (a : Action (Session σ × τ) α)
    (each : ∀ x, (kind.wrap x).Sound s.schema →
      Leads s (a.outcome (s, x)).2.1 ∧ (kind.wrap (a.outcome (s, x)).2.2).Sound s.schema) :
    Leads s ((onItem kind k a).outcome s).2 := by
  cases found : s.item? kind k with
  | none =>
      have nothing : (onItem kind k a).outcome s = (.ok (), s) := by
        rw [onItem, Action.outcome_bind_ok (Action.outcome_get s), found]
        rfl
      rw [nothing]
      exact .refl sound
  | some x =>
      rw [onItem_outcome found]
      obtain ⟨led, put⟩ := each x (item_sound sound found)
      refine led.restock _ fun i member => ?_
      rcases List.mem_or_eq_of_mem_set member with old | rfl
      · rw [← led.schema]
        exact led.sound i old
      · exact put

theorem onItem_second_leads (sound : s.Sound) (kind : Item.Kind τ) (k : Nat) (a : Action τ α)
    (keeps : ∀ x, (kind.wrap x).Sound s.schema → (kind.wrap (a.outcome x).2).Sound s.schema) :
    Leads s ((onItem kind k a.onSecond).outcome s).2 :=
  onItem_leads sound kind k _ fun x before => ⟨.refl sound, keeps x before⟩

theorem onQuery_leads (sound : s.Sound) (k : Nat) (make : Query → Action (Session σ) α)
    (leads : ∀ q, Leads s ((make q).outcome s).2) :
    Leads s ((onItem .query k do (make (← get).2.build).onFirst).outcome s).2 :=
  onItem_leads sound .query k _ fun b _ => ⟨leads b.build, trivial⟩

theorem close_outcome (s : Session σ) :
    Database.close.outcome s =
      if s.closed then (.ok (), s)
      else (((Engine.answer .close).outcome s.engine).1,
        { s with engine := ((Engine.answer .close).outcome s.engine).2, closed := true }) := by
  rw [Database.close, Action.outcome_bind_ok (Action.outcome_get s)]
  cases s.closed <;> rfl

theorem close_leads (sound : s.Sound) : Leads s (Database.close.outcome s).2 := by
  rw [close_outcome]
  split
  · exact .refl sound
  next opened => exact leads_of_moves sound (.single (.close (by simpa using opened)))

theorem create_leads (sound : s.Sound) {d : Creation.Draft} (fine : d.Sound s.schema) :
    Leads s (Database.create.outcome (s, d)).2.1 ∧ (Database.create.outcome (s, d)).2.2.Sound s.schema := by
  refine ⟨leads_of_asks sound (Database.create_asks fine.admitted), ?_⟩
  rcases Database.create_takes s d with same | spent
  · rw [same]
    exact fine
  · rw [spent]
    exact .empty fine.same rfl

theorem discard_leads {a : Action (Session σ) α} (h : Leads s (a.outcome s).2) :
    Leads s ((discard a : Action (Session σ) Unit).outcome s).2 := by
  rw [Action.outcome_discard]
  exact h

theorem letGo_moves (s : Session σ) (r : RowStream) :
    ReflTransGen Move s ((onStream RowStream.close).outcome (s, r)).2.1 := by
  obtain ⟨cursor, requestId⟩ := r
  rw [onStream, Action.outcome_within]
  cases cursor with
  | none => rw [RowStream.close_released]
  | some c =>
      rw [RowStream.close_open]
      exact .single (.letGo c)

theorem pull_moves (s : Session σ) (r : RowStream) :
    ReflTransGen Move s ((onStream RowStream.next).outcome (s, r)).2.1 := by
  obtain ⟨cursor, requestId⟩ := r
  rw [onStream, Action.outcome_within]
  cases cursor with
  | none => rw [RowStream.next_released]
  | some c =>
      have first : Move s { s with engine := ((Engine.nextRow c).outcome s.engine).2 } := .pull c
      cases pulled : (Engine.nextRow c).outcome s.engine with
      | mk row e =>
          rw [pulled] at first
          match row with
          | .ok (some row) =>
              rw [RowStream.next_row requestId pulled]
              exact .single first
          | .ok none =>
              rw [RowStream.next_end requestId pulled]
              exact .tail (.single first) (.letGo c)
          | .error f =>
              rw [RowStream.next_failure requestId pulled]
              exact .tail (.single first) (.letGo c)

theorem inside_leads (sound : s.Sound) {body : Action (Session σ) α}
    (leads : ∀ t, t.Sound → Leads t (body.outcome t).2) :
    Leads s ((inside body).outcome (s, .new s.schema)).2.1 := by
  have entered : Leads s (s.shelved (.batch (.new s.schema))) := (Leads.refl sound).shelved ⟨rfl, nofun⟩
  have filled := entered.trans (leads _ entered.sound)
  -- the batch leaves its place again; what else is there has stayed in accord
  refine filled.restock _ fun i member => ?_
  rw [← filled.schema]
  exact filled.sound i (List.mem_of_mem_eraseIdx member)

theorem transaction_leads (sound : s.Sound) {body : Action (Session σ) α}
    (leads : ∀ t, t.Sound → Leads t (body.outcome t).2) :
    Leads s ((Database.transaction (inside body)).outcome s).2 := by
  cases shut : s.closed with
  | true =>
      rw [Database.transaction_closed shut]
      exact .refl sound
  | false =>
      have led := inside_leads sound leads
      cases filled : (inside body).outcome (s, .new s.schema) with
      | mk r t =>
          rw [filled] at led
          cases r with
          | error f =>
              rw [Database.transaction_failed shut filled]
              exact led
          | ok v =>
              rw [Database.transaction_filled shut filled]
              split
              · exact led
              · exact led.trans (leads_of_asks led.sound (Database.commit_asks t.1 t.2))

mutual

/-- Whatever is called, the session moves on step by step and stays in accord. -/
theorem Call.run_leads (c : Call) {s : Session σ} (sound : s.Sound) : Leads s (c.run.outcome s).2 := by
  match c with
  | .ask c => exact discard_leads (leads_of_asks sound (c.run_guarded s).asks)
  | .close => exact close_leads sound
  | .query => exact keep_leads sound .query s.query_guarded.asks fun _ _ _ => trivial
  | .draft => exact keep_leads sound .draft s.draft_guarded.asks fun _ _ made => draft_sound made
  | .batch => exact keep_leads sound .batch s.batch_guarded.asks fun _ _ made => batch_sound made
  | .onQuery k c => exact onItem_second_leads sound .query k c.run fun _ _ => trivial
  | .onScope k name c => exact onItem_second_leads sound .query k (c.run name) fun _ _ => trivial
  | .execute k =>
      exact onQuery_leads sound k Database.execute fun q => leads_of_asks sound (s.execute_guarded q).asks
  | .explain k redactLiterals =>
      refine onQuery_leads sound k (Database.explain · redactLiterals) fun q => ?_
      exact leads_of_asks sound (s.explain_guarded q redactLiterals).asks
  | .stream k =>
      refine onQuery_leads sound k (fun q => keep .stream (Database.stream q)) fun q => ?_
      exact keep_leads sound .stream (s.stream_guarded q).asks fun _ _ _ => trivial
  | .pull k => exact onItem_leads sound .stream k _ fun r _ => ⟨leads_of_moves sound (s.pull_moves r), trivial⟩
  | .letGo k => exact onItem_leads sound .stream k _ fun r _ => ⟨leads_of_moves sound (s.letGo_moves r), trivial⟩
  | .onDraft k c =>
      exact onItem_second_leads sound .draft k c.run fun _ before => Creation.Draft.Call.run_sound before c
  | .create k => exact onItem_leads sound .draft k _ fun _ before => create_leads sound before
  | .onBatch k c =>
      refine onItem_leads sound .batch k _ fun b before => ?_
      exact (Batch.Call.run_sound before c s).imp (leads_of_asks sound) id
  | .applyOther b => exact discard_leads (leads_of_asks sound (s.applyBatch_asks b))
  | .transaction body result =>
      -- the body is a shorter list of calls, and the result behind it leaves the session alone
      refine discard_leads (transaction_leads sound fun t fine => ?_)
      rw [Action.outcome_check_after]
      exact Call.runAll_leads body fine

theorem Call.runAll_leads (cs : List Call) {s : Session σ} (sound : s.Sound) :
    Leads s ((Call.runAll cs).outcome s).2 := by
  match cs with
  | [] => exact .refl sound
  | c :: cs =>
      have first := c.run_leads sound
      exact first.trans (Call.runAll_leads cs first.sound)

end

end
end
end Session
end GraphClient
