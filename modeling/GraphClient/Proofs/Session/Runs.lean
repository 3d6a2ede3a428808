import GraphClient.Proofs.Session.Moves

/-!
Whole runs of a session. What is reached is in accord with the schema that is active there, and so is all that its engine
is asked next.
-/
namespace GraphClient.Session

open Engine (Observed Exchange)
open Relation (ReflTransGen)

section
variable {σ : Type} [Engine σ] {s : Session σ}

/-- Replacing the schema leaves nothing that was checked against another one. -/
theorem withSchema_step (s : Session σ) (schema : Option Schema) :
    (s.step (.withSchema schema)).items = [] ∧ (s.step (.withSchema schema)).engine.engine = s.engine.engine ∧
      (s.step (.withSchema schema)).closed = s.closed := by
  have cleared := Action.outcome_modify (·.restock []) s
  rw [step, Phase.run, Action.outcome_bind_ok cleared]
  cases schema with
  | none => exact ⟨rfl, rfl, rfl⟩
  | some v =>
      rw [Database.withSchema, Action.outcome_bind]
      cases checked : (Action.conform v.validate : Action (Session σ) Unit).outcome (s.restock []) with
      | mk r t =>
          obtain rfl : t = s.restock [] := (congrArg Prod.snd checked).symm
          cases r <;> exact ⟨rfl, rfl, rfl⟩

theorem step_sound (sound : s.Sound) (p : Phase) : (s.step p).Sound := by
  cases p with
  | call c => exact (c.run_leads sound).sound
  | withSchema schema =>
      intro i member
      rw [(withSchema_step s schema).1] at member
      cases member

theorem after_keeps {P : Session σ → Prop} (steps : ∀ s p, P s → P (s.step p)) (phases : List Phase) (holds : P s) :
    P (s.after phases) := by
  induction phases generalizing s with
  | nil => exact holds
  | cons p phases ih => exact ih (steps s p holds)

theorem after_sound (sound : s.Sound) (phases : List Phase) : (s.after phases).Sound :=
  after_keeps (P := Sound) (fun _ p fine => step_sound fine p) phases sound

end

theorem opened_sound {σ : Type} (e : σ) (options : Options) : (opened e options).Sound := fun _ member => nomatch member

def Continues (schema : Option Schema) (before after : List Exchange) : Prop :=
  ∃ made, after = before ++ made ∧ ∀ x ∈ made, x.call.Admitted schema

theorem Continues.refl (schema : Option Schema) (log : List Exchange) : Continues schema log log :=
  ⟨[], by simp, by simp⟩

theorem Continues.trans {schema : Option Schema} {first second third : List Exchange}
    (h : Continues schema first second) (k : Continues schema second third) : Continues schema first third := by
  obtain ⟨made, rfl, admitted⟩ := h
  obtain ⟨more, rfl, also⟩ := k
  exact ⟨made ++ more, List.append_assoc _ _ _, List.forall_mem_append.mpr ⟨admitted, also⟩⟩

section
variable {σ : Type} [Engine σ]

theorem continues_answer (schema : Option Schema) (s : Session (Observed σ)) (call : Engine.Call)
    (admitted : call.Admitted schema) :
    Continues schema s.log ((Engine.answer call).outcome s.engine).2.engine.exchanges :=
  ⟨[⟨call, _⟩], rfl, List.forall_mem_singleton.mpr admitted⟩

theorem withSchema_log (s : Session (Observed σ)) (schema : Option Schema) :
    (s.step (.withSchema schema)).log = s.log :=
  congrArg Observed.exchanges (withSchema_step s schema).2.1

theorem Move.log {s t : Session (Observed σ)} (h : Move s t) : Continues s.schema s.log t.log := by
  cases h with
  | ask asks =>
      obtain ⟨call, _, _, admitted⟩ := asks
      exact continues_answer s.schema s call admitted
  | close _ => exact continues_answer s.schema s .close trivial
  | pull c => exact .refl _ _
  | letGo c => exact .refl _ _
  | restock items _ => exact .refl _ _

theorem moves_log {s t : Session (Observed σ)} (h : ReflTransGen Move s t) : Continues s.schema s.log t.log := by
  induction h with
  | refl => exact .refl _ _
  | tail earlier move ih =>
      have further := move.log
      -- the move speaks of the schema it starts from, which is still the first one
      rw [moves_schema earlier] at further
      exact ih.trans further

/-- Whatever a session has been through, what it asks of its engine next is admitted by the schema that is active. -/
theorem submissions_admitted (e : σ) (options : Options) (phases : List Phase) (p : Phase) :
    let s := (opened e options).after phases
    ∃ made, (s.step p).log = s.log ++ made ∧ ∀ x ∈ made, x.call.Admitted s.schema := by
  intro s
  change Continues s.schema s.log (s.step p).log
  cases p with
  | call c => exact moves_log (c.run_leads (after_sound (opened_sound _ options) phases)).moves
  | withSchema schema =>
      rw [withSchema_log]
      exact .refl _ _

end
end GraphClient.Session
