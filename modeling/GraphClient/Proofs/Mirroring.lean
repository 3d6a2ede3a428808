import GraphClient.Proofs.Outcome

/-!
Calls that do the same on two kinds of state, where one state is a view of the other.
-/
namespace GraphClient

namespace Action

/-- On the view of a state one call has the outcome that the other has on the state. -/
def Mirrors {σ τ α : Type} (view : σ → τ) (a : Action σ α) (b : Action τ α) : Prop :=
  ∀ s, b.outcome (view s) = ((a.outcome s).1, view (a.outcome s).2)

namespace Mirrors

variable {σ τ ρ α β : Type} {view : σ → τ} {a : Action σ α} {b : Action τ α}

theorem pure (v : α) : Mirrors view (Pure.pure v) (Pure.pure v) := fun _ => rfl

theorem check (x : Except Failure α) : Mirrors view (Action.check x) (Action.check x) := fun _ => rfl

theorem bind {f : α → Action σ β} {g : α → Action τ β} (first : Mirrors view a b)
    (rest : ∀ v, Mirrors view (f v) (g v)) : Mirrors view (a >>= f) (b >>= g) := by
  intro s
  rw [outcome_bind, outcome_bind, first s]
  cases a.outcome s with
  | mk r t =>
      cases r with
      | error _ => rfl
      | ok v => exact rest v t

theorem discard (h : Mirrors view a b) : Mirrors view (Functor.discard a) (Functor.discard b) := by
  intro s
  rw [outcome_discard, outcome_discard, h s]

theorem get_bind {f : σ → Action σ β} {g : τ → Action τ β} (rest : ∀ s, Mirrors view (f s) (g (view s))) :
    Mirrors view (get >>= f) (get >>= g) := by
  intro s
  rw [outcome_bind_ok (outcome_get s), outcome_bind_ok (outcome_get (view s))]
  exact rest s s

theorem forM {f : α → Action σ PUnit} {g : α → Action τ PUnit} (each : ∀ v, Mirrors view (f v) (g v)) (l : List α) :
    Mirrors view (l.forM f) (l.forM g) := by
  induction l with
  | nil => exact pure _
  | cons v l ih => exact (each v).bind fun _ => ih

theorem attempt (h : Mirrors view a b) : Mirrors view a.attempt b.attempt := by
  intro s
  rw [outcome_attempt, outcome_attempt, h s]

theorem within {σ' τ' : Type} {outer : σ' → τ'} {get : σ' → σ} {put : σ' → σ → σ'} {get' : τ' → τ} {put' : τ' → τ → τ'}
    (h : Mirrors view a b) (seen : ∀ t, get' (outer t) = view (get t))
    (kept : ∀ t s, put' (outer t) (view s) = outer (put t s)) : Mirrors outer (a.within get put) (b.within get' put') := by
  intro t
  rw [outcome_within, outcome_within, seen, h (get t), kept]

theorem onFirst (h : Mirrors view a b) : Mirrors (Prod.map view id) (a.onFirst (τ := ρ)) b.onFirst :=
  h.within (fun _ => rfl) fun _ _ => rfl

theorem onSecond (c : Action ρ α) : Mirrors (Prod.map view id) c.onSecond c.onSecond := fun _ => rfl

end Mirrors
end Action
end GraphClient
