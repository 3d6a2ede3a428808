import Mathlib.Logic.Relation
import GraphClient.Proofs.Outcome

/-!
Where calls lead. What a call does to the state is broken down into steps of a relation, so that whatever each step keeps
is kept by the call, and calls made of calls lead as far as their parts.
-/
namespace GraphClient

theorem kept_by_steps {σ : Type} {R : σ → σ → Prop} {P : σ → Prop} {s t : σ} (h : Relation.ReflTransGen R s t)
    (steps : ∀ s t, R s t → P s → P t) (holds : P s) : P t := by
  induction h with
  | refl => exact holds
  | tail _ step ih => exact steps _ _ step ih

namespace Action

variable {σ τ α β : Type} {R : σ → σ → Prop} {a : Action σ α} {s : σ}

/-- Steps of the relation lead from a state to the state after the call, whether it fails or not. -/
def Goes (R : σ → σ → Prop) (a : Action σ α) (s : σ) : Prop := Relation.ReflTransGen R s (a.outcome s).2

namespace Goes

theorem of_reads (reads : (a.outcome s).2 = s) : Goes R a s := by
  rw [Goes, reads]

theorem pure (v : α) (s : σ) : Goes R (Pure.pure v : Action σ α) s := of_reads rfl

theorem bind {f : α → Action σ β} (first : Goes R a s) (rest : ∀ v t, a.outcome s = (.ok v, t) → Goes R (f v) t) :
    Goes R (a >>= f) s := by
  cases done : a.outcome s with
  | mk r t =>
      rw [Goes, done] at first
      cases r with
      | error e =>
          rw [Goes, outcome_bind_error done]
          exact first
      | ok v =>
          rw [Goes, outcome_bind_ok done]
          exact first.trans (rest v t done)

theorem reads_bind {f : α → Action σ β} (reads : (a.outcome s).2 = s)
    (rest : ∀ v, a.outcome s = (.ok v, s) → Goes R (f v) s) : Goes R (a >>= f) s := by
  refine (of_reads reads).bind fun v t done => ?_
  obtain rfl : s = t := reads.symm.trans (congrArg Prod.snd done)
  exact rest v done

theorem get_bind {f : σ → Action σ β} (rest : Goes R (f s) s) : Goes R (get >>= f) s := by
  rw [Goes, outcome_bind_ok (outcome_get s)]
  exact rest

theorem keeps {P : σ → Prop} (h : Goes R a s) (steps : ∀ s t, R s t → P s → P t) (holds : P s) :
    P (a.outcome s).2 :=
  kept_by_steps h steps holds

/-- A loop goes where its rounds go, as long as steps keep what the rounds rely on. -/
theorem foldlM {I : σ → Prop} {round : β → α → Action σ β} {l : List α} (keeps : ∀ s t, R s t → I s → I t)
    (each : ∀ acc, ∀ v ∈ l, ∀ t, I t → Goes R (round acc v) t) (acc : β) (start : I s) :
    Goes R (l.foldlM round acc) s := by
  induction l generalizing acc s with
  | nil => exact pure acc s
  | cons v l ih =>
      rw [List.foldlM_cons]
      have first := each acc v List.mem_cons_self s start
      refine first.bind fun acc t done => ?_
      refine ih (fun acc w member => each acc w (List.mem_cons_of_mem v member)) acc ?_
      have kept := first.keeps keeps start
      rwa [done] at kept

end Goes
end Action
end GraphClient
