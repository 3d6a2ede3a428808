import GraphClient.Engine.Scripted
import GraphClient.Proofs.Session.Runs

/-!
Submissions that never reach an engine. A draft that is not sent stays as it is, and so does a batch that is committed;
a batch that is applied is sealed before it is known whether it will be sent, and what was in it is lost if it is not.
-/
namespace GraphClient.Session

open Engine (Observed)
open Database (LosesNothing)

variable {σ ρ : Type} [Engine σ] [Engine ρ]

/-- Whatever a session has been through, only applying a batch can lose what it holds, and it does where the handle is
closed or its schema refuses. -/
theorem unsent_losesNothing (e : σ) (options : Options) (phases : List Phase) :
    let s := (opened e options).after phases
    (∀ k d, s.item? .draft k = some d → LosesNothing Database.create s.handle d) ∧
      ∀ k b, s.item? .batch k = some b → LosesNothing Database.commit s.handle b ∧
        ∀ db : Database (Observed ρ), LosesNothing Database.applyBatch db b ↔
          b.isSealed = true ∨ db.closed = false ∧ ∀ m ∈ b.ops, m.conforms? db.schema = .ok () := by
  intro s
  have sound : s.Sound := after_sound (opened_sound _ options) phases
  constructor
  · intro k d _
    exact Database.create_losesNothing s.handle d
  · intro k b found
    have fits : b.Sound s.schema := item_sound sound found
    exact ⟨Database.commit_losesNothing fits.conforming, fun db => Database.applyBatch_losesNothing_iff⟩

theorem applied_after_close_is_lost : ¬ ∀ (phases : List Phase) (k : Nat) (b : Batch),
    let s := (opened Engine.Scripted.empty .default).after phases
    s.item? .batch k = some b → LosesNothing Database.applyBatch s.handle b := by
  intro all
  let phases : List Phase := [.call .batch, .call (.onBatch 0 (.queue (.deleteEdge 5))), .call .close]
  have kept := all phases 0 ⟨none, [.deleteEdge 5], false⟩ rfl .closed rfl rfl
  cases kept

end GraphClient.Session
