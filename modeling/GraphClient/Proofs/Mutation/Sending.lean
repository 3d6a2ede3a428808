import GraphClient.Proofs.Database.Guarding
import GraphClient.Proofs.Mutation.Pieces

/-!
Sending in pieces. Whatever an engine answers, it is sent the pieces of a list of mutations one after the other, up to
the first that fails; if none fails, the answer is what all of them have done together.
-/
namespace GraphClient

open Engine (Observed Submission Exchange)
open Mutation (Summary)

def Engine.Submission.exchange (s : Submission) : Exchange := ⟨.mutate ⟨s.ops⟩, s.reply⟩

namespace Database

/-- Pieces are sent in their order, up to the first that fails. -/
structure Submitted (pieces : List (List Mutation)) (made : List Submission) (result : Except Failure Summary) :
    Prop where
  inOrder : made.map (·.ops) <+: pieces
  completes : ∀ summaries, made.map (·.reply) = summaries.map .ok →
    made.map (·.ops) = pieces ∧ ∃ total, result = .ok total ∧ Summary.Totals summaries total
  stops : ∀ earlier s later f, made = earlier ++ s :: later → s.reply = .error f → later = [] ∧ result = .error f

/-- What the rounds of a loop over pieces come to, from what has been done before. -/
inductive Course : Summary → List (List Mutation) → List Submission → Except Failure Summary → Prop
  | finished {total : Summary} : Course total [] [] (.ok total)
  | sent {total : Summary} {pieces : List (List Mutation)} {made : List Submission} {result : Except Failure Summary}
      (ops : List Mutation) (s : Summary) : Course (total.merge s) pieces made result →
      Course total (ops :: pieces) (⟨ops, .ok s⟩ :: made) result
  | failed {total : Summary} {pieces : List (List Mutation)} (ops : List Mutation) (f : Failure) :
      Course total (ops :: pieces) [⟨ops, .error f⟩] (.error f)

namespace Course

variable {total : Summary} {pieces : List (List Mutation)} {made : List Submission} {result : Except Failure Summary}

theorem inOrder (h : Course total pieces made result) : made.map (·.ops) <+: pieces := by
  induction h with
  | finished => exact List.nil_prefix
  | sent ops s _ ih => exact List.prefix_cons_inj ops |>.mpr ih
  | failed ops f => exact List.prefix_cons_inj ops |>.mpr List.nil_prefix

theorem completes (h : Course total pieces made result) {summaries : List Summary}
    (fine : made.map (·.reply) = summaries.map .ok) :
    made.map (·.ops) = pieces ∧ result = .ok (total.merge (Summary.merged summaries)) := by
  induction h generalizing summaries with
  | finished =>
      obtain rfl := List.map_eq_nil_iff.mp fine.symm
      exact ⟨rfl, congrArg Except.ok (Summary.merge_empty _).symm⟩
  | sent ops s _ ih =>
      cases summaries with
      | nil => cases fine
      | cons first summaries =>
          obtain ⟨same, rest⟩ := List.cons_eq_cons.mp fine
          cases same
          obtain ⟨all, done⟩ := ih rest
          refine ⟨congrArg (ops :: ·) all, ?_⟩
          rw [done, Summary.merged_cons, Summary.merge_assoc]
  | failed ops f =>
      cases summaries with
      | nil => cases fine
      | cons first summaries => cases (List.cons_eq_cons.mp fine).1

theorem stops (h : Course total pieces made result) {earlier later : List Submission} {s : Submission} {f : Failure}
    (split : made = earlier ++ s :: later) (failed : s.reply = .error f) : later = [] ∧ result = .error f := by
  induction h generalizing earlier with
  | finished => simp at split
  | sent ops summary _ ih =>
      cases earlier with
      | nil =>
          obtain ⟨rfl, -⟩ := List.cons_eq_cons.mp split
          cases failed
      | cons first earlier => exact ih (List.cons_eq_cons.mp split).2
  | failed ops g =>
      cases earlier with
      | nil =>
          obtain ⟨rfl, rfl⟩ := List.cons_eq_cons.mp split
          cases failed
          exact ⟨rfl, rfl⟩
      | cons first earlier => simp at split

theorem submitted (h : Course .empty pieces made result) : Submitted pieces made result where
  inOrder := h.inOrder
  completes summaries fine := by
    obtain ⟨all, done⟩ := h.completes fine
    rw [Summary.empty_merge] at done
    exact ⟨all, _, done, Summary.merged_totals summaries⟩
  stops _ _ _ _ split failed := h.stops split failed

end Course

section
variable {σ : Type} [Engine σ]

def sendPiece (total : Summary) (ops : List Mutation) : Action (Database σ) Summary := do
  pure (total.merge (← send (.mutate ⟨ops⟩)))

theorem sendPiece_outcome {db : Database σ} (opened : db.closed = false) (total : Summary) (ops : List Mutation) :
    (sendPiece total ops).outcome db =
      (total.merge <$> ((Engine.answer (.mutate ⟨ops⟩)).outcome db.engine).1,
        { db with engine := ((Engine.answer (.mutate ⟨ops⟩)).outcome db.engine).2 }) := by
  rw [sendPiece, bind_pure_comp, Action.outcome_map, send_outcome opened]

theorem submit_opened {db : Database σ} (opened : db.closed = false) (ops : List Mutation) (size : Nat) :
    (submit ops size).outcome db = ((chunks size ops).foldlM sendPiece .empty).outcome db :=
  Action.outcome_bind_ok (requireOpen_opened opened) _

theorem sendPiece_logged {db : Database (Observed σ)} (opened : db.closed = false) (total : Summary)
    (ops : List Mutation) :
    ∃ (reply : Except Failure Summary) (engine : Observed σ),
      (sendPiece total ops).outcome db = (total.merge <$> reply, { db with engine }) ∧
        engine.exchanges = db.engine.exchanges ++ [Submission.exchange ⟨ops, reply⟩] :=
  ⟨_, _, sendPiece_outcome opened total ops, (Observed.answer_outcome (.mutate ⟨ops⟩) db.engine).2.2⟩

theorem pieces_course (pieces : List (List Mutation)) (total : Summary) {db : Database (Observed σ)}
    (opened : db.closed = false) :
    let done := (pieces.foldlM sendPiece total).outcome db
    ∃ made, Course total pieces made done.1 ∧
      done.2.engine.exchanges = db.engine.exchanges ++ made.map Submission.exchange := by
  -- the handle stays open from piece to piece, while the total grows
  induction pieces generalizing total db with
  | nil => exact ⟨[], .finished, (List.append_nil _).symm⟩
  | cons ops pieces ih =>
      obtain ⟨reply, engine, first, logged⟩ := sendPiece_logged opened total ops
      cases reply with
      | error f =>
          rw [List.foldlM_cons, Action.outcome_bind_error first]
          exact ⟨[⟨ops, .error f⟩], .failed ops f, logged⟩
      | ok s =>
          rw [List.foldlM_cons, Action.outcome_bind_ok first]
          have opened : ({ db with engine } : Database (Observed σ)).closed = false := opened
          obtain ⟨made, course, rest⟩ := ih (total.merge s) opened
          refine ⟨⟨ops, .ok s⟩ :: made, .sent ops s course, ?_⟩
          rw [rest, logged, List.append_assoc]
          rfl

/-- A call sends mutations in pieces of a size, and answers with some of what they have done together. -/
def SendsInPieces {α : Type} (size : Nat) (ops : List Mutation) (answer : Summary → α)
    (a : Action (Database (Observed σ)) α) (db : Database (Observed σ)) : Prop :=
  ∃ pieces made result, Cut size ops pieces ∧ Submitted pieces made result ∧ (a.outcome db).1 = answer <$> result ∧
    (a.outcome db).2.engine.exchanges = db.engine.exchanges ++ made.map Submission.exchange

theorem submit_sendsInPieces {db : Database (Observed σ)} (opened : db.closed = false) (ops : List Mutation)
    {size : Nat} (positive : 0 < size) : SendsInPieces size ops id (submit ops size) db := by
  obtain ⟨made, course, logged⟩ := pieces_course (chunks size ops) .empty opened
  rw [← submit_opened opened] at course logged
  exact ⟨_, made, _, chunks_cut positive ops, course.submitted, (id_map _).symm, logged⟩

end
end Database
end GraphClient
