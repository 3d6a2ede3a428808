import GraphClient.Proofs.Query.History

/-!
What a built query asks for: everything that was attached, joined from left to right in the order of the calls.
-/
namespace GraphClient

namespace Attachment

def join (asked : Option Predicate) (a : Attachment) : Option Predicate := some (Edit.joined asked a.mode a.written)

variable (truth : Comparison → Bool)

/-- Combines the value so far with that of an attachment; the mode of the first one does not matter. -/
def combine (sofar : Option Bool) (a : Attachment) : Option Bool :=
  match sofar with
  | some v => some (a.mode.both v (a.written.holds truth))
  | none => some (a.written.holds truth)

def leftToRight (as : List Attachment) : Option Bool := as.foldl (combine truth) none

theorem holds_join (asked : Option Predicate) (a : Attachment) :
    (join asked a).map (Predicate.holds truth) = combine truth (asked.map (Predicate.holds truth)) a := by
  cases asked with
  | none => exact congrArg some (Predicate.holds_collapse truth a.written)
  | some q =>
      have value := Predicate.holds_join truth a.mode q a.written.collapse
      rw [Predicate.holds_collapse] at value
      exact congrArg some value

theorem holds_foldl_join (as : List Attachment) (asked : Option Predicate) :
    (as.foldl join asked).map (Predicate.holds truth) =
      as.foldl (combine truth) (asked.map (Predicate.holds truth)) := by
  induction as generalizing asked with
  | nil => rfl
  | cons a as ih => rw [List.foldl_cons, List.foldl_cons, ih, holds_join]

theorem foldl_join_eq_none_iff {as : List Attachment} {asked : Option Predicate} :
    as.foldl join asked = none ↔ asked = none ∧ as = [] := by
  induction as generalizing asked with
  | nil => simp
  | cons a as ih => simp [ih, join]

end Attachment

theorem Edited.predicate_eq {b d : Builder} {es : List Edit} (h : Edited b es d) :
    d.predicate = (es.filterMap Edit.attachment?).foldl Attachment.join b.predicate := by
  induction h with
  | nil => rfl
  | @cons b e es d _ _ ih =>
      rw [ih]
      cases e <;> rfl

namespace Builder

theorem predicate_after (schema : Option Schema) (calls : List Call) :
    ((new schema).after calls).predicate = ((new schema).attachments calls).foldl Attachment.join none := by
  obtain ⟨es, edited, asked⟩ := (new schema).after_edited calls
  rw [edited.predicate_eq, asked]
  rfl

/-- Under every assignment the query asks for the attachments combined from left to right, and it asks for nothing
exactly if nothing is attached. How joins nest leaves the tree the same. -/
theorem build_predicate_meaning (schema : Option Schema) (calls : List Call) :
    let asked := ((new schema).after calls).build.predicate
    let attached := (new schema).attachments calls
    (∀ truth, asked.map (Predicate.holds truth) = Attachment.leftToRight truth attached) ∧
      (asked = none ↔ attached = []) ∧
      ∀ p q r : Predicate, (p.conj q).conj r = p.conj (q.conj r) ∧ (p.disj q).disj r = p.disj (q.disj r) := by
  intro asked attached
  have whole : asked = attached.foldl Attachment.join none := predicate_after schema calls
  refine ⟨fun truth => ?_, ?_, fun p q r => ⟨Mode.all.join_assoc p q r, Mode.any.join_assoc p q r⟩⟩
  · rw [whole]
    exact Attachment.holds_foldl_join truth attached none
  · rw [whole, Attachment.foldl_join_eq_none_iff]
    simp

end Builder
end GraphClient
