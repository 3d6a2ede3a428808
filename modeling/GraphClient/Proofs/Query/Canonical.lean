import GraphClient.Proofs.Query.Accumulation

/-!
The form of the predicate of a built query. Its groups always have two or more arguments. Joining flattens what it
joins, but a group that is nested as it is written stays nested, so that the form is normal only if none is.
-/
namespace GraphClient

theorem Edited.filled {b d : Builder} {es : List Edit} (h : Edited b es d) :
    ∀ a ∈ es.filterMap Edit.attachment?, a.written.Filled := by
  induction h with
  | nil => simp
  | @cons b e es d allowed _ ih =>
      intro a member
      obtain ⟨e', found, asked⟩ := List.mem_filterMap.mp member
      rcases List.mem_cons.mp found with rfl | later
      · cases e' with
        | ask mode p =>
            obtain ⟨_, _, admissible⟩ := allowed
            cases asked
            exact admissible.filled
        | _ => cases asked
      · exact ih a (List.mem_filterMap.mpr ⟨e', later, asked⟩)

namespace Attachment

theorem wide_join {asked : Option Predicate} {a : Attachment} (filled : a.written.Filled)
    (h : ∀ p ∈ asked, p.Wide) : ∀ p ∈ join asked a, p.Wide := by
  rintro _ ⟨⟩
  cases asked with
  | none => exact filled.wide_collapse
  | some q => exact (h q rfl).join filled.wide_collapse a.mode

theorem flat_join_iff {asked : Option Predicate} {a : Attachment} (filled : a.written.Filled) :
    (∀ p ∈ join asked a, p.Flat) ↔ (∀ p ∈ asked, p.Flat) ∧ a.written.FlatWritten := by
  rw [← filled.flat_collapse_iff]
  cases asked with
  | none => simp [join, Edit.joined]
  | some q => simp [join, Edit.joined, Predicate.flat_join_iff]

theorem wide_foldl_join {as : List Attachment} (filled : ∀ a ∈ as, a.written.Filled) {asked : Option Predicate}
    (h : ∀ p ∈ asked, p.Wide) : ∀ p ∈ as.foldl join asked, p.Wide := by
  induction as generalizing asked with
  | nil => exact h
  | cons a as ih =>
      have first := wide_join (filled a List.mem_cons_self) h
      exact ih (fun b member => filled b (List.mem_cons_of_mem a member)) first

theorem flat_foldl_join_iff {as : List Attachment} (filled : ∀ a ∈ as, a.written.Filled) {asked : Option Predicate} :
    (∀ p ∈ as.foldl join asked, p.Flat) ↔ (∀ p ∈ asked, p.Flat) ∧ ∀ a ∈ as, a.written.FlatWritten := by
  induction as generalizing asked with
  | nil => simp
  | cons a as ih =>
      have rest : ∀ b ∈ as, b.written.Filled := fun b member => filled b (List.mem_cons_of_mem a member)
      rw [List.foldl_cons, ih rest, flat_join_iff (filled a List.mem_cons_self), List.forall_mem_cons, and_assoc]

end Attachment

namespace Builder

/-- No group of a built predicate has fewer than two arguments, and the predicate is normal exactly if nothing that was
attached was written with a group that collapses into a group of its own mode. -/
theorem build_predicate_normal_iff (schema : Option Schema) (calls : List Call) :
    let asked := ((new schema).after calls).build.predicate
    (∀ p ∈ asked, p.Wide) ∧
      ((∀ p ∈ asked, p.Normal) ↔ ∀ a ∈ (new schema).attachments calls, a.written.FlatWritten) := by
  intro asked
  have whole : asked = _ := predicate_after schema calls
  obtain ⟨es, edited, attached⟩ := (new schema).after_edited calls
  have filled := edited.filled
  rw [attached] at filled
  have wide : ∀ p ∈ asked, p.Wide := by
    rw [whole]
    exact Attachment.wide_foldl_join filled (by simp)
  have flat : (∀ p ∈ asked, p.Flat) ↔ ∀ a ∈ (new schema).attachments calls, a.written.FlatWritten := by
    rw [whole, Attachment.flat_foldl_join_iff filled]
    simp
  refine ⟨wide, Iff.trans ⟨fun normal p member => (normal p member).2, fun flat p member => ?_⟩ flat⟩
  exact ⟨wide p member, flat p member⟩

theorem nested_conjunction_stays : ¬ ∀ (schema : Option Schema) (calls : List Call),
    ∀ p ∈ ((new schema).after calls).build.predicate, p.Normal := by
  intro normal
  have flat := (normal none
    [.matchTarget (.variable "x" none),
      .whereVar "x" [.group .all [.test "a" .present, .test "b" .present], .test "c" .present]] _ rfl).2
  exact flat .all _ (Predicate.self_mem_parts _) _ List.mem_cons_self

end Builder
end GraphClient
