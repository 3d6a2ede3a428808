import GraphClient.Proofs.Query.History

/-!
Every query that calls can build is well formed, whichever calls fail on the way. The invariant is one of builders:
each part of it is kept by the edits that touch it, and declaring variables takes nothing away from the others.
-/
namespace GraphClient

def Query.names (q : Query) : List String := q.vars.map (·.name)

/-- What an engine may rely on in a query: names and labels show something, and whatever is referred to is declared. -/
structure Query.WellFormed (q : Query) : Prop where
  names_distinct : q.names.Nodup
  names_shown : ∀ x ∈ q.names, Text.isBlank x = false
  labels_shown : ∀ v ∈ q.vars, ∀ l ∈ v.label, Text.isBlank l = false
  types_shown : ∀ e ∈ q.edges, ∀ t ∈ e.edgeType, Text.isBlank t = false
  ends_declared : ∀ e ∈ q.edges, e.source ∈ q.names ∧ e.target ∈ q.names
  columns_declared : ∀ c ∈ q.projections, c.var ∈ q.names
  comparisons_declared : ∀ p ∈ q.predicate, ∀ c ∈ p.comparisons, c.var ∈ q.names
  request_trimmed : ∀ i ∈ q.requestId, Text.Trimmed i

structure Builder.WellFormed (b : Builder) : Prop where
  names_distinct : (b.vars.map (·.name)).Nodup
  names_shown : ∀ x, b.Declares x → Text.isBlank x = false
  labels_shown : ∀ v ∈ b.vars, ∀ l ∈ v.label, Text.isBlank l = false
  types_shown : ∀ e ∈ b.edges, ∀ t ∈ e.edgeType, Text.isBlank t = false
  ends_declared : ∀ e ∈ b.edges, b.Declares e.source ∧ b.Declares e.target
  columns_declared : ∀ c ∈ b.projections, b.Declares c.var
  comparisons_declared : ∀ p ∈ b.predicate, ∀ c ∈ p.comparisons, b.Declares c.var
  request_trimmed : ∀ i ∈ b.requestId, Text.Trimmed i
  current_iff : b.current = none ↔ b.vars = []
  current_declared : ∀ x ∈ b.current, b.Declares x

namespace Builder.WellFormed

theorem new (schema : Option Schema) : (Builder.new schema).WellFormed := by
  constructor <;> simp [Builder.new, Builder.Declares]

variable {b : Builder} {e : Edit} (h : b.WellFormed) (allowed : e.Allowed b)
include h

theorem names_distinct_apply : ((e.apply b).vars.map (·.name)).Nodup := by
  rcases e.vars_cases b with ⟨same, _⟩ | ⟨name, label, _, declared, _⟩
  · rw [same]
    exact h.names_distinct
  · rw [declared]
    exact nodup_names_declare name label b.vars h.names_distinct

theorem current_iff_apply : (e.apply b).current = none ↔ (e.apply b).vars = [] := by
  rcases e.vars_cases b with ⟨same, current⟩ | ⟨name, label, _, declared, current, _⟩
  · rw [same, current]
    exact h.current_iff
  · rw [declared, current]
    have member := (mem_names_declare name label b.vars).mpr (.inr rfl)
    constructor
    · nofun
    · intro empty
      rw [empty] at member
      cases member

theorem current_declared_apply : ∀ x ∈ (e.apply b).current, (e.apply b).Declares x := by
  unfold Builder.Declares
  rcases e.vars_cases b with ⟨same, current⟩ | ⟨name, label, _, declared, current, _⟩
  · rw [same, current]
    exact h.current_declared
  · rw [declared, current]
    rintro _ ⟨⟩
    exact (mem_names_declare name label b.vars).mpr (.inr rfl)

include allowed

theorem names_shown_apply : ∀ x, (e.apply b).Declares x → Text.isBlank x = false := by
  unfold Builder.Declares
  rcases e.vars_cases b with ⟨same, _⟩ | ⟨name, label, _, declared, _, named⟩
  · rw [same]
    exact h.names_shown
  · rw [declared]
    intro x member
    rcases (mem_names_declare name label b.vars).mp member with old | rfl
    · exact h.names_shown x old
    · exact (named allowed).name_shown

theorem labels_shown_apply : ∀ v ∈ (e.apply b).vars, ∀ l ∈ v.label, Text.isBlank l = false := by
  rcases e.vars_cases b with ⟨same, _⟩ | ⟨name, label, _, declared, _, named⟩
  · rw [same]
    exact h.labels_shown
  · rw [declared]
    intro v member l labelled
    rcases mem_labels_declare name label b.vars member labelled with given | ⟨u, old, kept⟩
    · exact (named allowed).label_shown l given
    · exact h.labels_shown u old l kept

theorem types_shown_apply : ∀ e' ∈ (e.apply b).edges, ∀ t ∈ e'.edgeType, Text.isBlank t = false := by
  cases e with
  | follow _ edgeType _ _ _ =>
      intro e' member
      rcases List.mem_append.mp member with old | new
      · exact h.types_shown e' old
      · rw [List.mem_singleton.mp new]
        exact allowed.2.1
  | _ => exact h.types_shown

theorem ends_declared_apply : ∀ e' ∈ (e.apply b).edges, (e.apply b).Declares e'.source ∧ (e.apply b).Declares e'.target := by
  have old : ∀ e' ∈ b.edges, (e.apply b).Declares e'.source ∧ (e.apply b).Declares e'.target := by
    intro e' member
    obtain ⟨source, target⟩ := h.ends_declared e' member
    exact ⟨e.declares_apply source, e.declares_apply target⟩
  cases e with
  | follow source edgeType name label counter =>
      intro e' member
      rcases List.mem_append.mp member with before | new
      · exact old e' before
      · rw [List.mem_singleton.mp new]
        have start := h.current_declared source allowed.1
        exact ⟨(Edit.follow source edgeType name label counter).declares_apply start,
          (mem_names_declare name label b.vars).mpr (.inr rfl)⟩
  | _ => exact old

theorem columns_declared_apply : ∀ c ∈ (e.apply b).projections, (e.apply b).Declares c.var := by
  have old : ∀ c ∈ b.projections, (e.apply b).Declares c.var := fun c member =>
    e.declares_apply (h.columns_declared c member)
  cases e with
  | choose columns => exact fun c member => (allowed c member).declares
  | add columns =>
      intro c member
      rcases List.mem_append.mp member with before | new
      · exact old c before
      · exact (allowed c new).declares
  | _ => exact old

theorem comparisons_declared_apply :
    ∀ p ∈ (e.apply b).predicate, ∀ c ∈ p.comparisons, (e.apply b).Declares c.var := by
  have old : ∀ p ∈ b.predicate, ∀ c ∈ p.comparisons, (e.apply b).Declares c.var := fun p asked c member =>
    e.declares_apply (h.comparisons_declared p asked c member)
  cases e with
  | ask mode p =>
      obtain ⟨var, declared, admissible⟩ := allowed
      rintro _ ⟨⟩ c member
      rcases Edit.mem_comparisons_joined.mp member with ⟨q, asked, before⟩ | new
      · exact old q asked c before
      · rw [(admissible.checked c new).var]
        exact declared
  | _ => exact old

theorem request_trimmed_apply : ∀ i ∈ (e.apply b).requestId, Text.Trimmed i := by
  cases e with
  | identify id => exact allowed
  | _ => exact h.request_trimmed

theorem apply : (e.apply b).WellFormed where
  names_distinct := h.names_distinct_apply
  names_shown := h.names_shown_apply allowed
  labels_shown := h.labels_shown_apply allowed
  types_shown := h.types_shown_apply allowed
  ends_declared := h.ends_declared_apply allowed
  columns_declared := h.columns_declared_apply allowed
  comparisons_declared := h.comparisons_declared_apply allowed
  request_trimmed := h.request_trimmed_apply allowed
  current_iff := h.current_iff_apply
  current_declared := h.current_declared_apply

omit allowed in
theorem build : b.build.WellFormed where
  names_distinct := h.names_distinct
  names_shown := h.names_shown
  labels_shown := h.labels_shown
  types_shown := h.types_shown
  ends_declared := h.ends_declared
  columns_declared := by
    intro c member
    simp only [Builder.build] at member
    by_cases empty : b.projections.isEmpty = true
    · rw [if_pos empty] at member
      obtain ⟨v, declared, rfl⟩ := List.mem_map.mp member
      exact List.mem_map_of_mem declared
    · rw [if_neg empty] at member
      exact h.columns_declared c member
  comparisons_declared := h.comparisons_declared
  request_trimmed := h.request_trimmed

end Builder.WellFormed

theorem Builder.wellFormed_after (schema : Option Schema) (calls : List Call) :
    ((Builder.new schema).after calls).WellFormed := by
  obtain ⟨es, edited, _⟩ := (Builder.new schema).after_edited calls
  exact edited.keeps (P := Builder.WellFormed) (fun _ _ h allowed => h.apply allowed) (.new schema)

/-- Whatever calls are made, and whichever of them fail, the query is well formed; there is a current variable as soon
as there is any, and it is declared. -/
theorem Builder.build_wellFormed (schema : Option Schema) (calls : List Call) :
    let b := (Builder.new schema).after calls
    b.build.WellFormed ∧ (b.current = none ↔ b.build.vars = []) ∧ ∀ x ∈ b.current, x ∈ b.build.names := by
  have h := Builder.wellFormed_after schema calls
  exact ⟨h.build, h.current_iff, h.current_declared⟩

end GraphClient
