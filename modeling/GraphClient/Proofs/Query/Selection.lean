import GraphClient.Proofs.Query.History

/-!
Selections. A selection takes the place of all columns before it, and a scope adds to them. Where there is no schema, a
column that has passed once passes ever after, so that what a query answers with can be selected again.
-/
namespace GraphClient

/-- Without a schema no call takes away what a column was checked for. -/
theorem Projection.Checked.apply {b : Builder} (bare : b.schema = none) (e : Edit) {c : Projection} (h : c.Checked b) :
    c.Checked (e.apply b) := by
  cases h with
  | node declared shown => exact .node (e.declares_apply declared) shown
  | property declared passed shown =>
      refine .property (e.declares_apply declared) ?_ shown
      rw [Builder.propertyCheck, e.schema_apply, bare]
      rwa [Builder.propertyCheck, bare] at passed

namespace Builder

variable {b d : Builder}

theorem select_passes {columns : List Projection} (checked : ∀ c ∈ columns, c.Checked b) :
    (select columns).outcome b = (.ok (), { b with projections := columns }) := by
  have each : ∀ c ∈ columns, ((column c).outcome b).1 = .ok (id c) := by
    intro c member
    rw [column_passes (checked c member), id]
  have read : (columns.mapM column).outcome b = (.ok columns, b) := by
    rw [Action.mapM_reads b.column_reads, mapM_eq_ok_of_forall each, List.map_id]
  exact Action.outcome_bind_ok read _

theorem select_eq_ok_iff {columns : List Projection} : (select columns).outcome b = (.ok (), d) ↔
    (∀ c ∈ columns, c.Checked b) ∧ d = { b with projections := columns } := by
  constructor
  · intro selected
    obtain ⟨_, checked, rfl, rfl⟩ := (b.select_oneEdit columns).edit selected
    exact ⟨checked, rfl⟩
  · rintro ⟨checked, rfl⟩
    exact select_passes checked

theorem selectProperties_eq_ok_iff {var : String} {props : List String} :
    (selectProperties var props).outcome b = (.ok (), d) ↔
      props ≠ [] ∧ (∀ prop ∈ props, (b.propertyCheck var).check prop = .ok prop) ∧
        d = { b with projections := b.projections ++ props.map (.property var · none) } := by
  constructor
  · intro added
    rcases b.selectProperties_outcome var props with ⟨f, failed⟩ | ⟨columns, found, made⟩
    · rw [failed] at added
      cases added
    · rw [made] at added
      cases added
      obtain ⟨passed, rfl⟩ := propertyColumns_eq_ok_iff.mp found
      refine ⟨?_, passed, rfl⟩
      rintro rfl
      cases made
  · rintro ⟨some, passed, rfl⟩
    have found : props.mapM (propertyColumn var (b.propertyCheck var)) = .ok (props.map (.property var · none)) :=
      propertyColumns_eq_ok_iff.mpr ⟨passed, rfl⟩
    have more : (props.map (Projection.property var · none)).isEmpty = false := by simpa using some
    simp only [selectProperties, Action.outcome_bind, Action.outcome_get, mapM_propertyColumn, found, more]
    rfl

/-! Every column of a query has passed, where it was stored and where it stands for a variable. -/

theorem checked_apply {e : Edit} (bare : b.schema = none) (old : ∀ c ∈ b.projections, c.Checked b)
    (allowed : e.Allowed b) : ∀ c ∈ (e.apply b).projections, c.Checked (e.apply b) := by
  intro c member
  apply Projection.Checked.apply bare
  cases e with
  | choose columns => exact allowed c member
  | add columns =>
      rcases List.mem_append.mp member with before | new
      · exact old c before
      · exact allowed c new
  | _ => exact old c member

theorem checked_after (calls : List Call) :
    ∀ c ∈ ((new none).after calls).projections, c.Checked ((new none).after calls) := by
  obtain ⟨es, edited, _⟩ := (new none).after_edited calls
  have kept := edited.keeps (P := fun b => b.schema = none ∧ ∀ c ∈ b.projections, c.Checked b)
    (fun b e old allowed => ⟨(e.schema_apply b).trans old.1, checked_apply old.1 old.2 allowed⟩) ⟨rfl, nofun⟩
  exact kept.2

theorem checked_build (checked : ∀ c ∈ b.projections, c.Checked b) : ∀ c ∈ b.build.projections, c.Checked b := by
  intro c member
  rw [build] at member
  by_cases empty : b.projections.isEmpty = true
  · rw [if_pos empty] at member
    obtain ⟨v, declared, rfl⟩ := List.mem_map.mp member
    exact .node (List.mem_map_of_mem declared) nofun
  · rw [if_neg empty] at member
    exact checked c member

theorem build_written (b : Builder) : { b with projections := b.build.projections }.build = b.build := by
  cases stored : b.projections with
  | nil => cases declared : b.vars <;> simp [build, stored, declared]
  | cons c cs => simp [build, stored]

/-- What selecting does to a builder: the columns that are asked for are stored as they were written, or nothing is. -/
structure Selects (b : Builder) : Prop where
  replaces : ∀ columns d, (select columns).outcome b = (.ok (), d) ↔
    (∀ c ∈ columns, c.Checked b) ∧ d = { b with projections := columns }
  adds : ∀ var props d, (selectProperties var props).outcome b = (.ok (), d) ↔
    props ≠ [] ∧ (∀ prop ∈ props, (b.propertyCheck var).check prop = .ok prop) ∧
      d = { b with projections := b.projections ++ props.map (.property var · none) }

/-- Without a schema, the columns that a query answers with can be selected again, and the query stays as it is. In
every state a selection replaces the columns and a scope adds to them. -/
theorem reselecting_keeps_build :
    (∀ calls, let b := (new none).after calls
      ∃ d, (select b.build.projections).outcome b = (.ok (), d) ∧ d.build = b.build) ∧
    ∀ b : Builder, b.Selects := by
  constructor
  · intro calls b
    have checked : ∀ c ∈ b.build.projections, c.Checked b := checked_build (checked_after calls)
    exact ⟨_, select_passes checked, build_written b⟩
  · intro b
    constructor
    · intro columns d
      exact select_eq_ok_iff
    · intro var props d
      exact selectProperties_eq_ok_iff

end Builder
end GraphClient
