import GraphClient.Proofs.Query.History

/-!
Which built queries conform to the schema. A property is checked once, when it is referred to, against the label that
its variable has then. Without a label nothing is checked, and a label that the variable is given later does not make
up for it.
-/
namespace GraphClient

structure Reference where
  var : String
  prop : String

def Projection.reference? : Projection → Option Reference
  | node _ _ => none
  | property var prop _ => some ⟨var, prop⟩

namespace Query

def references (q : Query) : List Reference :=
  (q.predicate.toList.flatMap Predicate.comparisons).map (fun c => ⟨c.var, c.prop⟩) ++
    q.projections.filterMap Projection.reference?

def label? (q : Query) (name : String) : Option String := (q.vars.find? (·.name == name)).bind (·.label)

theorem mem_references {q : Query} {r : Reference} : r ∈ q.references ↔
    (∃ p ∈ q.predicate, ∃ c ∈ p.comparisons, ⟨c.var, c.prop⟩ = r) ∨ ∃ c ∈ q.projections, c.reference? = some r := by
  simp only [references, List.mem_append, List.mem_map, List.mem_flatMap, List.mem_filterMap, Option.mem_toList]
  constructor
  · rintro (⟨c, ⟨p, asked, member⟩, same⟩ | column)
    · exact .inl ⟨p, asked, c, member, same⟩
    · exact .inr column
  · rintro (⟨p, asked, c, member, same⟩ | column)
    · exact .inl ⟨c, ⟨p, asked, member⟩, same⟩
    · exact .inr column

end Query

def Schema.Admits (s : Schema) (label : Option String) (prop : String) : Prop :=
  ∀ l ∈ label, ∀ allowed ∈ s.nodeProperties? l, allowed.contains prop = true

/-- Every reference is on the list of the label that its variable carries in the query. -/
def Query.Conforms (s : Schema) (q : Query) : Prop := ∀ r ∈ q.references, s.Admits (q.label? r.var) r.prop

theorem Schema.allows_propertyCheck_iff {s : Schema} {label : Option String} {prop : String} :
    (s.propertyCheck label).Allows prop ↔ s.Admits label prop := by
  unfold Schema.Admits Schema.propertyCheck
  cases label with
  | none => simp [PropertyCheck.Allows]
  | some l => cases listed : s.nodeProperties? l <;> simp [PropertyCheck.Allows, listed]

namespace Builder

theorem mem_references_build {b : Builder} {r : Reference} : r ∈ b.build.references ↔
    (∃ p ∈ b.predicate, ∃ c ∈ p.comparisons, ⟨c.var, c.prop⟩ = r) ∨ ∃ c ∈ b.projections, c.reference? = some r := by
  rw [Query.mem_references]
  refine or_congr Iff.rfl ?_
  by_cases empty : b.projections = []
  · -- the columns that stand in for none are whole nodes
    simp [build, empty, Projection.reference?]
  · simp [build, empty]

variable {s : Schema} {b : Builder}

theorem admits_of_check (checks : b.schema = some s) {x prop name : String}
    (passed : (b.propertyCheck x).check prop = .ok name) : s.Admits (b.label? x) prop := by
  obtain ⟨_, _, allows⟩ := PropertyCheck.check_eq_ok_iff.mp passed
  rw [propertyCheck, checks] at allows
  exact Schema.allows_propertyCheck_iff.mp allows

end Builder

theorem Projection.Checked.admits {s : Schema} {b : Builder} (checks : b.schema = some s) {c : Projection}
    (h : c.Checked b) {r : Reference} (shown : c.reference? = some r) : s.Admits (b.label? r.var) r.prop := by
  cases h with
  | node _ _ => cases shown
  | property _ passed _ =>
      cases shown
      exact Builder.admits_of_check checks passed

theorem Edit.references_apply {s : Schema} {b : Builder} (checks : b.schema = some s) {e : Edit} (allowed : e.Allowed b) :
    ∀ r ∈ (e.apply b).build.references, r ∈ b.build.references ∨ s.Admits (b.label? r.var) r.prop := by
  intro r member
  rw [Builder.mem_references_build] at member ⊢
  cases e with
  | ask mode p =>
      rcases member with ⟨_, ⟨⟩, c, compared, rfl⟩ | shown
      · rcases mem_comparisons_joined.mp compared with ⟨q, asked, old⟩ | new
        · exact .inl (.inl ⟨q, asked, c, old, rfl⟩)
        · obtain ⟨var, _, admissible⟩ := allowed
          have good := admissible.checked c new
          rw [← good.var] at good
          exact .inr (Builder.admits_of_check checks good.prop)
      · exact .inl (.inr shown)
  | choose columns =>
      rcases member with asked | ⟨c, chosen, shown⟩
      · exact .inl (.inl asked)
      · exact .inr ((allowed c chosen).admits checks shown)
  | add columns =>
      rcases member with asked | ⟨c, chosen, shown⟩
      · exact .inl (.inl asked)
      · rcases List.mem_append.mp chosen with old | new
        · exact .inl (.inr ⟨c, old, shown⟩)
        · exact .inr ((allowed c new).admits checks shown)
  | _ => exact .inl member

namespace Builder

variable {s : Schema} {b d : Builder} {attached : List Attachment}

theorem Introduces.references (h : b.Introduces d) : ∀ r ∈ d.build.references, r ∈ b.build.references := by
  obtain ⟨es, edited, introducing⟩ := h
  refine edited.keeps_of_all (P := fun c => ∀ r ∈ c.build.references, r ∈ b.build.references) ?_ introducing fun _ => id
  intro c e old _ introducing r member
  refine old r ?_
  rw [mem_references_build] at member ⊢
  cases e with
  | declare _ _ _ | follow _ _ _ _ _ => exact member
  | _ => cases introducing

theorem Refers.references (checks : b.schema = some s) (h : b.Refers attached d) :
    ∀ r ∈ d.build.references, r ∈ b.build.references ∨ s.Admits (d.label? r.var) r.prop := by
  obtain ⟨es, edited, quiet, _⟩ := h
  have all : d.schema = some s ∧ d.vars = b.vars ∧
      ∀ r ∈ d.build.references, r ∈ b.build.references ∨ s.Admits (b.label? r.var) r.prop := by
    refine edited.keeps_of_all (P := fun c => c.schema = some s ∧ c.vars = b.vars ∧
      ∀ r ∈ c.build.references, r ∈ b.build.references ∨ s.Admits (b.label? r.var) r.prop) ?_ quiet ?_
    · rintro c e ⟨here, same, old⟩ allowed quiet
      refine ⟨by rw [e.schema_apply, here], by rw [Edit.vars_apply quiet, same], fun r member => ?_⟩
      rcases Edit.references_apply here allowed r member with before | admitted
      · exact old r before
      · rw [label?, find?, same] at admitted
        exact .inr admitted
    · exact ⟨checks, rfl, fun _ => .inl⟩
  obtain ⟨_, same, references⟩ := all
  intro r member
  rw [label?, find?, same]
  exact references r member

theorem Changes.references (checks : b.schema = some s) (h : b.Changes attached d) :
    ∀ r ∈ d.build.references, r ∈ b.build.references ∨ s.Admits (d.label? r.var) r.prop := by
  obtain ⟨c, introduced, referred⟩ := h
  have kept : c.schema = some s := by
    obtain ⟨es, edited, _⟩ := introduced
    exact edited.schema.trans checks
  intro r member
  rcases referred.references kept r member with before | admitted
  · exact .inl (introduced.references r before)
  · exact .inr admitted

/-- A reference that is not on the list of the label it ends with is one that stood without a label after some call. -/
theorem references_after {P : Reference → Prop} (calls : List Call) {b : Builder} (checks : b.schema = some s)
    (stood : ∀ earlier, earlier <+: calls →
      ∀ r ∈ (b.after earlier).build.references, (b.after earlier).label? r.var = none → P r)
    (start : ∀ r ∈ b.build.references, s.Admits (b.label? r.var) r.prop ∨ P r) :
    ∀ r ∈ (b.after calls).build.references, s.Admits ((b.after calls).label? r.var) r.prop ∨ P r := by
  -- a reference is on the list of its label, or it has stood without one
  induction calls generalizing b with
  | nil => exact start
  | cons c calls ih =>
      have changes := b.step_changes c
      obtain ⟨es, edited, _⟩ := changes.edited
      refine ih (edited.schema.trans checks) (fun earlier front => stood (c :: earlier) ?_) fun r member => ?_
      · exact List.cons_prefix_cons.mpr ⟨rfl, front⟩
      · rcases changes.references checks r member with before | admitted
        · cases labelled : b.label? r.var with
          | none => exact .inr (stood [] List.nil_prefix r before labelled)
          | some l =>
              have kept := start r before
              rw [labelled] at kept
              rwa [edited.label? labelled]
        · exact .inl admitted

/-- A built query conforms to the schema exactly if it does so in the references that stood on a variable without a
label after some of the calls; all others are checked against the label they end with. -/
theorem build_conforms_iff (s : Schema) (calls : List Call) :
    let b := (new (some s)).after calls
    b.build.Conforms s ↔ ∀ earlier, earlier <+: calls →
      let c := (new (some s)).after earlier
      ∀ r ∈ c.build.references, c.build.label? r.var = none → r ∈ b.build.references →
        s.Admits (b.build.label? r.var) r.prop := by
  intro b
  constructor
  · intro conforms earlier _ c r _ _ member
    exact conforms r member
  · intro late r member
    have checked := references_after (P := fun r => r ∈ b.build.references → s.Admits (b.build.label? r.var) r.prop)
      calls rfl late (by simp [new, build, Query.references])
    rcases checked r member with admitted | admitted
    · exact admitted
    · exact admitted member

/-- A label that comes after the reference is not held against it, though the schema is valid. -/
theorem late_label_escapes : ¬ ∀ s : Schema, s.validate = .ok () → ∀ calls : List Call,
    ((new (some s)).after calls).build.Conforms s := by
  intro conforms
  have escaped := conforms (Schema.empty.node "User" ["name", "age"]) rfl
    [.matchTarget (.variable "x" none), .whereVar "x" [.test "email" .present],
      .matchTarget (.variable "x" (some "User"))]
    ⟨"x", "email"⟩ List.mem_cons_self "User" rfl (.ofList ["name", "age"]) rfl
  exact absurd escaped (by decide)

end Builder
end GraphClient
