import GraphClient.Proofs.Predicate.Conditions
import GraphClient.Proofs.Query.Variables

/-!
The changes that calls make to a builder. Each edit says what it does to the builder and, in `Edit.Allowed`, what the
call has checked before; what every allowed edit keeps holds of every builder.
-/
namespace GraphClient

/-- A predicate is asked as it was written; it is collapsed when it is joined to what is there. -/
inductive Edit
  | declare (name : String) (label : Option String) (counter : Nat)
  | follow (source : String) (edgeType : Option String) (name : String) (label : Option String) (counter : Nat)
  | turn (d : Direction)
  | ask (mode : Mode) (p : Predicate)
  | choose (columns : List Projection)
  | add (columns : List Projection)
  | distinct
  | identify (id : Option String)

namespace Edit

def joined (asked : Option Predicate) (mode : Mode) (p : Predicate) : Predicate :=
  match asked with
  | some q => mode.join q p.collapse
  | none => p.collapse

theorem mem_comparisons_joined {asked : Option Predicate} {mode : Mode} {p : Predicate} {c : Comparison} :
    c ∈ (joined asked mode p).comparisons ↔ (∃ q ∈ asked, c ∈ q.comparisons) ∨ c ∈ p.comparisons := by
  cases asked with
  | none => simp [joined, Predicate.comparisons_collapse]
  | some q => simp [joined, Predicate.comparisons_collapse]

def apply (b : Builder) : Edit → Builder
  | declare name label counter =>
    { b with vars := GraphClient.declare name label b.vars, current := some name, counter }
  | follow source edgeType name label counter =>
    { b with
      vars := GraphClient.declare name label b.vars
      current := some name
      counter
      edges := b.edges ++ [⟨source, name, edgeType, b.pending⟩]
      pending := .outgoing }
  | turn d => { b with pending := d }
  | ask mode p => { b with predicate := some (joined b.predicate mode p) }
  | choose columns => { b with projections := columns }
  | add columns => { b with projections := b.projections ++ columns }
  | distinct => { b with distinct := true }
  | identify id => { b with requestId := id }

structure Named (b : Builder) (name : String) (label : Option String) (counter : Nat) : Prop where
  name_shown : Text.isBlank name = false
  label_shown : ∀ l ∈ label, Text.isBlank l = false
  numbered : counter = b.counter ∨ name = autoName b.freshNumber ∧ counter = b.freshNumber + 1

end Edit

/-- A column whose variable is declared, whose property passes and whose name, if it has one, is not blank. -/
inductive Projection.Checked (b : Builder) : Projection → Prop
  | node {var name} : b.Declares var → (∀ n ∈ name, Text.isBlank n = false) → Checked b (.node var name)
  | property {var prop name} : b.Declares var → (b.propertyCheck var).check prop = .ok prop →
      (∀ n ∈ name, Text.isBlank n = false) → Checked b (.property var prop name)

theorem Projection.Checked.declares {b : Builder} {c : Projection} (h : c.Checked b) : b.Declares c.var := by
  cases h with
  | node declared _ => exact declared
  | property declared _ _ => exact declared

/-- What a call has made sure of before it edits the builder. -/
def Edit.Allowed (b : Builder) : Edit → Prop
  | declare name label counter => Named b name label counter
  | follow source edgeType name label counter =>
    b.current = some source ∧ (∀ t ∈ edgeType, Text.isBlank t = false) ∧ Named b name label counter
  | ask _ p => ∃ var, b.Declares var ∧ p.Admissible var (b.propertyCheck var)
  | choose columns | add columns => ∀ c ∈ columns, c.Checked b
  | identify id => ∀ i ∈ id, Text.Trimmed i
  | turn _ | distinct => True

def Edit.Declaring : Edit → Prop
  | declare _ _ _ | follow _ _ _ _ _ => True
  | turn _ | ask _ _ | choose _ | add _ | distinct | identify _ => False

/-- A predicate as it was written, and how it joins what was asked before. -/
structure Attachment where
  mode : Mode
  written : Predicate

def Edit.attachment? : Edit → Option Attachment
  | ask mode p => some ⟨mode, p⟩
  | _ => none

inductive Edited : Builder → List Edit → Builder → Prop
  | nil {b} : Edited b [] b
  | cons {b e es d} : e.Allowed b → Edited (e.apply b) es d → Edited b (e :: es) d

namespace Edited

theorem single {b : Builder} {e : Edit} (allowed : e.Allowed b) : Edited b [e] (e.apply b) := .cons allowed .nil

theorem append {b c d : Builder} {es fs : List Edit} (h : Edited b es c) (k : Edited c fs d) : Edited b (es ++ fs) d := by
  induction h with
  | nil => exact k
  | cons allowed _ ih => exact .cons allowed (ih k)

theorem keeps {P : Builder → Prop} (step : ∀ b (e : Edit), P b → e.Allowed b → P (e.apply b)) {b d : Builder} {es : List Edit}
    (h : Edited b es d) (start : P b) : P d := by
  induction h with
  | nil => exact start
  | cons allowed _ ih => exact ih (step _ _ start allowed)

theorem keeps_of_all {P : Builder → Prop} {kind : Edit → Prop}
    (step : ∀ b (e : Edit), P b → e.Allowed b → kind e → P (e.apply b)) {b d : Builder} {es : List Edit} (h : Edited b es d)
    (all : ∀ e ∈ es, kind e) (start : P b) : P d := by
  induction h with
  | nil => exact start
  | cons allowed _ ih =>
      have first := step _ _ start allowed (all _ List.mem_cons_self)
      exact ih (fun e member => all e (List.mem_cons_of_mem _ member)) first

end Edited

/-! What no edit takes away. -/

theorem Edit.schema_apply (b : Builder) (e : Edit) : (e.apply b).schema = b.schema := by
  cases e <;> rfl

theorem Edit.vars_cases (b : Builder) (e : Edit) :
    (e.apply b).vars = b.vars ∧ (e.apply b).current = b.current ∨
      ∃ name label counter, (e.apply b).vars = GraphClient.declare name label b.vars ∧
        (e.apply b).current = some name ∧ (e.Allowed b → Named b name label counter) := by
  cases e with
  | declare name label counter => exact .inr ⟨name, label, counter, rfl, rfl, id⟩
  | follow _ _ name label counter => exact .inr ⟨name, label, counter, rfl, rfl, fun allowed => allowed.2.2⟩
  | _ => exact .inl ⟨rfl, rfl⟩

theorem Edit.vars_apply {b : Builder} {e : Edit} (quiet : ¬ e.Declaring) : (e.apply b).vars = b.vars := by
  cases e with
  | declare _ _ _ | follow _ _ _ _ _ => exact absurd trivial quiet
  | _ => rfl

theorem Edit.declares_apply {b : Builder} {x : String} (e : Edit) (h : b.Declares x) : (e.apply b).Declares x := by
  unfold Builder.Declares
  rcases e.vars_cases b with ⟨same, _⟩ | ⟨name, label, _, declared, _⟩
  · rw [same]
    exact h
  · rw [declared]
    exact (mem_names_declare name label b.vars).mpr (.inl h)

theorem Edit.declares_declare (b : Builder) (name : String) (label : Option String) (counter : Nat) :
    (Edit.apply b (.declare name label counter)).Declares name :=
  (mem_names_declare name label b.vars).mpr (.inr rfl)

theorem Edit.label?_apply {b : Builder} {x l : String} (e : Edit) (h : b.label? x = some l) :
    (e.apply b).label? x = some l := by
  simp only [Builder.label?, Builder.find?] at h ⊢
  rcases e.vars_cases b with ⟨same, _⟩ | ⟨name, label, _, declared, _⟩
  · rw [same, h]
  · rw [declared]
    by_cases here : x = name
    · subst here
      rw [find?_declare_self, h]
      rfl
    · rw [find?_declare_of_ne name label b.vars here, h]

namespace Edited

variable {b d : Builder} {es : List Edit} (h : Edited b es d)
include h

theorem schema : d.schema = b.schema :=
  h.keeps (P := fun c => c.schema = b.schema) (fun c e same _ => (e.schema_apply c).trans same) rfl

theorem declares {x : String} (declared : b.Declares x) : d.Declares x :=
  h.keeps (P := fun c => c.Declares x) (fun _ e declared _ => e.declares_apply declared) declared

theorem label? {x l : String} (labelled : b.label? x = some l) : d.label? x = some l :=
  h.keeps (P := fun c => c.label? x = some l) (fun _ e kept _ => e.label?_apply kept) labelled

end Edited
end GraphClient
