import GraphClient.Proofs.Predicate.Operands
import GraphClient.Proofs.Query.History

/-!
Every comparison that a built query asks for can be carried out, whichever calls put it there. No edit takes a
comparison in that a check has not passed, and joining and collapsing make no comparison of their own.
-/
namespace GraphClient

structure Comparison.Sound (c : Comparison) : Prop where
  prop_shown : Text.isBlank c.prop = false
  test : c.test.Sound

theorem Comparison.Checked.sound {var : String} {check : PropertyCheck} {c : Comparison} (h : c.Checked var check) :
    c.Sound := by
  obtain ⟨operand, tested⟩ := h.test
  obtain ⟨_, shown, _⟩ := PropertyCheck.check_eq_ok_iff.mp h.prop
  exact ⟨shown, Operand.sound tested⟩

def Predicate.Sound (p : Predicate) : Prop := ∀ c ∈ p.comparisons, c.Sound

theorem Predicate.Admissible.sound {var : String} {check : PropertyCheck} {p : Predicate} (h : p.Admissible var check) :
    p.Sound := fun c member => (h.checked c member).sound

theorem Predicate.Sound.finite {p : Predicate} (h : p.Sound) : p.Finite := fun c member => (h c member).test.finite

namespace Builder

theorem sound_apply {b : Builder} {e : Edit} (old : ∀ p ∈ b.predicate, p.Sound) (allowed : e.Allowed b) :
    ∀ p ∈ (e.apply b).predicate, p.Sound := by
  cases e with
  | ask mode p =>
      obtain ⟨var, _, admissible⟩ := allowed
      rintro _ ⟨⟩ c member
      rcases Edit.mem_comparisons_joined.mp member with ⟨q, asked, before⟩ | new
      · exact old q asked c before
      · exact admissible.sound c new
  | _ => exact old

theorem sound_after (schema : Option Schema) (calls : List Call) :
    ∀ p ∈ ((new schema).after calls).predicate, p.Sound := by
  obtain ⟨es, edited, _⟩ := (new schema).after_edited calls
  exact edited.keeps (P := fun b => ∀ p ∈ b.predicate, p.Sound) (fun _ _ old allowed => sound_apply old allowed) nofun

/-- The predicate of a query holds sound comparisons only, whatever calls are made and whichever of them fail. -/
theorem build_sound (schema : Option Schema) (calls : List Call) :
    ∀ p ∈ ((new schema).after calls).build.predicate, ∀ c ∈ p.comparisons, c.Sound := sound_after schema calls

def asking : List Call :=
  [.nodes "User" [.whereWith [.group .any [.test "age" (.between (.int 1) (.int 2) true false)]]],
    .inScope "a" [.attach ⟨_, @Condition.Composed.ofOperand "name" (.oneOf [.null, .string "x"]) _ rfl⟩ .all]]

theorem build_sound_asking : ∃ p ∈ ((new none).after asking).build.predicate,
    p.comparisons = [⟨"a", "age", .between (.int 1) (.int 2) true false⟩, ⟨"a", "name", .oneOf [.null, .string "x"]⟩] ∧
      ∀ c ∈ p.comparisons, c.Sound := by
  have asked : Predicate.all [.leaf ⟨"a", "age", .between (.int 1) (.int 2) true false⟩,
      .leaf ⟨"a", "name", .oneOf [.null, .string "x"]⟩] ∈ ((new none).after asking).build.predicate := rfl
  exact ⟨_, asked, rfl, build_sound none asking _ asked⟩

end Builder
end GraphClient
