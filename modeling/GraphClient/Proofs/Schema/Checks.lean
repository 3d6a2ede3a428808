import GraphClient.Proofs.Outcome
import GraphClient.Schema.Basic

/-!
Property checks hand a name back as it was given, and only if it is not blank and, where there is a list, on it.
-/
namespace GraphClient.PropertyCheck

def Allows : PropertyCheck → String → Prop
  | anything, _ => True
  | among _ allowed, prop => allowed.contains prop = true

theorem named_eq_ok_iff {prop name : String} : named prop = .ok name ↔ name = prop ∧ Text.isBlank prop = false := by
  unfold named
  by_cases blank : Text.isBlank prop = true
  · simp [blank]
  · simp [blank, eq_comm]

theorem check_eq_ok_iff {c : PropertyCheck} {prop name : String} :
    c.check prop = .ok name ↔ name = prop ∧ Text.isBlank prop = false ∧ c.Allows prop := by
  unfold check
  rw [bind_eq_ok]
  constructor
  · rintro ⟨given, passed, rest⟩
    obtain ⟨rfl, proper⟩ := named_eq_ok_iff.mp passed
    cases c with
    | anything => cases rest; exact ⟨rfl, proper, trivial⟩
    | among label allowed =>
        by_cases listed : allowed.contains given = true
        · simp only [listed, if_true] at rest
          cases rest
          exact ⟨rfl, proper, listed⟩
        · simp only [listed] at rest
          cases rest
  · rintro ⟨rfl, proper, allows⟩
    refine ⟨name, named_eq_ok_iff.mpr ⟨rfl, proper⟩, ?_⟩
    cases c with
    | anything => rfl
    | among label allowed => exact if_pos allows

/-- The check looks at whether a name is blank once more, to the same end. -/
theorem named_bind_check (c : PropertyCheck) (prop : String) : named prop >>= c.check = c.check prop := by
  cases passed : named prop with
  | error f => rw [check, passed]; rfl
  | ok name =>
      obtain ⟨rfl, _⟩ := named_eq_ok_iff.mp passed
      rfl

end GraphClient.PropertyCheck
