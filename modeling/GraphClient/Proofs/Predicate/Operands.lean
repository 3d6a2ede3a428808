import GraphClient.Predicate.Operand
import GraphClient.Proofs.Literal.Encoding
import GraphClient.Proofs.Outcome
import GraphClient.Proofs.Predicate.Reading

/-!
What a caller's operands become. Encoding gives finite floats and instants inside the window, and a test is made only
of operands that have a place in it.
-/
namespace GraphClient

namespace Literal

def OfOneKind (ls : List Literal) : Prop := ∀ l ∈ ls, ∀ m ∈ ls, l.isNull = false → m.isNull = false → l.kind = m.kind

end Literal

namespace Test

/-- Operands that the test has a use for: null has no place in an order, and a list holds values of one kind. -/
def Proper : Test → Prop
  | compare op value => op.ordered = true → value.isNull = false
  | between low high _ _ => low.isNull = false ∧ high.isNull = false
  | oneOf values => values ≠ [] ∧ Literal.OfOneKind values
  | present | isNull | isNotNull => True

structure Sound (t : Test) : Prop where
  proper : t.Proper
  finite : t.Finite
  inWindow : ∀ l ∈ t.literals, l.InWindow

theorem mem_kinds {ls : List Literal} {k : LiteralKind} : k ∈ kinds ls ↔ ∃ l ∈ ls, l.isNull = false ∧ l.kind = k := by
  have isNull_iff : ∀ l : Literal, (l.kind != .null) = true ↔ l.isNull = false := by
    intro l
    cases l <;> simp [Literal.kind, Literal.isNull]
  simp only [kinds, List.mem_filter, List.mem_map]
  constructor
  · rintro ⟨⟨l, member, rfl⟩, some⟩
    exact ⟨l, member, (isNull_iff l).mp some, rfl⟩
  · rintro ⟨l, member, some, rfl⟩
    exact ⟨⟨l, member, rfl⟩, (isNull_iff l).mpr some⟩

theorem mixed?_eq_none_iff {ls : List Literal} : mixed? ls = none ↔ Literal.OfOneKind ls := by
  have pairs : Literal.OfOneKind ls ↔ ∀ k ∈ kinds ls, ∀ k' ∈ kinds ls, k = k' := by
    simp only [mem_kinds, Literal.OfOneKind]
    constructor
    · rintro h _ ⟨l, hl, some, rfl⟩ _ ⟨m, hm, some', rfl⟩
      exact h l hl m hm some some'
    · exact fun h l hl m hm some some' => h _ ⟨l, hl, some, rfl⟩ _ ⟨m, hm, some', rfl⟩
  rw [pairs, mixed?]
  match kinds ls with
  | [] => simp
  | first :: others =>
      simp only [Option.map_eq_none_iff, List.find?_eq_none, bne_iff_ne, ne_eq, not_not, List.forall_mem_cons]
      constructor
      · intro same
        refine ⟨⟨trivial, fun k hk => (same k hk).symm⟩, fun k hk => ⟨same k hk, fun k' hk' => ?_⟩⟩
        exact (same k hk).trans (same k' hk').symm
      · exact fun h k hk => (h.2 k hk).1

theorem sound_of_ofCompare {op : Comparator} {value : Scalar} {t : Test} (h : ofCompare op value = .ok t) : t.Sound := by
  obtain ⟨l, encoded, h⟩ := bind_eq_ok.mp h
  obtain ⟨finite, inWindow⟩ := Scalar.encode_eq_ok encoded
  by_cases null : (op.ordered && l.isNull) = true
  · rw [if_pos null] at h
    cases h
  · rw [if_neg null] at h
    cases h
    refine ⟨fun ordered => ?_, (finite_compare op l).mpr finite, List.forall_mem_singleton.mpr inWindow⟩
    simpa [ordered] using null

theorem sound_of_ofBounds {low high : Scalar} {a b : Bool} {t : Test} (h : ofBounds low high a b = .ok t) : t.Sound := by
  obtain ⟨l, lower, h⟩ := bind_eq_ok.mp h
  obtain ⟨u, upper, h⟩ := bind_eq_ok.mp h
  obtain ⟨finite, inWindow⟩ := Scalar.encode_eq_ok lower
  obtain ⟨finite', inWindow'⟩ := Scalar.encode_eq_ok upper
  by_cases null : (l.isNull || u.isNull) = true
  · rw [if_pos null] at h
    cases h
  · rw [if_neg null] at h
    cases h
    refine ⟨?_, (finite_between l u a b).mpr ⟨finite, finite'⟩, ?_⟩
    · simpa [Proper] using null
    · simp [literals, inWindow, inWindow']

theorem sound_of_ofValues {values : List Scalar} {t : Test} (h : ofValues values = .ok t) : t.Sound := by
  obtain ⟨ls, encoded, h⟩ := bind_eq_ok.mp h
  have each := forall_of_mapM_eq_ok (fun s _ l => Scalar.encode_eq_ok) encoded
  by_cases none : ls.isEmpty = true
  · rw [if_pos none] at h
    cases h
  · rw [if_neg none] at h
    cases mixed : mixed? ls with
    | some pair =>
        rw [mixed] at h
        cases h
    | none =>
        rw [mixed] at h
        cases h
        exact ⟨⟨by simpa using none, mixed?_eq_none_iff.mp mixed⟩, fun l hl => (each l hl).1, fun l hl => (each l hl).2⟩

end Test

/-- Whatever test is made, its operands are sound. -/
theorem Operand.sound {operand : Operand} {t : Test} (h : operand.test = .ok t) : t.Sound := by
  cases operand with
  | compare op value => exact Test.sound_of_ofCompare h
  | between low high a b => exact Test.sound_of_ofBounds h
  | oneOf values => exact Test.sound_of_ofValues h
  | present | isNull | isNotNull =>
      cases h
      exact ⟨trivial, by simp, by simp [Test.literals]⟩

end GraphClient
