import GraphClient.Proofs.Predicate.Operands
import GraphClient.Proofs.Schema.Admission

/-!
Lists of values that a property is compared with. A list is taken if each value has a literal and the literals are of
one kind apart from nulls, wherever these stand; otherwise the first thing that is wrong decides what the failure says.
-/
namespace GraphClient

def Scalar.EncodeTo (values : List Scalar) (ls : List Literal) : Prop :=
  List.Forall₂ (fun s l => s.encode = .ok l) values ls

namespace Scalar

variable {values : List Scalar} {ls : List Literal}

theorem exists_encodeTo (all : ∀ s ∈ values, s.Encodable) : ∃ ls, EncodeTo values ls := by
  induction values with
  | nil => exact ⟨[], .nil⟩
  | cons s values ih =>
      obtain ⟨here, rest⟩ := List.forall_mem_cons.mp all
      obtain ⟨l, held⟩ := exists_heldBy here
      obtain ⟨ls, encoded⟩ := ih rest
      exact ⟨l :: ls, .cons (encode_eq_ok_iff.mpr ⟨here, held⟩) encoded⟩

theorem EncodeTo.encodable (h : EncodeTo values ls) : ∀ s ∈ values, s.Encodable := by
  induction h with
  | nil => simp
  | cons encoded _ ih => exact List.forall_mem_cons.mpr ⟨(encode_eq_ok_iff.mp encoded).1, ih⟩

theorem EncodeTo.unique {ks : List Literal} (h : EncodeTo values ls) (k : EncodeTo values ks) : ks = ls := by
  have same := (mapM_eq_ok_iff.mpr k).symm.trans (mapM_eq_ok_iff.mpr h)
  cases same
  rfl

theorem EncodeTo.eq_nil_iff (h : EncodeTo values ls) : ls = [] ↔ values = [] := by
  cases h <;> simp

end Scalar

namespace Test

/-! The kinds that clash. -/

section
variable {ls : List Literal} {first other : Literal}

theorem kinds_cons (l : Literal) : kinds (l :: ls) = if l.isNull = true then kinds ls else l.kind :: kinds ls := by
  cases l <;> rfl

theorem kinds_nulls {nulls : List Literal} (null : ∀ l ∈ nulls, l.isNull = true) : kinds (nulls ++ ls) = kinds ls := by
  induction nulls with
  | nil => rfl
  | cons l nulls ih =>
      obtain ⟨here, rest⟩ := List.forall_mem_cons.mp null
      rw [List.cons_append, kinds_cons, if_pos here, ih rest]

theorem find?_kinds (ls : List Literal) (k : LiteralKind) :
    (kinds ls).find? (· != k) = (ls.find? fun l => !(l.isNull || l.kind == k)).map Literal.kind := by
  induction ls with
  | nil => rfl
  | cons l ls ih =>
      rw [kinds_cons]
      by_cases null : l.isNull = true
      · simpa [null] using ih
      · by_cases alike : l.kind = k
        · simpa [null, alike] using ih
        · simp [null, alike]

/-- The first literal that is not null, and the first of another kind. -/
structure Clash (ls : List Literal) (first other : Literal) : Prop where
  leads : FirstOffender (·.isNull = true) ls first
  differs : FirstOffender (fun l => l.isNull = true ∨ l.kind = first.kind) ls other

theorem mixed?_of_leads (h : FirstOffender (·.isNull = true) ls first) :
    mixed? ls = (ls.find? fun l => !(l.isNull || l.kind == first.kind)).map fun other => (first.kind, other.kind) := by
  obtain ⟨nulls, later, split, null, shown⟩ := h
  -- nulls in front of the first kind are not listed
  have listed : kinds ls = first.kind :: kinds later := by
    rw [split, kinds_nulls null, kinds_cons, if_neg shown]
  have passed : (kinds later).find? (· != first.kind) = (kinds ls).find? (· != first.kind) := by
    rw [listed, List.find?_cons_of_neg (by simp)]
  rw [mixed?, listed]
  dsimp only
  rw [passed, find?_kinds, Option.map_map]
  rfl

theorem Clash.mixed? (h : Clash ls first other) : Test.mixed? ls = some (first.kind, other.kind) := by
  have found : (ls.find? fun l => !(l.isNull || l.kind == first.kind)) = some other := by
    rw [find?_eq_some_iff_firstOffender]
    simpa only [Bool.or_eq_true, beq_iff_eq] using h.differs
  rw [mixed?_of_leads h.leads, found]
  rfl

theorem exists_clash (h : ¬ Literal.OfOneKind ls) : ∃ first other, Clash ls first other := by
  have shown : ¬ ∀ l ∈ ls, l.isNull = true := by
    intro null
    apply h
    intro l inside _ _ shown
    rw [null l inside] at shown
    cases shown
  obtain ⟨first, leads⟩ := exists_firstOffender shown
  have mixed : ¬ ∀ l ∈ ls, l.isNull = true ∨ l.kind = first.kind := by
    intro alike
    apply h
    intro l inside m inside' shown shown'
    have left := (alike l inside).resolve_left (by simp [shown])
    have right := (alike m inside').resolve_left (by simp [shown'])
    rw [left, right]
  obtain ⟨other, differs⟩ := exists_firstOffender mixed
  exact ⟨first, other, leads, differs⟩

end

/-- What is wrong with a list, and the failure that says so. A value without a literal counts before anything else. -/
inductive ListFault : List Scalar → Failure → Prop
  | value {values : List Scalar} {s : Scalar} {f : Failure} : FirstOffender Scalar.Encodable values s →
      s.encode = .error f → ListFault values f
  | empty : ListFault [] (.argument .emptyList)
  | kinds {values : List Scalar} {ls : List Literal} {first other : Literal} : Scalar.EncodeTo values ls →
      Clash ls first other → ListFault values (.argument (.mixedKinds first.kind other.kind))

section
variable {values : List Scalar}

theorem ofValues_eq {ls : List Literal} (encoded : Scalar.EncodeTo values ls) :
    ofValues values = if ls.isEmpty then .error (.argument .emptyList)
      else match mixed? ls with
        | some (first, other) => .error (.argument (.mixedKinds first other))
        | none => .ok (.oneOf ls) := by
  have each : values.mapM Scalar.encode = .ok ls := mapM_eq_ok_iff.mpr encoded
  rw [ofValues, each, ok_bind]
  cases ls.isEmpty <;> cases mixed? ls <;> rfl

theorem ofValues_eq_ok_iff {t : Test} : ofValues values = .ok t ↔
    ∃ ls, Scalar.EncodeTo values ls ∧ ls ≠ [] ∧ Literal.OfOneKind ls ∧ t = .oneOf ls := by
  constructor
  · intro made
    obtain ⟨ls, each, _⟩ := bind_eq_ok.mp made
    have encoded : Scalar.EncodeTo values ls := mapM_eq_ok_iff.mp each
    rw [ofValues_eq encoded] at made
    by_cases none : ls.isEmpty = true
    · rw [if_pos none] at made
      cases made
    · rw [if_neg none] at made
      cases mixed : mixed? ls with
      | some pair =>
          rw [mixed] at made
          cases made
      | none =>
          rw [mixed] at made
          cases made
          exact ⟨ls, encoded, by simpa using none, mixed?_eq_none_iff.mp mixed, rfl⟩
  · rintro ⟨ls, encoded, some, alike, rfl⟩
    rw [ofValues_eq encoded, if_neg (by simpa using some), mixed?_eq_none_iff.mpr alike]

theorem ListFault.refused {f : Failure} (h : ListFault values f) : ofValues values = .error f := by
  cases h with
  | value first fails =>
      obtain ⟨before, after, rfl, fine, _⟩ := first
      obtain ⟨ls, encoded⟩ := Scalar.exists_encodeTo fine
      have front : before.mapM Scalar.encode = .ok ls := mapM_eq_ok_iff.mpr encoded
      rw [ofValues, List.mapM_append, front, ok_bind, List.mapM_cons, fails]
      rfl
  | empty => rfl
  | kinds encoded clash =>
      have some := List.ne_nil_of_mem clash.leads.mem
      rw [ofValues_eq encoded, if_neg (by simpa using some), clash.mixed?]

theorem exists_listFault (h : ∀ t, ofValues values ≠ .ok t) : ∃ f, ListFault values f := by
  by_cases all : ∀ s ∈ values, s.Encodable
  · obtain ⟨ls, encoded⟩ := Scalar.exists_encodeTo all
    by_cases none : ls = []
    · rw [encoded.eq_nil_iff] at none
      subst none
      exact ⟨_, .empty⟩
    · have mixed : ¬ Literal.OfOneKind ls := by
        intro alike
        exact h _ (ofValues_eq_ok_iff.mpr ⟨ls, encoded, none, alike, rfl⟩)
      obtain ⟨first, other, clash⟩ := exists_clash mixed
      exact ⟨_, .kinds encoded clash⟩
  · obtain ⟨s, first⟩ := exists_firstOffender all
    cases fails : s.encode with
    | error f => exact ⟨f, .value first fails⟩
    | ok l => exact absurd (Scalar.encode_eq_ok_iff.mp fails).1 first.offends

theorem ofValues_eq_error_iff {f : Failure} : ofValues values = .error f ↔ ListFault values f := by
  constructor
  · intro fails
    have refused : ∀ t, ofValues values ≠ .ok t := by simp [fails]
    obtain ⟨g, fault⟩ := exists_listFault refused
    rw [fault.refused] at fails
    cases fails
    exact fault
  · exact ListFault.refused

structure TakesOneKind (values : List Scalar) : Prop where
  accepted : (∃ t, ofValues values = .ok t) ↔
    values ≠ [] ∧ (∀ s ∈ values, s.Encodable) ∧ ∀ ls, Scalar.EncodeTo values ls → Literal.OfOneKind ls
  kept : ∀ t, ofValues values = .ok t → ∃ ls, Scalar.EncodeTo values ls ∧ t = .oneOf ls
  refused : ∀ f, ofValues values = .error f ↔ ListFault values f

/-- A list is taken as a whole or refused for the first thing that is wrong with it. -/
theorem ofValues_takesOneKind (values : List Scalar) : TakesOneKind values where
  accepted := by
    constructor
    · rintro ⟨t, made⟩
      obtain ⟨ls, encoded, some, alike, _⟩ := ofValues_eq_ok_iff.mp made
      refine ⟨mt encoded.eq_nil_iff.mpr some, encoded.encodable, ?_⟩
      intro ks again
      rw [encoded.unique again]
      exact alike
    · rintro ⟨some, all, alike⟩
      obtain ⟨ls, encoded⟩ := Scalar.exists_encodeTo all
      exact ⟨_, ofValues_eq_ok_iff.mpr ⟨ls, encoded, mt encoded.eq_nil_iff.mp some, alike ls encoded, rfl⟩⟩
  kept t made := by
    obtain ⟨ls, encoded, _, _, rfl⟩ := ofValues_eq_ok_iff.mp made
    exact ⟨ls, encoded, rfl⟩
  refused _ := ofValues_eq_error_iff

example : ofValues [.null, .int 1, .null, .int 2, .string "x", .bool true] =
    .error (.argument (.mixedKinds .int .string)) := rfl

end
end Test
end GraphClient
