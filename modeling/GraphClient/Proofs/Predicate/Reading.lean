import GraphClient.Predicate.Wire
import GraphClient.Proofs.Literal.RoundTrip
import GraphClient.Proofs.Predicate.NormalForm

/-!
What is read as a predicate: the same from a document and from its normal form, and never a float without a number.
-/
namespace GraphClient

open Wire

namespace Predicate.Written

theorem steady_readBounds : Steady readBounds := by
  intro j faithful bounds
  rcases faithful.normalize_cases with same | ⟨xs, rfl, items⟩ | ⟨ms, rfl, _⟩
  · rw [same]
  · match xs with
    | [] => exact Iff.rfl
    | [a] => simp [Json.normalize, Json.normalizeItems, readBounds, bind_eq_ok]
    | [a, b] =>
        simp only [Json.normalize, Json.normalizeItems, readBounds, bind_eq_ok, Steady.bool a (items a (by simp)),
          Steady.bool b (items b (by simp))]
    | a :: b :: _ :: _ => simp [Json.normalize, Json.normalizeItems, readBounds, bind_eq_ok]
  · exact Iff.rfl

theorem steady_comparison {test : Parts → Reading Test} (h : Parts.Steady test) : Parts.Steady (comparison test) :=
  ((Parts.Steady.required .text 0 "var").map _ |>.seq (.required .text 1 "prop")).seq h

theorem steady_ofKind {arg : Reader Written} (h : Steady arg) (k : PredicateKind) {p : Parts} (faithful : p.Faithful)
    (w : Written) : ofKind arg p.normalize k = .ok w ↔ ofKind arg p k = .ok w := by
  have literal := Literal.steady_read .inside
  cases k with
  | join how => exact Parts.Steady.read (.map _ (.required h.list 0 "args")) 1 faithful w
  | compare op => exact Parts.Steady.read (steady_comparison (.map _ (.required literal 2 "value"))) 3 faithful w
  | between =>
      have low := Parts.Steady.required literal 2 "low"
      have high := Parts.Steady.required literal 3 "high"
      have bounds := Parts.Steady.defaulting steady_readBounds 4 "inclusive" (true, true)
      exact Parts.Steady.read (steady_comparison (((low.map _).seq high).seq bounds)) 5 faithful w
  | oneOf => exact Parts.Steady.read (steady_comparison (.map _ (.required literal.list 2 "values"))) 3 faithful w
  | present | isNull | isNotNull => exact Parts.Steady.read (steady_comparison (.pure _)) 2 faithful w

theorem steady_readWithin (levels : Nat) (place : Place) : Steady (readWithin levels place) := by
  induction levels generalizing place with
  | zero => exact fun _ _ _ => Iff.rfl
  | succ levels ih =>
      exact .tagged (fun k p => ofKind (readWithin levels .inside) p k)
        (fun v _ _ faithful w => steady_ofKind (ih .inside) v.2 faithful w) place "op"

theorem steady_read (place : Place) : Steady (read place) := by
  intro j faithful w
  rw [read, read, faithful.depth_normalize]
  exact steady_readWithin j.depth place j faithful w

end Predicate.Written

/-- What is written counts only if it is a predicate. -/
theorem Predicate.read_eq_ok {place : Place} {j : Json} {p : Predicate} :
    Predicate.read place j = .ok p ↔ ∃ w, Written.read place j = .ok w ∧ w.predicate = .ok p := by
  rw [Predicate.read, bind_eq_ok]
  refine exists_congr fun w => and_congr_right fun _ => ?_
  cases w.predicate <;> simp [pure, Except.pure]

theorem Predicate.steady_read (place : Place) : Steady (Predicate.read place) := by
  intro j faithful p
  simp only [Predicate.read_eq_ok, Written.steady_read place j faithful]

def Test.literals : Test → List Literal
  | compare _ value => [value]
  | between low high _ _ => [low, high]
  | oneOf values => values
  | present | isNull | isNotNull => []

namespace Test

def Finite (t : Test) : Prop := ∀ l ∈ t.literals, l.Finite

@[simp] theorem finite_compare (op : Comparator) (value : Literal) : (compare op value).Finite ↔ value.Finite := by
  simp [Finite, literals]

@[simp] theorem finite_between (low high : Literal) (a b : Bool) :
    (between low high a b).Finite ↔ low.Finite ∧ high.Finite := by
  simp [Finite, literals]

@[simp] theorem finite_oneOf (values : List Literal) : (oneOf values).Finite ↔ ∀ l ∈ values, l.Finite := Iff.rfl

@[simp] theorem finite_present : present.Finite := nofun

@[simp] theorem finite_isNull : isNull.Finite := nofun

@[simp] theorem finite_isNotNull : isNotNull.Finite := nofun

end Test

namespace Predicate

def Finite (p : Predicate) : Prop := ∀ c ∈ p.comparisons, c.test.Finite

theorem finite_leaf {c : Comparison} : (leaf c).Finite ↔ c.test.Finite := by
  simp [Finite]

theorem finite_negate {p : Predicate} : (negate p).Finite ↔ p.Finite := Iff.rfl

theorem finite_group {m : Mode} {args : List Predicate} : (m.group args).Finite ↔ ∀ a ∈ args, a.Finite := by
  simp only [Finite, comparisons_group, List.mem_flatMap]
  exact ⟨fun h a ha c hc => h c ⟨a, ha, hc⟩, fun h c ⟨a, ha, hc⟩ => h a ha c hc⟩

namespace Written

inductive Finite : Written → Prop
  | leaf {c : Comparison} : c.test.Finite → Finite (.leaf c)
  | join {how args} : (∀ w ∈ args, Finite w) → Finite (.join how args)

theorem comparison_eq_done {test : Parts → Reading Test} {p : Parts} {w : Written}
    (done : comparison test p = .done w) : ∃ var prop t, test p = .done t ∧ .leaf ⟨var, prop, t⟩ = w := by
  obtain ⟨f, outer, t, inner, rfl⟩ := Reading.seq_eq_done.mp done
  obtain ⟨g, first, prop, _, rfl⟩ := Reading.seq_eq_done.mp outer
  obtain ⟨var, _, rfl⟩ := Reading.map_eq_done.mp first
  exact ⟨var, prop, t, inner, rfl⟩

theorem finite_of_comparison {test : Parts → Reading Test} {p : Parts} {size : Nat} {w : Written}
    (each : ∀ t, test p = .done t → t.Finite) (done : p.read size (comparison test) = .ok w) : w.Finite := by
  obtain ⟨var, prop, t, inner, rfl⟩ := comparison_eq_done (Parts.read_eq_ok.mp done).1
  exact .leaf (each t inner)

theorem finite_of_ofKind {arg : Reader Written} (h : Yields Finite arg) {k : PredicateKind} {p : Parts}
    (faithful : p.Faithful) {w : Written} (done : ofKind arg p k = .ok w) : w.Finite := by
  have literal := Literal.yields_finite .inside
  cases k with
  | join how =>
      rw [ofKind, Parts.read_eq_ok] at done
      obtain ⟨args, listed, rfl⟩ := Reading.map_eq_done.mp done.1
      exact .join (h.list.required faithful listed)
  | compare op =>
      refine finite_of_comparison (fun t inner => ?_) done
      obtain ⟨l, value, rfl⟩ := Reading.map_eq_done.mp inner
      exact (Test.finite_compare op l).mpr (literal.required faithful value)
  | between =>
      refine finite_of_comparison (fun t inner => ?_) done
      obtain ⟨_, outer, _, _, rfl⟩ := Reading.seq_eq_done.mp inner
      obtain ⟨_, first, high, upper, rfl⟩ := Reading.seq_eq_done.mp outer
      obtain ⟨low, lower, rfl⟩ := Reading.map_eq_done.mp first
      exact (Test.finite_between low high _ _).mpr
        ⟨literal.required faithful lower, literal.required faithful upper⟩
  | oneOf =>
      refine finite_of_comparison (fun t inner => ?_) done
      obtain ⟨ls, values, rfl⟩ := Reading.map_eq_done.mp inner
      exact literal.list.required faithful values
  | present | isNull | isNotNull =>
      refine finite_of_comparison (fun t inner => ?_) done
      cases inner
      simp

theorem yields_finite_readWithin (levels : Nat) (place : Place) : Yields Finite (readWithin levels place) := by
  induction levels generalizing place with
  | zero =>
      intro j _ w done
      cases done
  | succ levels ih =>
      intro j faithful w done
      obtain ⟨⟨k, p⟩, taken, done⟩ := bind_eq_ok.mp done
      exact finite_of_ofKind (ih .inside) (.of_tagged faithful taken) done

theorem yields_finite (place : Place) : Yields Finite (read place) := by
  intro j faithful w done
  exact yields_finite_readWithin j.depth place j faithful w done

end Written
end Predicate
end GraphClient
