import GraphClient.Proofs.Predicate.Tree

/-!
What a predicate says once the truth of its comparisons is given. Neither joining predicates nor letting a single
argument stand for its group changes what is said.
-/
namespace GraphClient

namespace Mode

def among : Mode → List Bool → Bool
  | all, bs => bs.all id
  | any, bs => bs.any id

def both : Mode → Bool → Bool → Bool
  | all => and
  | any => or

theorem among_singleton (m : Mode) (b : Bool) : m.among [b] = b := by
  cases m <;> simp [among]

theorem among_append (m : Mode) (bs cs : List Bool) : m.among (bs ++ cs) = m.both (m.among bs) (m.among cs) := by
  cases m <;> simp [among, both]

def collapsed (m : Mode) : List Predicate → Predicate
  | [p] => p
  | ps => m.group ps

theorem collapsed_of_two_le {m : Mode} {ps : List Predicate} (two : 2 ≤ ps.length) : m.collapsed ps = m.group ps := by
  match ps with
  | _ :: _ :: _ => rfl

end Mode

namespace Predicate

mutual

/-- The value under an assignment to comparisons: all of a conjunction, any of a disjunction. -/
def holds (truth : Comparison → Bool) : Predicate → Bool
  | leaf c => truth c
  | all args => holdsAll truth args
  | any args => holdsAny truth args
  | negate p => !holds truth p

def holdsAll (truth : Comparison → Bool) : List Predicate → Bool
  | [] => true
  | p :: ps => holds truth p && holdsAll truth ps

def holdsAny (truth : Comparison → Bool) : List Predicate → Bool
  | [] => false
  | p :: ps => holds truth p || holdsAny truth ps

end

variable (truth : Comparison → Bool)

theorem holdsAll_eq (ps : List Predicate) : holdsAll truth ps = ps.all (holds truth) := by
  induction ps with
  | nil => rfl
  | cons p ps ih => rw [holdsAll, ih, List.all_cons]

theorem holdsAny_eq (ps : List Predicate) : holdsAny truth ps = ps.any (holds truth) := by
  induction ps with
  | nil => rfl
  | cons p ps ih => rw [holdsAny, ih, List.any_cons]

theorem holds_negate (p : Predicate) : (negate p).holds truth = !p.holds truth := rfl

theorem holds_group (m : Mode) (args : List Predicate) :
    (m.group args).holds truth = m.among (args.map (holds truth)) := by
  cases m with
  | all => rw [Mode.among, List.all_map]; exact holdsAll_eq truth args
  | any => rw [Mode.among, List.any_map]; exact holdsAny_eq truth args

theorem holds_collapsed (m : Mode) (ps : List Predicate) :
    (m.collapsed ps).holds truth = m.among (ps.map (holds truth)) := by
  match ps with
  | [] => exact holds_group truth m []
  | [p] => exact (m.among_singleton _).symm
  | p :: q :: rest => exact holds_group truth m (p :: q :: rest)

/-- Joining combines the two values: a splice on either side is not seen. -/
theorem holds_join (m : Mode) (p q : Predicate) :
    (m.join p q).holds truth = m.both (p.holds truth) (q.holds truth) := by
  have operand : ∀ p : Predicate, m.among ((m.operands p).map (holds truth)) = p.holds truth := by
    intro p
    rcases m.operands_cases p with whole | single
    · conv => rhs; rw [whole]
      rw [holds_group]
    · rw [single.1]
      exact m.among_singleton _
  rw [m.join_eq, holds_group, List.map_append, m.among_append, operand, operand]

mutual

def collapse : Predicate → Predicate
  | leaf c => leaf c
  | all args => Mode.all.collapsed (collapseAll args)
  | any args => Mode.any.collapsed (collapseAll args)
  | negate p => negate (collapse p)

def collapseAll : List Predicate → List Predicate
  | [] => []
  | p :: ps => collapse p :: collapseAll ps

end

theorem collapseAll_eq (ps : List Predicate) : collapseAll ps = ps.map collapse := by
  induction ps with
  | nil => rfl
  | cons p ps ih => rw [collapseAll, ih, List.map_cons]

@[simp] theorem collapse_leaf (c : Comparison) : (leaf c).collapse = leaf c := rfl

@[simp] theorem collapse_negate (p : Predicate) : (negate p).collapse = negate p.collapse := rfl

theorem collapse_group (m : Mode) (args : List Predicate) :
    (m.group args).collapse = m.collapsed (args.map collapse) := by
  cases m <;> exact congrArg _ (collapseAll_eq args)

theorem holds_collapse (p : Predicate) : p.collapse.holds truth = p.holds truth := by
  induction p using induction_groups with
  | leaf c => rfl
  | group m args ih =>
      have same : (args.map collapse).map (holds truth) = args.map (holds truth) := by
        rw [List.map_map]
        exact List.map_congr_left ih
      rw [collapse_group, holds_collapsed, same, holds_group]
  | negate p ih => rw [collapse_negate, holds_negate, holds_negate, ih]

theorem comparisons_collapsed (m : Mode) (ps : List Predicate) :
    (m.collapsed ps).comparisons = ps.flatMap comparisons := by
  match ps with
  | [] => exact comparisons_group m []
  | [p] => exact (List.flatMap_singleton _ p).symm
  | p :: q :: rest => exact comparisons_group m (p :: q :: rest)

theorem comparisons_collapse (p : Predicate) : p.collapse.comparisons = p.comparisons := by
  induction p using induction_groups with
  | leaf c => rfl
  | group m args ih =>
      rw [collapse_group, comparisons_collapsed, comparisons_group, List.flatMap_map]
      simp only [List.flatMap_def]
      rw [List.map_congr_left ih]
  | negate p ih => simpa using ih

end Predicate
end GraphClient
