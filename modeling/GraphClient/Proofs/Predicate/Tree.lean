import GraphClient.Predicate.Basic

/-!
Predicates as trees. A conjunction or a disjunction is a group of its mode, so that one statement serves both;
`parts` are the predicates at any depth, and `comparisons` the leaves among them.
-/
namespace GraphClient

namespace Predicate

/-- Conjunctions and disjunctions are the two groups, and a claim about their arguments may be taken for granted. -/
@[elab_as_elim]
theorem induction_groups {motive : Predicate → Prop} (leaf : ∀ c, motive (.leaf c))
    (group : ∀ (m : Mode) args, (∀ p ∈ args, motive p) → motive (m.group args))
    (negate : ∀ p, motive p → motive (.negate p)) (p : Predicate) : motive p :=
  @Predicate.rec motive (fun args => ∀ p ∈ args, motive p) leaf (group .all) (group .any) negate
    (by simp) (fun _ _ first rest => by simpa using ⟨first, rest⟩) p

mutual

def parts : Predicate → List Predicate
  | leaf c => [leaf c]
  | all args => all args :: partsOf args
  | any args => any args :: partsOf args
  | negate p => negate p :: parts p

def partsOf : List Predicate → List Predicate
  | [] => []
  | p :: ps => parts p ++ partsOf ps

end

theorem partsOf_eq (ps : List Predicate) : partsOf ps = ps.flatMap parts := by
  induction ps with
  | nil => rfl
  | cons p ps ih => rw [partsOf, ih, List.flatMap_cons]

@[simp] theorem parts_leaf (c : Comparison) : (leaf c).parts = [leaf c] := rfl

@[simp] theorem parts_negate (p : Predicate) : (negate p).parts = negate p :: p.parts := rfl

@[simp] theorem parts_group (m : Mode) (args : List Predicate) :
    (m.group args).parts = m.group args :: args.flatMap parts := by
  cases m <;> exact congrArg _ (partsOf_eq args)

theorem self_mem_parts (p : Predicate) : p ∈ p.parts := by
  cases p <;> exact List.mem_cons_self

def leaf? : Predicate → Option Comparison
  | leaf c => some c
  | _ => none

@[simp] theorem leaf?_group (m : Mode) (args : List Predicate) : (m.group args).leaf? = none := by
  cases m <;> rfl

def comparisons (p : Predicate) : List Comparison := p.parts.filterMap leaf?

@[simp] theorem comparisons_leaf (c : Comparison) : (leaf c).comparisons = [c] := rfl

@[simp] theorem comparisons_negate (p : Predicate) : (negate p).comparisons = p.comparisons := rfl

@[simp] theorem comparisons_group (m : Mode) (args : List Predicate) :
    (m.group args).comparisons = args.flatMap comparisons := by
  rw [comparisons, parts_group, List.filterMap_cons_none (leaf?_group m args), List.filterMap_flatMap]
  rfl

end Predicate

namespace Mode

def operands : Mode → Predicate → List Predicate
  | all => Predicate.conjuncts
  | any => Predicate.disjuncts

theorem group_inj {m n : Mode} {ps qs : List Predicate} : m.group ps = n.group qs ↔ m = n ∧ ps = qs := by
  cases m <;> cases n <;> simp [group]

theorem join_eq (m : Mode) (p q : Predicate) : m.join p q = m.group (m.operands p ++ m.operands q) := by
  cases m <;> rfl

@[simp] theorem operands_group (m : Mode) (args : List Predicate) : m.operands (m.group args) = args := by
  cases m <;> rfl

theorem operands_cases (m : Mode) (p : Predicate) :
    p = m.group (m.operands p) ∨ (m.operands p = [p] ∧ ∀ args, p ≠ m.group args) := by
  cases m <;> cases p <;> simp [operands, group, Predicate.conjuncts, Predicate.disjuncts]

/-- Joins splice on both sides, so that it does not matter which of two is made first. -/
theorem join_assoc (m : Mode) (p q r : Predicate) : m.join (m.join p q) r = m.join p (m.join q r) := by
  simp only [join_eq, operands_group, List.append_assoc]

@[simp] theorem comparisons_join (m : Mode) (p q : Predicate) :
    (m.join p q).comparisons = p.comparisons ++ q.comparisons := by
  have operand : ∀ p : Predicate, (m.operands p).flatMap Predicate.comparisons = p.comparisons := by
    intro p
    rcases m.operands_cases p with whole | single
    · conv => rhs; rw [whole]
      rw [Predicate.comparisons_group]
    · rw [single.1, List.flatMap_singleton]
  rw [join_eq, Predicate.comparisons_group, List.flatMap_append, operand, operand]

end Mode
end GraphClient
