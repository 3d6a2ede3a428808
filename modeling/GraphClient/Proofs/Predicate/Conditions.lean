import GraphClient.Predicate.Condition
import GraphClient.Proofs.Predicate.NormalForm
import GraphClient.Proofs.Schema.Checks

/-!
Conditions and the predicates that binding makes of them. Binding adds nothing but the variable: it gives what the
condition asks, or it fails.
-/
namespace GraphClient

structure Comparison.Checked (var : String) (check : PropertyCheck) (c : Comparison) : Prop where
  var : c.var = var
  prop : check.check c.prop = .ok c.prop
  test : ∃ operand : Operand, operand.test = .ok c.test

structure Predicate.Admissible (var : String) (check : PropertyCheck) (p : Predicate) : Prop where
  filled : p.Filled
  checked : ∀ c ∈ p.comparisons, c.Checked var check

def Mode.condition : Mode → List Condition → Condition
  | all => .all
  | any => .any

namespace Condition

@[elab_as_elim]
theorem induction_groups {motive : Condition → Prop} (leaf : ∀ prop test, motive (.leaf prop test))
    (group : ∀ (m : Mode) args, (∀ c ∈ args, motive c) → motive (m.condition args))
    (negate : ∀ c, motive c → motive (.negate c)) (c : Condition) : motive c :=
  @Condition.rec motive (fun args => ∀ c ∈ args, motive c) leaf (group .all) (group .any) negate
    (by simp) (fun _ _ first rest => by simpa using ⟨first, rest⟩) c

/-- The conditions that the helpers make. -/
inductive Composed : Condition → Prop
  | ofOperand {prop operand c} : Condition.ofOperand prop operand = .ok c → Composed c
  | conjunction {cs c} : (∀ a ∈ cs, Composed a) → Condition.conjunction cs = .ok c → Composed c
  | disjunction {cs c} : (∀ a ∈ cs, Composed a) → Condition.disjunction cs = .ok c → Composed c
  | negate {c} : Composed c → Composed (.negate c)

theorem conjunction_eq_ok {cs : List Condition} {c : Condition} (h : conjunction cs = .ok c) :
    c ∈ cs ∨ 2 ≤ cs.length ∧ c = Mode.all.condition cs := by
  match cs with
  | [a] => cases h; exact .inl List.mem_cons_self
  | a :: b :: rest => cases h; exact .inr ⟨by simp, rfl⟩

theorem disjunction_eq_ok {cs : List Condition} {c : Condition} (h : disjunction cs = .ok c) :
    c ∈ cs ∨ 2 ≤ cs.length ∧ c = Mode.any.condition cs := by
  match cs with
  | [a] => cases h; exact .inl List.mem_cons_self
  | a :: b :: rest => cases h; exact .inr ⟨by simp, rfl⟩

/-- A composed condition is a tested leaf, a group of two or more, or a negation. -/
@[elab_as_elim]
theorem Composed.induction_groups {motive : Condition → Prop}
    (leaf : ∀ prop (operand : Operand) test, operand.test = .ok test → motive (.leaf prop test))
    (group : ∀ (m : Mode) cs, 2 ≤ cs.length → (∀ c ∈ cs, motive c) → motive (m.condition cs))
    (negate : ∀ c, motive c → motive (.negate c)) {c : Condition} (composed : c.Composed) : motive c := by
  induction composed with
  | @ofOperand prop operand c made =>
      obtain ⟨test, tested, made⟩ := bind_eq_ok.mp made
      obtain ⟨name, _, made⟩ := bind_eq_ok.mp made
      cases made
      exact leaf name operand test tested
  | conjunction _ made ih =>
      rcases conjunction_eq_ok made with member | ⟨two, rfl⟩
      · exact ih _ member
      · exact group .all _ two ih
  | disjunction _ made ih =>
      rcases disjunction_eq_ok made with member | ⟨two, rfl⟩
      · exact ih _ member
      · exact group .any _ two ih
  | negate _ ih => exact negate _ ih

mutual

def asked (var : String) : Condition → Predicate
  | leaf prop test => .leaf ⟨var, prop, test⟩
  | all args => .all (askedItems var args)
  | any args => .any (askedItems var args)
  | negate arg => .negate (asked var arg)

def askedItems (var : String) : List Condition → List Predicate
  | [] => []
  | c :: cs => asked var c :: askedItems var cs

end

theorem askedItems_eq (var : String) (cs : List Condition) : askedItems var cs = cs.map (asked var) := by
  induction cs with
  | nil => rfl
  | cons c cs ih => rw [askedItems, ih, List.map_cons]

theorem asked_group (var : String) (m : Mode) (args : List Condition) :
    (m.condition args).asked var = m.group (args.map (asked var)) := by
  cases m <;> exact congrArg _ (askedItems_eq var args)

theorem bind_group (var : String) (check : PropertyCheck) (m : Mode) (args : List Condition) :
    (m.condition args).bind var check = m.group <$> bindItems var check args := by
  cases m <;> rfl

theorem Composed.wide {c : Condition} (composed : c.Composed) (var : String) : (c.asked var).Wide := by
  refine Composed.induction_groups ?leaf ?group ?negate composed
  case leaf => exact fun prop operand test _ => Predicate.everyGroup_leaf
  case group =>
    intro m cs two ih
    rw [asked_group]
    refine Predicate.everyGroup_group.mpr ⟨by simpa using two, ?_⟩
    exact List.forall_mem_map.mpr ih
  case negate => exact fun c ih => Predicate.everyGroup_negate.mpr ih

theorem Composed.tested {c : Condition} (composed : c.Composed) (var : String) :
    ∀ q ∈ (c.asked var).comparisons, q.var = var ∧ ∃ operand : Operand, operand.test = .ok q.test := by
  refine Composed.induction_groups ?leaf ?group ?negate composed
  case leaf =>
    intro prop operand test tested q member
    rw [List.mem_singleton.mp member]
    exact ⟨rfl, operand, tested⟩
  case group =>
    intro m cs _ ih q member
    rw [asked_group, Predicate.comparisons_group, List.flatMap_map] at member
    obtain ⟨c, hc, inner⟩ := List.mem_flatMap.mp member
    exact ih c hc q inner
  case negate => exact fun c ih => ih

variable {var : String} {check : PropertyCheck}

theorem bindItems_eq (cs : List Condition) : bindItems var check cs = cs.mapM (bind var check) := by
  induction cs with
  | nil => rfl
  | cons c cs ih => rw [bindItems, ih, List.mapM_cons]

theorem bind_spec {c : Condition} {p : Predicate} (bound : c.bind var check = .ok p) :
    p = c.asked var ∧ ∀ q ∈ (c.asked var).comparisons, check.check q.prop = .ok q.prop := by
  induction c using induction_groups generalizing p with
  | leaf prop test =>
      obtain ⟨name, passed, bound⟩ := bind_eq_ok.mp bound
      cases bound
      obtain ⟨rfl, _⟩ := PropertyCheck.check_eq_ok_iff.mp passed
      refine ⟨rfl, fun q member => ?_⟩
      rw [List.mem_singleton.mp member]
      exact passed
  | group m args ih =>
      rw [bind_group, bindItems_eq] at bound
      obtain ⟨ps, items, rfl⟩ := map_eq_ok.mp bound
      obtain ⟨rfl, passed⟩ := mapM_eq_ok (fun c hc p => ih c hc) items
      refine ⟨(asked_group var m args).symm, fun q member => ?_⟩
      rw [asked_group, Predicate.comparisons_group, List.flatMap_map] at member
      obtain ⟨a, ha, inner⟩ := List.mem_flatMap.mp member
      exact passed a ha q inner
  | negate c ih =>
      obtain ⟨q, inner, rfl⟩ := map_eq_ok.mp bound
      obtain ⟨rfl, passed⟩ := ih inner
      exact ⟨rfl, passed⟩

theorem Composed.admissible {c : Condition} (composed : c.Composed) {p : Predicate} (bound : c.bind var check = .ok p) :
    p.Admissible var check := by
  obtain ⟨rfl, passed⟩ := bind_spec bound
  refine ⟨(composed.wide var).filled, fun q member => ?_⟩
  obtain ⟨same, test⟩ := composed.tested var q member
  exact ⟨same, passed q member, test⟩

end Condition
end GraphClient
