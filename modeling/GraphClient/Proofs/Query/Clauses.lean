import GraphClient.Proofs.Predicate.Conditions
import GraphClient.Query.Clause

/-!
Clauses and the predicates they are accepted for. A body queues its accepted clauses one by one; what it comes to is
one group of them, in which single predicates stand for the groups around them.
-/
namespace GraphClient

def Mode.grouped (m : Mode) : List Predicate → Except Failure Predicate
  | [] => .error (.argument .emptyGroup)
  | p :: ps => .ok (m.group (p :: ps))

theorem Mode.grouped_eq_ok {m : Mode} {ps : List Predicate} {p : Predicate} (h : m.grouped ps = .ok p) :
    ps ≠ [] ∧ p = m.group ps := by
  cases ps with
  | nil => cases h
  | cons q qs => cases h; exact ⟨List.cons_ne_nil q qs, rfl⟩

theorem Mode.grouped_of_mem (m : Mode) {ps : List Predicate} {p : Predicate} (member : p ∈ ps) :
    m.grouped ps = .ok (m.group ps) := by
  cases ps with
  | nil => cases member
  | cons q qs => rfl

namespace Clause

@[elab_as_elim]
theorem induction_bodies {motive : Clause → Prop} (test : ∀ prop operand, motive (.test prop operand))
    (group : ∀ mode body, (∀ c ∈ body, motive c) → motive (.group mode body))
    (negated : ∀ body, (∀ c ∈ body, motive c) → motive (.negated body)) (fail : ∀ cause, motive (.fail cause))
    (attempt : ∀ c, motive c → motive (.attempt c)) (c : Clause) : motive c :=
  @Clause.rec motive (fun body => ∀ c ∈ body, motive c) test group negated fail attempt
    (by simp) (fun _ _ first rest => by simpa using ⟨first, rest⟩) c

mutual

/-- The predicates that a clause adds to its group, as written: none if it is attempted and fails. -/
def accepted (var : String) (check : PropertyCheck) : Clause → Except Failure (List Predicate)
  | test prop operand => do
    let t ← operand.test
    let prop ← check.check prop
    pure [.leaf ⟨var, prop, t⟩]
  | group mode body => do pure [← mode.grouped (← acceptedAll var check body)]
  | negated body => do pure [.negate (← Mode.all.grouped (← acceptedAll var check body))]
  | fail cause => .error cause
  | attempt c => match accepted var check c with
    | .ok ps => .ok ps
    | .error _ => .ok []

def acceptedAll (var : String) (check : PropertyCheck) : List Clause → Except Failure (List Predicate)
  | [] => .ok []
  | c :: cs => do pure ((← accepted var check c) ++ (← acceptedAll var check cs))

end

/-- The predicate that a body comes to, as written: all of its accepted clauses. -/
def asked (var : String) (check : PropertyCheck) (body : List Clause) : Except Failure Predicate := do
  Mode.all.grouped (← acceptedAll var check body)

/-! What is accepted is filled, and all its comparisons are checked. -/

variable {var : String} {check : PropertyCheck}

theorem grouped_admissible {m : Mode} {ps : List Predicate} (each : ∀ p ∈ ps, p.Admissible var check) {p : Predicate}
    (h : m.grouped ps = .ok p) : p.Admissible var check := by
  obtain ⟨some, rfl⟩ := Mode.grouped_eq_ok h
  refine ⟨Predicate.everyGroup_group.mpr ⟨some, fun p hp => (each p hp).filled⟩, fun c member => ?_⟩
  rw [Predicate.comparisons_group] at member
  obtain ⟨p, hp, inner⟩ := List.mem_flatMap.mp member
  exact (each p hp).checked c inner

theorem acceptedAll_append (cs ds : List Clause) : acceptedAll var check (cs ++ ds) =
    (do pure ((← acceptedAll var check cs) ++ (← acceptedAll var check ds))) := by
  induction cs with
  | nil => cases shape : acceptedAll var check ds <;> simp [acceptedAll, shape]
  | cons c cs ih => simp only [List.cons_append, acceptedAll, ih, bind_assoc, pure_bind, List.append_assoc]

theorem acceptedAll_admissible {body : List Clause}
    (each : ∀ c ∈ body, ∀ ps, accepted var check c = .ok ps → ∀ p ∈ ps, p.Admissible var check) {ps : List Predicate}
    (h : acceptedAll var check body = .ok ps) : ∀ p ∈ ps, p.Admissible var check := by
  induction body generalizing ps with
  | nil => cases h; simp
  | cons c body ih =>
      obtain ⟨first, here, h⟩ := bind_eq_ok.mp h
      obtain ⟨rest, later, h⟩ := bind_eq_ok.mp h
      cases h
      intro p hp
      rcases List.mem_append.mp hp with hp | hp
      · exact each c List.mem_cons_self first here p hp
      · exact ih (fun d hd => each d (List.mem_cons_of_mem c hd)) later p hp

theorem accepted_admissible (c : Clause) {ps : List Predicate} (h : accepted var check c = .ok ps) :
    ∀ p ∈ ps, p.Admissible var check := by
  induction c using induction_bodies generalizing ps with
  | test prop operand =>
      obtain ⟨t, tested, h⟩ := bind_eq_ok.mp h
      obtain ⟨name, passed, h⟩ := bind_eq_ok.mp h
      cases h
      intro p hp
      rw [List.mem_singleton.mp hp]
      obtain ⟨rfl, _⟩ := PropertyCheck.check_eq_ok_iff.mp passed
      refine ⟨Predicate.everyGroup_leaf, fun c member => ?_⟩
      rw [List.mem_singleton.mp member]
      exact ⟨rfl, passed, operand, tested⟩
  | group mode body ih =>
      obtain ⟨qs, inner, h⟩ := bind_eq_ok.mp h
      obtain ⟨q, grouped, h⟩ := bind_eq_ok.mp h
      cases h
      intro p hp
      rw [List.mem_singleton.mp hp]
      exact grouped_admissible (acceptedAll_admissible (fun c hc ps => ih c hc) inner) grouped
  | negated body ih =>
      obtain ⟨qs, inner, h⟩ := bind_eq_ok.mp h
      obtain ⟨q, grouped, h⟩ := bind_eq_ok.mp h
      cases h
      intro p hp
      rw [List.mem_singleton.mp hp]
      have good := grouped_admissible (acceptedAll_admissible (fun c hc ps => ih c hc) inner) grouped
      exact ⟨Predicate.everyGroup_negate.mpr good.filled, good.checked⟩
  | fail cause => cases h
  | attempt c ih =>
      simp only [accepted] at h
      cases inner : accepted var check c with
      | ok qs =>
          rw [inner] at h
          cases h
          exact ih inner
      | error e =>
          rw [inner] at h
          cases h
          simp

theorem asked_admissible {body : List Clause} {p : Predicate} (h : asked var check body = .ok p) :
    p.Admissible var check := by
  obtain ⟨ps, inner, grouped⟩ := bind_eq_ok.mp h
  exact grouped_admissible (acceptedAll_admissible (fun c _ _ => accepted_admissible c) inner) grouped

/-! Filling a group queues what is accepted, collapsed. -/

def enqueue (g : Group) (ps : List Predicate) : Group := { g with queued := g.queued ++ ps.map Predicate.collapse }

theorem finish_enqueue_nested (g : Group) (m : Mode) (ps : List Predicate) :
    (enqueue (g.nested m) ps).finish = Predicate.collapse <$> m.grouped ps := by
  match ps with
  | [] => rfl
  | [p] => exact congrArg Except.ok (Predicate.collapse_group m [p]).symm
  | p :: q :: rest => exact congrArg Except.ok (Predicate.collapse_group m (p :: q :: rest)).symm

def Fills (g : Group) (fill : Action Group Unit) : Except Failure (List Predicate) → Prop
  | .ok ps => fill.outcome g = (.ok (), enqueue g ps)
  | .error e => (fill.outcome g).1 = .error e

theorem inner_outcome {g : Group} {m : Mode} {fill : Action Group Unit} {found : Except Failure (List Predicate)}
    (fills : Fills (g.nested m) fill found) :
    (Group.inner m fill).outcome g = (Predicate.collapse <$> (found >>= m.grouped), g) := by
  have shape : (Group.inner m fill).outcome g =
      ((fill.outcome (g.nested m)).1 >>= fun _ => (fill.outcome (g.nested m)).2.finish, g) := by
    simp only [Group.inner, Action.outcome_bind, Action.outcome_get, Action.outcome_check]
    cases (fill.outcome (g.nested m)).1 <;> rfl
  rw [shape]
  cases found with
  | ok ps =>
      rw [show fill.outcome (g.nested m) = _ from fills]
      exact congrArg (·, g) (finish_enqueue_nested g m ps)
  | error e =>
      rw [show (fill.outcome (g.nested m)).1 = _ from fills]
      rfl

/-- A group after a clause: a clause that fails leaves it alone. -/
def after (g : Group) : Except Failure (List Predicate) → Except Failure Unit × Group
  | .ok ps => (.ok (), enqueue g ps)
  | .error e => (.error e, g)

theorem enqueue_append (g : Group) (ps qs : List Predicate) : enqueue (enqueue g ps) qs = enqueue g (ps ++ qs) := by
  simp only [enqueue, List.map_append, List.append_assoc]

theorem enqueue_nil (g : Group) : enqueue g [] = g := by
  simp only [enqueue, List.map_nil, List.append_nil]

theorem runAll_fills (body : List Clause)
    (each : ∀ c ∈ body, ∀ g : Group, (run c).outcome g = after g (accepted g.var g.check c)) (g : Group) :
    Fills g (runAll body) (acceptedAll g.var g.check body) := by
  induction body generalizing g with
  | nil => exact congrArg (Except.ok (), ·) (enqueue_nil g).symm
  | cons c body ih =>
      have first := each c List.mem_cons_self g
      simp only [runAll, acceptedAll]
      cases here : accepted g.var g.check c with
      | error e =>
          rw [here] at first
          exact congrArg Prod.fst (Action.outcome_bind_error first _)
      | ok ps =>
          rw [here] at first
          have rest := ih (fun d hd => each d (List.mem_cons_of_mem c hd)) (enqueue g ps)
          change Fills (enqueue g ps) (runAll body) (acceptedAll g.var g.check body) at rest
          cases later : acceptedAll g.var g.check body with
          | error e =>
              rw [later] at rest
              exact (congrArg Prod.fst (Action.outcome_bind_ok first _)).trans rest
          | ok qs =>
              rw [later] at rest
              exact (Action.outcome_bind_ok first _).trans (rest.trans (by rw [enqueue_append]))

theorem inner_push_outcome {g : Group} {m : Mode} {fill : Action Group Unit} {found : Except Failure (List Predicate)}
    (fills : Fills (g.nested m) fill found) (wrap : Predicate → Predicate)
    (collapses : ∀ p, (wrap p).collapse = wrap p.collapse) :
    (do let p ← Group.inner m fill; modify (·.push (wrap p)) : Action Group Unit).outcome g =
      after g (do pure [wrap (← m.grouped (← found))]) := by
  rw [Action.outcome_bind, inner_outcome fills]
  cases found with
  | error e => rfl
  | ok ps =>
      simp only [ok_bind]
      cases m.grouped ps with
      | error e => rfl
      | ok p =>
          change (Except.ok (), g.push (wrap p.collapse)) = (Except.ok (), g.push (wrap p).collapse)
          rw [collapses]

theorem run_outcome (c : Clause) (g : Group) : (run c).outcome g = after g (accepted g.var g.check c) := by
  induction c using induction_bodies generalizing g with
  | test prop operand =>
      simp only [run, Group.test, accepted, Action.outcome_bind, Action.outcome_check, Action.outcome_get]
      cases operand.test with
      | error e => rfl
      | ok t =>
          cases passed : g.check.check prop with
          | error e => simp only [passed]; rfl
          | ok name => simp only [passed]; rfl
  | group mode body ih => exact inner_push_outcome (runAll_fills body ih (g.nested mode)) id fun _ => rfl
  | negated body ih => exact inner_push_outcome (runAll_fills body ih (g.nested .all)) .negate fun _ => rfl
  | fail cause => rfl
  | attempt c ih =>
      simp only [run, accepted, Action.outcome_discard_attempt, ih]
      cases accepted g.var g.check c with
      | ok ps => rfl
      | error e => exact congrArg (Except.ok (), ·) (enqueue_nil g).symm

theorem predicate_eq (var : String) (check : PropertyCheck) (body : List Clause) :
    predicate var check body = Predicate.collapse <$> asked var check body := by
  let g : Group := ⟨var, check, .all, []⟩
  have fills : Fills g (runAll body) (acceptedAll var check body) := runAll_fills body (fun c _ => run_outcome c) g
  have shape : predicate var check body = ((runAll body).outcome g).1 >>= fun _ => ((runAll body).outcome g).2.finish :=
    rfl
  rw [shape, asked]
  cases found : acceptedAll var check body with
  | error e =>
      rw [found] at fills
      rw [show ((runAll body).outcome g).1 = .error e from fills]
      rfl
  | ok ps =>
      rw [found] at fills
      rw [show (runAll body).outcome g = (.ok (), enqueue g ps) from fills]
      exact finish_enqueue_nested g .all ps

end Clause
end GraphClient
