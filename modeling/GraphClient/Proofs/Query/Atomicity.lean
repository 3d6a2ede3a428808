import GraphClient.Proofs.Query.History

/-!
What failing calls leave behind. A call that fails leaves nothing, and a call that is made of others leaves what those
of them have done that succeeded: the targets before the one that fails, or the calls on a scope but for the failing
ones. In a group, a clause that is attempted and fails might as well not be there.
-/
namespace GraphClient

namespace Action

variable {σ α : Type}

def AtomicAt (a : Action σ α) (s : σ) : Prop := ∀ f t, a.outcome s = (.error f, t) → t = s

theorem atomicAt_of_failed {a : Action σ α} {s : σ} {f : Failure} (h : a.outcome s = (.error f, s)) : a.AtomicAt s := by
  intro g t failed
  rw [h] at failed
  cases failed
  rfl

theorem atomicAt_of_made {a : Action σ α} {s t : σ} {v : α} (h : a.outcome s = (.ok v, t)) : a.AtomicAt s := by
  intro g u failed
  rw [h] at failed
  cases failed

theorem forM_failed {f : α → Action σ PUnit} {l : List α} {s t : σ} {e : Failure}
    (h : (l.forM f).outcome s = (.error e, t)) : ∃ front a rest u, l = front ++ a :: rest ∧
      (front.forM f).outcome s = (.ok ⟨⟩, u) ∧ (f a).outcome u = (.error e, t) := by
  induction l generalizing s with
  | nil => cases h
  | cons a l ih =>
      rw [List.forM_eq_forM, List.forM_cons] at h
      cases first : (f a).outcome s with
      | mk r u =>
          cases r with
          | error e' =>
              rw [outcome_bind_error first] at h
              cases h
              exact ⟨[], a, l, s, rfl, rfl, first⟩
          | ok _ =>
              rw [outcome_bind_ok first] at h
              obtain ⟨front, b, rest, w, rfl, through, failed⟩ := ih h
              refine ⟨a :: front, b, rest, w, rfl, ?_, failed⟩
              rw [List.forM_eq_forM, List.forM_cons]
              exact (outcome_bind_ok first _).trans through

end Action

theorem OneEdit.atomicAt {α : Type} {b : Builder} {a : Action Builder α} {goes : α → Edit → Prop} (h : OneEdit b a goes) :
    a.AtomicAt b := by
  cases h with
  | failed failed => exact Action.atomicAt_of_failed failed
  | made made _ _ => exact Action.atomicAt_of_made made

/-! Clauses: what is attempted and fails is left out. -/

namespace Clause

theorem run_atomicAt (c : Clause) (g : Group) : (run c).AtomicAt g := by
  have shape := run_outcome c g
  cases found : accepted g.var g.check c with
  | error e =>
      rw [found] at shape
      exact Action.atomicAt_of_failed shape
  | ok ps =>
      rw [found] at shape
      exact Action.atomicAt_of_made shape

theorem runAll_append (cs ds : List Clause) : runAll (cs ++ ds) = (do runAll cs; runAll ds) := by
  induction cs with
  | nil => rfl
  | cons c cs ih => rw [List.cons_append, runAll, ih, runAll, bind_assoc]

theorem runAll_singleton (c : Clause) : runAll [c] = run c := bind_pure_unit

mutual

/-- A clause without the attempts in it that fail; those that succeed stand without their attempt. -/
def settled (g : Group) : Clause → List Clause
  | test prop operand => [test prop operand]
  | group mode body => [group mode (settledAll (g.nested mode) body)]
  | negated body => [negated (settledAll (g.nested .all) body)]
  | fail cause => [fail cause]
  | attempt c => (run c).ifMade g fun _ _ => settled g c

def settledAll (g : Group) : List Clause → List Clause
  | [] => []
  | c :: cs => settled g c ++ settledAll ((run c).outcome g).2 cs

end

theorem inner_congr {g : Group} {m : Mode} {fill fill' : Action Group Unit}
    (same : fill.outcome (g.nested m) = fill'.outcome (g.nested m)) (wrap : Predicate → Predicate) :
    (do let p ← Group.inner m fill; modify (·.push (wrap p)) : Action Group Unit).outcome g =
      (do let p ← Group.inner m fill'; modify (·.push (wrap p)) : Action Group Unit).outcome g := by
  simp only [Group.inner, Action.outcome_bind, Action.outcome_get, same]

theorem runAll_settledAll_of {body : List Clause}
    (each : ∀ c ∈ body, ∀ g, (runAll (settled g c)).outcome g = (run c).outcome g) (g : Group) :
    (runAll (settledAll g body)).outcome g = (runAll body).outcome g := by
  induction body generalizing g with
  | nil => rfl
  | cons c body ih =>
      have first := each c List.mem_cons_self g
      rw [settledAll, runAll_append, runAll, Action.outcome_bind, Action.outcome_bind, first]
      cases (run c).outcome g with
      | mk r d =>
          cases r with
          | error e => rfl
          | ok _ => exact ih (fun d hd => each d (List.mem_cons_of_mem c hd)) d

theorem runAll_settled (c : Clause) (g : Group) : (runAll (settled g c)).outcome g = (run c).outcome g := by
  induction c using induction_bodies generalizing g with
  | test prop operand => exact congrArg (·.outcome g) (runAll_singleton _)
  | group mode body ih =>
      rw [settled, runAll_singleton]
      exact inner_congr (runAll_settledAll_of ih (g.nested mode)) id
  | negated body ih =>
      rw [settled, runAll_singleton]
      exact inner_congr (runAll_settledAll_of ih (g.nested .all)) .negate
  | fail cause => rfl
  | attempt c ih =>
      rw [settled, Action.ifMade, run, Action.outcome_discard_attempt]
      have atomic := run_atomicAt c g
      cases here : (run c).outcome g with
      | mk r d =>
          cases r with
          | error e => exact congrArg (Except.ok (), ·) (atomic e d here).symm
          | ok _ => exact (ih g).trans here

end Clause

/-- What is left of clauses that fail: nothing is queued by one that does, and leaving out those that are attempted and
fail, however deep they stand, comes to the same. -/
structure Group.FailsCleanly (g : Group) : Prop where
  clause : ∀ c : Clause, c.run.AtomicAt g
  attempts : ∀ body, (Clause.runAll (Clause.settledAll g body)).outcome g = (Clause.runAll body).outcome g

theorem Group.failsCleanly (g : Group) : g.FailsCleanly where
  clause c := c.run_atomicAt g
  attempts _ := Clause.runAll_settledAll_of (fun c _ => c.runAll_settled) g

/-! Calls on builders. -/

namespace Builder

namespace ScopeCall

variable (var : String)

theorem run_atomicAt (c : ScopeCall) (b : Builder) : (c.run var).AtomicAt b := by
  cases c with
  | attach condition mode => exact (b.attach_oneEdit var condition.2 mode).atomicAt
  | whereWith clauses => exact (b.whereVar_oneEdit var clauses).atomicAt
  | select props =>
      rcases b.selectProperties_outcome var props with ⟨f, failed⟩ | ⟨columns, _, made⟩
      · exact Action.atomicAt_of_failed failed
      · exact Action.atomicAt_of_made made
  | distinct => exact b.distinctRows_oneEdit.atomicAt
  | direction d => exact (b.direction_oneEdit d).atomicAt
  | request id => exact (b.request_oneEdit id).atomicAt
  | fail cause => exact Action.atomicAt_of_failed (f := cause) rfl
  | attempt call => exact Action.atomicAt_of_made (Action.outcome_discard_attempt (call.run var) b)

def made (b : Builder) : ScopeCall → List ScopeCall
  | attempt call => call.made b
  | call => (call.run var).ifMade b fun _ _ => [call]

def madeAll (b : Builder) : List ScopeCall → List ScopeCall
  | [] => []
  | c :: cs => c.made var b ++ (c.run var).ifMade b fun _ d => madeAll d cs

theorem runAll_append (cs ds : List ScopeCall) : runAll var (cs ++ ds) = (do runAll var cs; runAll var ds) := by
  induction cs with
  | nil => rfl
  | cons c cs ih => rw [List.cons_append, runAll, ih, runAll, bind_assoc]

theorem runAll_ifMade (c : ScopeCall) (b : Builder) : (runAll var ((c.run var).ifMade b fun _ _ => [c])).outcome b =
    (.ok (), ((c.run var).outcome b).2) := by
  have atomic := c.run_atomicAt var b
  rw [Action.ifMade]
  cases here : (c.run var).outcome b with
  | mk r d =>
      cases r with
      | error f => exact congrArg (Except.ok (), ·) (atomic f d here).symm
      | ok _ => exact Action.outcome_bind_ok here _

theorem runAll_made (c : ScopeCall) (b : Builder) :
    (runAll var (c.made var b)).outcome b = (.ok (), ((c.run var).outcome b).2) := by
  induction c with
  | attempt call ih => exact ih
  | _ => exact runAll_ifMade var _ b

theorem runAll_madeAll (body : List ScopeCall) (b : Builder) :
    (runAll var (madeAll var b body)).outcome b = (.ok (), ((runAll var body).outcome b).2) := by
  induction body generalizing b with
  | nil => rfl
  | cons c body ih =>
      rw [madeAll, runAll_append, Action.outcome_bind_ok (runAll_made var c b), runAll, Action.outcome_bind, Action.ifMade]
      cases (c.run var).outcome b with
      | mk r d =>
          cases r with
          | error f => rfl
          | ok _ => exact ih d

end ScopeCall

def madeInScope (b : Builder) (name : String) (body : List ScopeCall) : List ScopeCall :=
  (scope name).ifMade b fun var d => ScopeCall.madeAll var d body

structure FailsCleanly (b : Builder) : Prop where
  nodes : ∀ label, (Builder.nodes label).AtomicAt b
  matchTarget : ∀ target, (Builder.matchTarget target).AtomicAt b
  traverse : ∀ edgeType target, (Builder.traverse edgeType target).AtomicAt b
  whereVar : ∀ name clauses, (Builder.whereVar name clauses).AtomicAt b
  select : ∀ columns, (Builder.select columns).AtomicAt b
  request : ∀ id, (Builder.request id).AtomicAt b
  scopeCall : ∀ var (c : ScopeCall), (c.run var).AtomicAt b
  /-- Without a target there is nothing to do; otherwise one of them fails behind others that match. -/
  matchAll : ∀ targets f d, (Builder.matchAll targets).outcome b = (.error f, d) → targets = [] ∧ d = b ∨
    ∃ front target rest, targets = front ++ target :: rest ∧
      (front.forM Builder.matchTarget).outcome b = (.ok ⟨⟩, d) ∧ (Builder.matchTarget target).outcome d = (.error f, d)
  inScope : ∀ name body f d, (withScope name fun var => ScopeCall.runAll var body).outcome b = (.error f, d) →
    (ScopeCall.runAll name (b.madeInScope name body)).outcome b = (.ok (), d)

theorem matchAll_failed {b d : Builder} {targets : List Target} {f : Failure}
    (h : (matchAll targets).outcome b = (.error f, d)) : targets = [] ∧ d = b ∨
      ∃ front target rest, targets = front ++ target :: rest ∧
        (front.forM matchTarget).outcome b = (.ok ⟨⟩, d) ∧ (matchTarget target).outcome d = (.error f, d) := by
  cases through : (targets.forM matchTarget : Action Builder PUnit).outcome b with
  | mk r c =>
      cases r with
      | error e =>
          rw [matchAll, Action.outcome_bind_error through] at h
          cases h
          obtain ⟨front, target, rest, u, split, before, failed⟩ := Action.forM_failed through
          obtain rfl := (u.matchTarget_oneEdit target).atomicAt f d failed
          exact .inr ⟨front, target, rest, split, before, failed⟩
      | ok _ =>
          rw [matchAll, Action.outcome_bind_ok through] at h
          cases targets with
          | nil =>
              cases through
              cases h
              exact .inl ⟨rfl, rfl⟩
          | cons => cases h

theorem inScope_madeInScope (b : Builder) (name : String) (body : List ScopeCall) :
    (ScopeCall.runAll name (b.madeInScope name body)).outcome b =
      (.ok (), ((withScope name fun var => ScopeCall.runAll var body).outcome b).2) := by
  rw [madeInScope, Action.ifMade, withScope, Action.outcome_bind]
  rcases b.scope_outcome name with ⟨f, failed⟩ | ⟨entered, _⟩
  · rw [failed]
    rfl
  · rw [entered]
    exact ScopeCall.runAll_madeAll name body b

/-- Whatever state a builder or a group is in, calls that fail leave nothing behind, and those that are made of other
calls leave what has succeeded. -/
theorem failures_leave_nothing (b : Builder) (g : Group) : b.FailsCleanly ∧ g.FailsCleanly := by
  refine ⟨?_, g.failsCleanly⟩
  exact {
    nodes := fun label => (b.nodes_oneEdit label).atomicAt
    matchTarget := fun target => (b.matchTarget_oneEdit target).atomicAt
    traverse := fun edgeType target => (b.traverse_oneEdit edgeType target).atomicAt
    whereVar := fun name clauses => (b.whereVar_oneEdit name clauses).atomicAt
    select := fun columns => (b.select_oneEdit columns).atomicAt
    request := fun id => (b.request_oneEdit id).atomicAt
    scopeCall := fun var c => c.run_atomicAt var b
    matchAll := fun _ _ _ => matchAll_failed
    inScope := fun name body f d failed => by rw [b.inScope_madeInScope name body, failed] }

end Builder
end GraphClient
