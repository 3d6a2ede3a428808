import GraphClient.Proofs.Query.History

/-!
Formulas asked of a variable, in two ways. The helpers make a condition out of a formula, which is bound when it is
attached; as a clause, the formula is checked test by test. The two look at things in different orders, so that they
may fail with different failures, but they fail for the same formulas and otherwise ask the same.
-/
namespace GraphClient

inductive Formula
  | test (prop : String) (operand : Operand)
  | group (mode : Mode) (args : List Formula)
  | negated (arg : Formula)

namespace Mode

def helper : Mode → List Condition → Except Failure Condition
  | all => Condition.conjunction
  | any => Condition.disjunction

/-- The predicate that a group comes to: none without arguments, and a single one stands for itself. -/
def closed? (m : Mode) : List Predicate → Option Predicate
  | [] => none
  | p :: ps => some (m.collapsed (p :: ps))

end Mode

namespace Formula

@[elab_as_elim]
theorem induction_args {motive : Formula → Prop} (test : ∀ prop operand, motive (.test prop operand))
    (group : ∀ mode args, (∀ t ∈ args, motive t) → motive (.group mode args))
    (negated : ∀ t, motive t → motive (.negated t)) (t : Formula) : motive t :=
  @Formula.rec motive (fun args => ∀ t ∈ args, motive t) test group negated
    (by simp) (fun _ _ first rest => by simpa using ⟨first, rest⟩) t

mutual

def condition : Formula → Except Failure Condition
  | test prop operand => Condition.ofOperand prop operand
  | group mode args => do mode.helper (← conditions args)
  | negated arg => .negate <$> condition arg

def conditions : List Formula → Except Failure (List Condition)
  | [] => .ok []
  | t :: ts => do pure ((← condition t) :: (← conditions ts))

end

mutual

def clause : Formula → Clause
  | test prop operand => .test prop operand
  | group mode args => .group mode (clauses args)
  | negated arg => .negated [clause arg]

def clauses : List Formula → List Clause
  | [] => []
  | t :: ts => clause t :: clauses ts

end

mutual

/-- The predicate that a formula comes to, if all of its tests can be made and no group is empty. -/
def predicate? (var : String) (check : PropertyCheck) : Formula → Option Predicate
  | test prop operand => do
    let t ← operand.test.toOption
    let prop ← (check.check prop).toOption
    pure (.leaf ⟨var, prop, t⟩)
  | group mode args => do mode.closed? (← predicates? var check args)
  | negated arg => .negate <$> predicate? var check arg

def predicates? (var : String) (check : PropertyCheck) : List Formula → Option (List Predicate)
  | [] => some []
  | t :: ts => do pure ((← predicate? var check t) :: (← predicates? var check ts))

end

theorem conditions_eq (ts : List Formula) : conditions ts = ts.mapM condition := by
  induction ts with
  | nil => rfl
  | cons t ts ih => rw [conditions, ih, List.mapM_cons]

theorem predicates?_eq (var : String) (check : PropertyCheck) (ts : List Formula) :
    predicates? var check ts = ts.mapM (predicate? var check) := by
  induction ts with
  | nil => rfl
  | cons t ts ih => rw [predicates?, ih, List.mapM_cons]

/-! By conditions. -/

variable (var : String) (check : PropertyCheck)

theorem toOption_named_bind (prop : String) :
    (PropertyCheck.named prop).toOption.bind (fun name => (check.check name).toOption) = (check.check prop).toOption := by
  rw [← toOption_bind, check.named_bind_check]

theorem toOption_bind_helper (m : Mode) (cs : List Condition) :
    (m.helper cs >>= Condition.bind var check).toOption =
      (cs.mapM fun c => (Condition.bind var check c).toOption).bind m.closed? := by
  match cs with
  | [] => cases m <;> rfl
  | [c] =>
      have alone : m.helper [c] = .ok c := by cases m <;> rfl
      rw [alone, ok_bind]
      cases h : (Condition.bind var check c).toOption <;> simp [h, Mode.closed?, Mode.collapsed]
  | c :: d :: rest =>
      -- Two or more are bound one by one to as many predicates, so that both sides keep the group.
      have several : m.helper (c :: d :: rest) = .ok (m.condition (c :: d :: rest)) := by cases m <;> rfl
      rw [several, ok_bind, Condition.bind_group, toOption_map, Condition.bindItems_eq, toOption_mapM]
      simp only [List.mapM_cons]
      cases (Condition.bind var check c).toOption with
      | none => rfl
      | some p =>
          cases (Condition.bind var check d).toOption with
          | none => rfl
          | some q => cases (rest.mapM fun c => (Condition.bind var check c).toOption) <;> rfl

theorem toOption_bind_condition (t : Formula) :
    (t.condition >>= Condition.bind var check).toOption = t.predicate? var check := by
  induction t using induction_args with
  | test prop operand =>
      simp only [condition, Condition.ofOperand, bind_assoc, pure_bind, Condition.bind, toOption_bind, toOption_pure,
        predicate?, ← toOption_named_bind check prop, Option.bind_eq_bind, Option.bind_assoc, Option.pure_def]
  | group mode args ih =>
      -- The helpers make all arguments before any is bound; bound as soon as it is made, each comes to the same.
      have each : (args.mapM fun t => (condition t).toOption.bind fun c => (Condition.bind var check c).toOption) =
          predicates? var check args := by
        rw [predicates?_eq]
        exact mapM_congr fun t ht => by rw [← ih t ht, toOption_bind]
      calc (condition (.group mode args) >>= Condition.bind var check).toOption
        _ = (conditions args).toOption.bind fun cs => (mode.helper cs >>= Condition.bind var check).toOption := by
          rw [condition, bind_assoc, toOption_bind]
        _ = (args.mapM fun t => (condition t).toOption).bind fun cs =>
            (cs.mapM fun c => (Condition.bind var check c).toOption).bind mode.closed? := by
          simp only [toOption_bind_helper, conditions_eq, toOption_mapM]
        _ = (predicates? var check args).bind mode.closed? := by
          rw [← Option.bind_assoc, mapM_bind_mapM, each]
  | negated t ih =>
      rw [condition, predicate?, ← ih, ← bind_pure_comp]
      simp only [bind_assoc, pure_bind, Condition.bind, toOption_bind, toOption_map]
      cases t.condition <;> rfl

end Formula

/-! By clauses. -/

theorem Mode.toOption_grouped (m : Mode) (ps : List Predicate) :
    (m.grouped ps).toOption.map Predicate.collapse = m.closed? (ps.map Predicate.collapse) := by
  cases ps with
  | nil => rfl
  | cons p ps => exact congrArg some (Predicate.collapse_group m (p :: ps))

namespace Clause

variable (var : String) (check : PropertyCheck)

def added? (body : List Clause) : Option (List Predicate) :=
  (acceptedAll var check body).toOption.map (List.map Predicate.collapse)

theorem added?_singleton (c : Clause) :
    added? var check [c] = (accepted var check c).toOption.map (List.map Predicate.collapse) := by
  rw [added?, acceptedAll]
  cases accepted var check c with
  | error f => rfl
  | ok ps => exact congrArg (fun qs => some (qs.map Predicate.collapse)) (List.append_nil ps)

theorem added?_cons (c : Clause) (cs : List Clause) :
    added? var check (c :: cs) = (added? var check [c]).bind fun ps => (added? var check cs).map (ps ++ ·) := by
  rw [added?_singleton, added?, acceptedAll, added?]
  cases accepted var check c with
  | error f => rfl
  | ok ps =>
      cases acceptedAll var check cs with
      | error f => rfl
      | ok qs => exact congrArg some List.map_append

theorem toOption_grouped (m : Mode) (body : List Clause) :
    (acceptedAll var check body >>= m.grouped).toOption.map Predicate.collapse = (added? var check body).bind m.closed? := by
  rw [added?]
  cases acceptedAll var check body with
  | error f => rfl
  | ok ps => exact m.toOption_grouped ps

theorem added?_test (prop : String) (operand : Operand) : added? var check [test prop operand] =
    operand.test.toOption.bind fun t => (check.check prop).toOption.map fun name => [.leaf ⟨var, name, t⟩] := by
  rw [added?_singleton, accepted]
  cases operand.test with
  | error f => rfl
  | ok t => cases check.check prop <;> rfl

theorem added?_group (m : Mode) (body : List Clause) :
    added? var check [group m body] = ((added? var check body).bind m.closed?).map ([·]) := by
  rw [added?_singleton, accepted, ← toOption_grouped, ← bind_assoc]
  cases acceptedAll var check body >>= m.grouped <;> rfl

theorem added?_negated (body : List Clause) :
    added? var check [negated body] = ((added? var check body).bind Mode.all.closed?).map fun p => [p.negate] := by
  rw [added?_singleton, accepted, ← toOption_grouped, ← bind_assoc]
  cases acceptedAll var check body >>= Mode.all.grouped <;> rfl

theorem toOption_predicate (body : List Clause) :
    (predicate var check body).toOption = (added? var check body).bind Mode.all.closed? := by
  rw [predicate_eq, toOption_map, asked, toOption_grouped]

end Clause

namespace Formula

variable (var : String) (check : PropertyCheck)

theorem added?_clauses {args : List Formula}
    (each : ∀ t ∈ args, Clause.added? var check [t.clause] = (t.predicate? var check).map ([·])) :
    Clause.added? var check (clauses args) = predicates? var check args := by
  induction args with
  | nil => rfl
  | cons t args ih =>
      obtain ⟨first, rest⟩ := List.forall_mem_cons.mp each
      rw [clauses, Clause.added?_cons, first, ih rest, predicates?]
      cases t.predicate? var check with
      | none => rfl
      | some p => cases predicates? var check args <;> rfl

theorem added?_clause (t : Formula) : Clause.added? var check [t.clause] = (t.predicate? var check).map ([·]) := by
  induction t using induction_args with
  | test prop operand =>
      rw [clause, Clause.added?_test, predicate?]
      cases operand.test.toOption with
      | none => rfl
      | some t => cases (check.check prop).toOption <;> rfl
  | group mode args ih =>
      rw [clause, Clause.added?_group, added?_clauses var check ih, predicate?]
      rfl
  | negated t ih =>
      rw [clause, Clause.added?_negated, ih, predicate?]
      cases t.predicate? var check <;> rfl

theorem toOption_predicate_clause (t : Formula) :
    (Clause.predicate var check [t.clause]).toOption = t.predicate? var check := by
  rw [Clause.toOption_predicate, added?_clause]
  cases t.predicate? var check <;> rfl

end Formula

/-! On a scope. -/

namespace Builder

def attachFormula (var : String) (t : Formula) : Action Builder Unit := do attach var (← Action.check t.condition) .all

/-- A variable and the builder that a scope of it is open on. The builder comes from calls, whether they succeed or fail,
and so do the changes made on the scope. -/
inductive Scoped (schema : Option Schema) : Builder → String → Prop
  | nodes {calls label var d} : (Builder.nodes label).outcome ((new schema).after calls) = (.ok var, d) → Scoped schema d var
  | inScope {calls name var d} : (scope name).outcome ((new schema).after calls) = (.ok var, d) → Scoped schema d var
  | call {b var} (c : ScopeCall) : Scoped schema b var → Scoped schema ((c.run var).outcome b).2 var

theorem Scoped.labelled {schema : Option Schema} {b : Builder} {var : String} (opened : Scoped schema b var) :
    ∃ label, b.label? var = some label := by
  induction opened with
  | nodes made => exact nodes_labelled made
  | inScope made => exact scope_labelled made
  | call c _ ih =>
      obtain ⟨label, labelled⟩ := ih
      obtain ⟨es, edited, _⟩ := c.run_refers (declares_of_label labelled)
      -- no call takes a label away
      exact ⟨label, edited.label? labelled⟩

variable {b : Builder} {var label : String}

theorem attachFormula_outcome (labelled : b.label? var = some label) (t : Formula) :
    (attachFormula var t).outcome b =
      (do append (← Action.check (t.condition >>= Condition.bind var (b.propertyCheck var))) .all :
        Action Builder Unit).outcome b := attach_made_outcome labelled t.condition .all

/-- A formula asked on a scope, as a condition that is attached or as a clause: both succeed and leave the same builder, or
both fail and leave the builder as it is. -/
theorem Scoped.condition_agrees_clause {schema : Option Schema} {b : Builder} {var : String}
    (opened : Scoped schema b var) (t : Formula) :
    (∃ p d, t.predicate? var (b.propertyCheck var) = some p ∧ (append p .all).outcome b = (.ok (), d) ∧
      (attachFormula var t).outcome b = (.ok (), d) ∧ (whereVar var [t.clause]).outcome b = (.ok (), d)) ∨
    (t.predicate? var (b.propertyCheck var) = none ∧ (∃ f, (attachFormula var t).outcome b = (.error f, b)) ∧
      ∃ f, (whereVar var [t.clause]).outcome b = (.error f, b)) := by
  obtain ⟨label, labelled⟩ := opened.labelled
  have bound := t.toOption_bind_condition var (b.propertyCheck var)
  have filled := t.toOption_predicate_clause var (b.propertyCheck var)
  rw [attachFormula_outcome labelled, whereVar_outcome (declares_of_label labelled)]
  cases found : t.predicate? var (b.propertyCheck var) with
  | some p =>
      rw [found, toOption_eq_some_iff] at bound filled
      rw [bound, filled]
      exact .inl ⟨p, _, rfl, rfl, rfl, rfl⟩
  | none =>
      rw [found, toOption_eq_none_iff] at bound filled
      obtain ⟨f, bound⟩ := bound
      obtain ⟨f', filled⟩ := filled
      rw [bound, filled]
      exact .inr ⟨rfl, ⟨f, rfl⟩, f', rfl⟩

theorem condition_agrees_clause_nested :
    let schema := Schema.empty.node "User" ["name", "age"]
    let b := ((nodes "User").outcome (new (some schema))).2
    let t : Formula := .group .any [.negated (.group .all [.test "name" .present]), .group .all [.test "age" .isNull]]
    Scoped (some schema) b "a" ∧ ∃ d,
      (append (.any [.negate (.leaf ⟨"a", "name", .present⟩), .leaf ⟨"a", "age", .isNull⟩]) .all).outcome b = (.ok (), d) ∧
        (attachFormula "a" t).outcome b = (.ok (), d) ∧ (whereVar "a" [t.clause]).outcome b = (.ok (), d) := by
  intro schema b t
  have named : ((Builder.nodes "User").outcome (new (some schema))).1.toOption = some "a" := by decide +kernel
  have opened : Scoped (some schema) b "a" :=
    .nodes (show (Builder.nodes "User").outcome ((new (some schema)).after []) = (.ok "a", b) from
      Prod.ext (toOption_eq_some_iff.mp named) rfl)
  have asked : t.predicate? "a" (b.propertyCheck "a") =
      some (.any [.negate (.leaf ⟨"a", "name", .present⟩), .leaf ⟨"a", "age", .isNull⟩]) := rfl
  rcases opened.condition_agrees_clause t with ⟨p, d, found, appended, attached, filled⟩ | ⟨none, _⟩
  · rw [asked] at found
    cases found
    exact ⟨opened, d, appended, attached, filled⟩
  · rw [asked] at none
    cases none

end Builder
end GraphClient
