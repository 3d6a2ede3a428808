import GraphClient.Proofs.Query.Conformance
import GraphClient.Proofs.Query.WellFormed

/-!
The ways to refer to a property: a test in a group at any depth, a column, a condition attached on a scope and a column
added on a scope. Each fetches the check of its variable and passes the name through it by itself. On one builder they all
take the name as it is, or all refuse it with one failure, as long as nothing else is wrong with the calls.
-/
namespace GraphClient

/-- A call that does what goes with a name if that is the answer, or fails as the answer does and leaves the state. -/
def Action.Answers {σ : Type} (a : Action σ Unit) (s : σ) (answer : Except Failure String) (effect : String → σ) : Prop :=
  a.outcome s = match answer with
    | .ok name => (.ok (), effect name)
    | .error f => (.error f, s)

theorem Action.answers_bind {σ α : Type} {a : Action σ α} {s : σ} {answer : Except Failure String} {read : String → α}
    (reads : a.outcome s = (read <$> answer, s)) {f : α → Action σ Unit} {effect : String → σ}
    (goes : ∀ name, (f (read name)).outcome s = (.ok (), effect name)) : (a >>= f).Answers s answer effect := by
  cases answer with
  | error e => exact Action.outcome_bind_error reads f
  | ok name => exact (Action.outcome_bind_ok reads f).trans (goes name)

theorem Condition.ofOperand_bind {prop : String} {operand : Operand} {t : Test} (tested : operand.test = .ok t)
    (var : String) (check : PropertyCheck) : Condition.ofOperand prop operand >>= Condition.bind var check =
      (fun name => .leaf ⟨var, name, t⟩) <$> check.check prop := by
  rw [← check.named_bind_check, ofOperand, tested, ok_bind]
  cases PropertyCheck.named prop with
  | error f => rfl
  | ok name => cases shape : check.check name <;> simp [Condition.bind, shape]

/-! Tests at any depth. -/

inductive Group.Reached (var : String) (check : PropertyCheck) : Group → Prop
  | outer : Reached var check ⟨var, check, .all, []⟩
  | clause {g} (c : Clause) : Reached var check g → Reached var check ((Clause.run c).outcome g).2
  | nested {g} (mode : Mode) : Reached var check g → Reached var check (g.nested mode)

theorem Clause.run_keeps (c : Clause) (g : Group) :
    ((run c).outcome g).2.var = g.var ∧ ((run c).outcome g).2.check = g.check := by
  rw [run_outcome]
  cases accepted g.var g.check c <;> exact ⟨rfl, rfl⟩

theorem Group.Reached.keeps {var : String} {check : PropertyCheck} {g : Group} (h : Reached var check g) :
    g.var = var ∧ g.check = check := by
  induction h with
  | outer => exact ⟨rfl, rfl⟩
  | clause c _ ih =>
      obtain ⟨sameVar, sameCheck⟩ := c.run_keeps _
      exact ⟨sameVar.trans ih.1, sameCheck.trans ih.2⟩
  | nested mode _ ih => exact ih

namespace Clause

/-- A body with a hole among its clauses, or in a group or a negation among them. -/
inductive Context
  | here (before after : List Clause)
  | group (mode : Mode) (before : List Clause) (inner : Context) (after : List Clause)
  | negated (before : List Clause) (inner : Context) (after : List Clause)

namespace Context

def fill (c : Clause) : Context → List Clause
  | here before after => before ++ c :: after
  | group mode before inner after => before ++ .group mode (inner.fill c) :: after
  | negated before inner after => before ++ .negated (inner.fill c) :: after

def beside : Context → List Clause
  | here before after => before ++ after
  | group _ before inner after | negated before inner after => before ++ after ++ inner.beside

end Context

def Passes (var : String) (check : PropertyCheck) (c : Clause) : Prop :=
  ((run c).outcome ⟨var, check, .all, []⟩).1 = .ok ()

variable {var : String} {check : PropertyCheck}

theorem Passes.accepted {c : Clause} (h : c.Passes var check) : ∃ ps, accepted var check c = .ok ps := by
  rw [Passes, run_outcome] at h
  cases found : Clause.accepted var check c with
  | ok ps => exact ⟨ps, rfl⟩
  | error f =>
      rw [show Clause.accepted _ _ c = _ from found] at h
      cases h

theorem acceptedAll_passes {cs : List Clause} (each : ∀ c ∈ cs, c.Passes var check) :
    ∃ ps, acceptedAll var check cs = .ok ps := by
  induction cs with
  | nil => exact ⟨[], rfl⟩
  | cons c cs ih =>
      obtain ⟨first, rest⟩ := List.forall_mem_cons.mp each
      obtain ⟨ps, here⟩ := first.accepted
      obtain ⟨qs, later⟩ := ih rest
      exact ⟨ps ++ qs, by rw [acceptedAll, here, later]; rfl⟩

theorem acceptedAll_around {before after : List Clause} (fine : ∀ c ∈ before ++ after, c.Passes var check) :
    ∃ ps qs, ∀ c, acceptedAll var check (before ++ c :: after) = (ps ++ · ++ qs) <$> accepted var check c := by
  obtain ⟨ps, front⟩ := acceptedAll_passes fun c member => fine c (List.mem_append_left after member)
  obtain ⟨qs, back⟩ := acceptedAll_passes fun c member => fine c (List.mem_append_right before member)
  refine ⟨ps, qs, fun c => ?_⟩
  rw [acceptedAll_append, front, acceptedAll, back]
  cases accepted var check c with
  | error f => rfl
  | ok rs => exact congrArg Except.ok (List.append_assoc ps rs qs).symm

/-- What a body asks, as the predicate in its hole varies, and never without that predicate. What fails there fails the
body. -/
structure Asks (var : String) (check : PropertyCheck) (fill : Clause → List Clause) (asks : Predicate → List Predicate) :
    Prop where
  keeps : ∀ p, ∃ q ∈ asks p, p.comparisons ⊆ q.comparisons
  fills : ∀ c x, accepted var check c = ([·]) <$> x → acceptedAll var check (fill c) = asks <$> x

namespace Asks

theorem around {before after : List Clause} (fine : ∀ c ∈ before ++ after, c.Passes var check)
    (place : Clause → Clause) (wrap : Predicate → Predicate) (keeps : ∀ p, p.comparisons ⊆ (wrap p).comparisons)
    (placed : ∀ c x, accepted var check c = ([·]) <$> x → accepted var check (place c) = ([wrap ·]) <$> x) :
    ∃ asks, Asks var check (fun c => before ++ place c :: after) asks := by
  obtain ⟨ps, qs, around⟩ := acceptedAll_around fine
  refine ⟨fun p => ps ++ [wrap p] ++ qs, fun p => ⟨wrap p, by simp, keeps p⟩, fun c x found => ?_⟩
  rw [around, placed c x found]
  cases x <;> rfl

variable {fill : Clause → List Clause} {asks : Predicate → List Predicate} (h : Asks var check fill asks) (m : Mode)
include h

theorem keeps_group (p : Predicate) : p.comparisons ⊆ (m.group (asks p)).comparisons := by
  obtain ⟨q, member, kept⟩ := h.keeps p
  rw [Predicate.comparisons_group]
  exact fun c inside => List.mem_flatMap.mpr ⟨q, member, kept inside⟩

theorem grouped {c : Clause} {x : Except Failure Predicate} (found : accepted var check c = ([·]) <$> x) :
    (acceptedAll var check (fill c) >>= m.grouped) = (fun p => m.group (asks p)) <$> x := by
  rw [h.fills c x found]
  cases x with
  | error f => rfl
  | ok p =>
      obtain ⟨q, member, _⟩ := h.keeps p
      exact m.grouped_of_mem member

end Asks

theorem Context.asks (k : Context) (fine : ∀ c ∈ k.beside, c.Passes var check) :
    ∃ asks, Asks var check k.fill asks := by
  -- on the depth of the hole: what surrounds it passes, so a group comes to what its hole comes to
  induction k with
  | here before after => exact Asks.around fine id id (fun p => List.Subset.refl _) fun c x => id
  | group mode before inner after ih =>
      obtain ⟨asks, inside⟩ := ih fun c member => fine c (List.mem_append_right (before ++ after) member)
      have beside := fun c member => fine c (List.mem_append_left inner.beside member)
      refine Asks.around beside (fun c => .group mode (inner.fill c)) (fun p => mode.group (asks p))
        (inside.keeps_group mode) fun c x found => ?_
      rw [accepted, ← bind_assoc, inside.grouped mode found]
      cases x <;> rfl
  | negated before inner after ih =>
      obtain ⟨asks, inside⟩ := ih fun c member => fine c (List.mem_append_right (before ++ after) member)
      have beside := fun c member => fine c (List.mem_append_left inner.beside member)
      refine Asks.around beside (fun c => .negated (inner.fill c)) (fun p => .negate (Mode.all.group (asks p)))
        (inside.keeps_group .all) fun c x found => ?_
      rw [accepted, ← bind_assoc, inside.grouped .all found]
      cases x <;> rfl

theorem accepted_test {prop : String} {operand : Operand} {t : Test} (tested : operand.test = .ok t) :
    accepted var check (.test prop operand) =
      ([·]) <$> ((fun name => .leaf ⟨var, name, t⟩) <$> check.check prop : Except Failure Predicate) := by
  rw [accepted, tested, ok_bind]
  cases check.check prop <;> rfl

end Clause

/-! One answer. -/

namespace Builder

/-- The ways to refer to a property of a variable, where nothing else is wrong with the calls: each takes the name that is
the answer, or each fails as the answer does and changes nothing. -/
structure AnswersAlike (b : Builder) (v : Variable) (prop : String) (answer : Except Failure String) : Prop where
  test : ∀ g, Group.Reached v.name (b.propertyCheck v.name) g → ∀ (operand : Operand) t, operand.test = .ok t →
    (Clause.run (.test prop operand)).Answers g answer fun name => g.push (.leaf ⟨v.name, name, t⟩)
  whereVar : ∀ k : Clause.Context, (∀ c ∈ k.beside, c.Passes v.name (b.propertyCheck v.name)) →
    ∃ asks : Predicate → Predicate, (∀ p, p.comparisons ⊆ (asks p).comparisons) ∧
      ∀ (operand : Operand) t, operand.test = .ok t →
        (whereVar v.name (k.fill (.test prop operand))).Answers b answer fun name =>
          (Edit.ask .all (asks (.leaf ⟨v.name, name, t⟩))).apply b
  select : ∀ before column after, (∀ c ∈ before ++ after, c.Checked b) → (∀ n ∈ column, Text.isBlank n = false) →
    (select (before ++ .property v.name prop column :: after)).Answers b answer fun name =>
      (Edit.choose (before ++ .property v.name name column :: after)).apply b
  /-- A labelled variable has scopes, and what is called on one is called on the variable. -/
  scope : v.label ≠ none → ∀ body : String → Action Builder Unit,
    (withScope v.name body).outcome b = (body v.name).outcome b
  attach : v.label ≠ none → ∀ (operand : Operand) t mode, operand.test = .ok t →
    (do attach v.name (← Action.check (Condition.ofOperand prop operand)) mode : Action Builder Unit).Answers b answer
      fun name => (Edit.ask mode (.leaf ⟨v.name, name, t⟩)).apply b
  selectProperties : v.label ≠ none → ∀ before after,
    (∀ x ∈ before ++ after, (b.propertyCheck v.name).check x = .ok x) →
    (selectProperties v.name (before ++ prop :: after)).Answers b answer fun name =>
      (Edit.add ((before ++ name :: after).map (.property v.name · none))).apply b

theorem test_answers {var : String} {check : PropertyCheck} {g : Group} (reached : Group.Reached var check g)
    (prop : String) {operand : Operand} {t : Test} (tested : operand.test = .ok t) :
    (Clause.run (.test prop operand)).Answers g (check.check prop) fun name => g.push (.leaf ⟨var, name, t⟩) := by
  obtain ⟨rfl, rfl⟩ := reached.keeps
  unfold Action.Answers
  rw [Clause.run_outcome, Clause.accepted_test tested]
  cases g.check.check prop <;> rfl

variable {b : Builder} {var : String}

theorem whereVar_answers (declared : b.Declares var) (prop : String) {k : Clause.Context}
    {asks : Predicate → List Predicate} (h : Clause.Asks var (b.propertyCheck var) k.fill asks) {operand : Operand} {t : Test}
    (tested : operand.test = .ok t) :
    (whereVar var (k.fill (.test prop operand))).Answers b ((b.propertyCheck var).check prop) fun name =>
      (Edit.ask .all (Mode.all.group (asks (.leaf ⟨var, name, t⟩)))).apply b := by
  unfold Action.Answers
  rw [whereVar_outcome declared, Clause.predicate_eq, Clause.asked, h.grouped .all (Clause.accepted_test tested)]
  cases (b.propertyCheck var).check prop <;> rfl

theorem attach_answers {label : String} (labelled : b.label? var = some label) (prop : String) {operand : Operand} {t : Test}
    (tested : operand.test = .ok t) (mode : Mode) :
    (do attach var (← Action.check (Condition.ofOperand prop operand)) mode : Action Builder Unit).Answers b
      ((b.propertyCheck var).check prop) fun name => (Edit.ask mode (.leaf ⟨var, name, t⟩)).apply b := by
  unfold Action.Answers
  rw [attach_made_outcome labelled, Condition.ofOperand_bind tested]
  cases (b.propertyCheck var).check prop <;> rfl

theorem select_answers (declared : b.Declares var) (prop : String) {before after : List Projection} {column : Option String}
    (fine : ∀ c ∈ before ++ after, c.Checked b) (shown : ∀ n ∈ column, Text.isBlank n = false) :
    (select (before ++ .property var prop column :: after)).Answers b ((b.propertyCheck var).check prop) fun name =>
      (Edit.choose (before ++ .property var name column :: after)).apply b := by
  have each : ∀ c ∈ before ++ after, ((Builder.column c).outcome b).1 = .ok (id c) := fun c member => by
    rw [column_passes (fine c member), id]
  have read : ((before ++ .property var prop column :: after).mapM Builder.column).outcome b =
      ((fun name => before ++ .property var name column :: after) <$> (b.propertyCheck var).check prop, b) := by
    rw [Action.mapM_reads b.column_reads, mapM_around each, column_property_outcome declared prop shown, List.map_id,
      List.map_id]
    cases (b.propertyCheck var).check prop <;> rfl
  exact Action.answers_bind read fun name => rfl

theorem selectProperties_answers (prop : String) {before after : List String}
    (fine : ∀ x ∈ before ++ after, (b.propertyCheck var).check x = .ok x) :
    (selectProperties var (before ++ prop :: after)).Answers b ((b.propertyCheck var).check prop) fun name =>
      (Edit.add ((before ++ name :: after).map (.property var · none))).apply b := by
  have columns : (before ++ prop :: after).mapM (propertyColumn var (b.propertyCheck var)) =
      (fun name => (before ++ name :: after).map (.property var · none)) <$> (b.propertyCheck var).check prop := by
    rw [mapM_around fun x member => by rw [propertyColumn, fine x member, map_ok], propertyColumn]
    cases (b.propertyCheck var).check prop with
    | error f => rfl
    | ok name => simp
  have read := b.mapM_propertyColumn var (b.propertyCheck var) (before ++ prop :: after)
  rw [columns] at read
  refine Action.answers_bind read fun name => ?_
  rw [if_neg (by simp)]
  rfl

theorem answersAlike {b : Builder} {v : Variable} (declared : b.Declares v.name) (labelled : b.label? v.name = v.label)
    (prop : String) : b.AnswersAlike v prop ((b.propertyCheck v.name).check prop) where
  -- each call fetches the check of the variable for itself, and it is the same one every time
  test _ reached _ _ tested := test_answers reached prop tested
  whereVar k fine := by
    obtain ⟨asks, h⟩ := k.asks fine
    exact ⟨_, h.keeps_group .all, fun operand t tested => whereVar_answers declared prop h tested⟩
  select _ _ _ fine shown := select_answers declared prop fine shown
  scope given body := by
    obtain ⟨l, here⟩ := Option.ne_none_iff_exists'.mp given
    exact Action.outcome_bind_ok (scope_passes (labelled.trans here)) body
  attach given _ _ mode tested := by
    obtain ⟨l, here⟩ := Option.ne_none_iff_exists'.mp given
    exact attach_answers (labelled.trans here) prop tested mode
  selectProperties _ _ _ fine := selectProperties_answers prop fine

/-- On every builder that calls lead to, a property is taken as it is or refused, by all the ways alike: it is taken if it
shows something and, where there is a schema, the schema does not leave it off the list of the variable's label. -/
theorem property_answered_alike (schema : Option Schema) (calls : List Call) :
    let b := (new schema).after calls
    ∀ v ∈ b.vars, ∀ prop, ∃ answer, b.AnswersAlike v prop answer ∧
      ∀ name, answer = .ok name ↔ name = prop ∧ Text.isBlank prop = false ∧ ∀ s ∈ schema, s.Admits v.label prop := by
  intro b v member prop
  have distinct := (wellFormed_after schema calls).names_distinct
  have declared : b.Declares v.name := List.mem_map.mpr ⟨v, member, rfl⟩
  have labelled : b.label? v.name = v.label := by rw [label?, find?, find?_of_nodup distinct member, Option.bind_some]
  obtain ⟨es, edited, _⟩ := (new schema).after_edited calls
  have checks : b.schema = schema := edited.schema
  refine ⟨_, answersAlike declared labelled prop, fun name => ?_⟩
  rw [PropertyCheck.check_eq_ok_iff, propertyCheck, checks, labelled]
  refine and_congr_right fun _ => and_congr_right fun _ => ?_
  cases schema with
  | none => simp [PropertyCheck.Allows]
  | some s => simp [Schema.allows_propertyCheck_iff]

theorem property_answered_alike_unlisted :
    let schema := Schema.empty.node "User" ["name", "age"]
    let b := (new (some schema)).after [.nodes "User" [], .matchTarget (.variable "x" none)]
    ⟨"a", some "User"⟩ ∈ b.vars ∧ ∃ f,
      (whereVar "a" [.group .any [.test "age" .present, .test "email" .present]]).outcome b = (.error f, b) ∧
      (select [.node "x" none, .property "a" "email" none]).outcome b = (.error f, b) ∧
      (withScope "a" fun x => do attach x (← Action.check (Condition.ofOperand "email" .present)) .any).outcome b =
        (.error f, b) ∧
      (withScope "a" fun x => selectProperties x ["name", "email"]).outcome b = (.error f, b) := by
  intro schema b
  have member : ⟨"a", some "User"⟩ ∈ b.vars := by decide +kernel
  obtain ⟨answer, alike, decides⟩ := property_answered_alike (some schema)
    [.nodes "User" [], .matchTarget (.variable "x" none)] ⟨"a", some "User"⟩ member "email"
  have labelled : (⟨"a", some "User"⟩ : Variable).label ≠ none := nofun
  cases answer with
  | ok name =>
      obtain ⟨_, _, admitted⟩ := (decides name).mp rfl
      exact absurd (admitted schema rfl "User" rfl (.ofList ["name", "age"]) rfl) (by decide)
  | error f =>
      refine ⟨member, f, ?_, ?_, ?_, ?_⟩
      · have beside : ∀ c ∈ [Clause.test "age" .present], c.Passes "a" (b.propertyCheck "a") := by
          rw [List.forall_mem_singleton]
          rfl
        obtain ⟨asks, _, goes⟩ := alike.whereVar (.group .any [] (.here [.test "age" .present] []) []) beside
        exact goes .present .present rfl
      · have beside : ∀ c ∈ [Projection.node "x" none], c.Checked b := by
          have declared : ⟨"x", none⟩ ∈ b.vars := by decide +kernel
          rw [List.forall_mem_singleton]
          exact .node (List.mem_map.mpr ⟨_, declared, rfl⟩) nofun
        exact alike.select [.node "x" none] none [] beside nofun
      · exact (alike.scope labelled _).trans (alike.attach labelled .present .present .any rfl)
      · have beside : ∀ x ∈ ["name"], (b.propertyCheck "a").check x = .ok x := by
          rw [List.forall_mem_singleton]
          rfl
        exact (alike.scope labelled _).trans (alike.selectProperties labelled ["name"] [] beside)

end Builder
end GraphClient
