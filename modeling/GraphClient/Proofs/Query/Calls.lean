import GraphClient.Proofs.Query.Clauses
import GraphClient.Proofs.Query.Edits

/-!
The calls on a builder, one by one: each fails and changes nothing, or it makes one edit.
-/
namespace GraphClient

theorem mapM_check {σ α β : Type} (f : α → Except Failure β) (o : Option α) (s : σ) :
    (o.mapM fun a => Action.check (f a) : Action σ (Option β)).outcome s = (o.mapM f, s) := by
  cases o with
  | none => rfl
  | some a =>
      change (some <$> Action.check (f a) : Action σ (Option β)).outcome s = (some <$> f a, s)
      rw [← bind_pure_comp, Action.outcome_bind, Action.outcome_check]
      cases f a <;> rfl

theorem mapM_nonBlank_eq_ok {what : String} {o names : Option String} (h : o.mapM (nonBlank what) = .ok names) :
    names = o ∧ ∀ n ∈ o, Text.isBlank n = false := by
  cases o with
  | none => cases h; exact ⟨rfl, by simp⟩
  | some a =>
      obtain ⟨name, passed, rfl⟩ := map_eq_ok.mp h
      obtain ⟨rfl, shown⟩ := nonBlank_eq_ok_iff.mp passed
      exact ⟨rfl, by simpa using shown⟩

/-- A call fails and changes nothing, or it makes one edit that goes with its value. -/
inductive OneEdit {α : Type} (b : Builder) (a : Action Builder α) (goes : α → Edit → Prop) : Prop
  | failed {f} : a.outcome b = (.error f, b) → OneEdit b a goes
  | made {v e} : a.outcome b = (.ok v, e.apply b) → e.Allowed b → goes v e → OneEdit b a goes

theorem OneEdit.edit {α : Type} {b d : Builder} {a : Action Builder α} {goes : α → Edit → Prop} (h : OneEdit b a goes)
    {v : α} (made : a.outcome b = (.ok v, d)) : ∃ e, e.Allowed b ∧ goes v e ∧ d = e.apply b := by
  cases h with
  | failed failed =>
      rw [failed] at made
      cases made
  | @made w e entered allowed goes =>
      rw [entered] at made
      cases made
      exact ⟨e, allowed, goes, rfl⟩

def Target.nameIn (b : Builder) : Target → String
  | .label _ => autoName b.freshNumber
  | .variable name _ => name

def Target.label? : Target → Option String
  | .label l => some l
  | .variable _ l => l

namespace Builder

variable (b : Builder)

variable {b} in
theorem declared_passes {name : String} (h : b.Declares name) : (declared name).outcome b = (.ok name, b) := by
  obtain ⟨v, found, same⟩ := declares_iff_find?.mp h
  simp only [declared, Action.outcome_bind, Action.outcome_get, found]
  rw [same]
  rfl

theorem declared_outcome (name : String) :
    (∃ f, (declared name).outcome b = (.error f, b)) ∨ (declared name).outcome b = (.ok name, b) ∧ b.Declares name := by
  cases found : b.find? name with
  | none => exact .inl ⟨_, by simp only [declared, Action.outcome_bind, Action.outcome_get, found]; rfl⟩
  | some v =>
      have here : b.Declares name := declares_iff_find?.mpr ⟨v, found, by simpa using List.find?_some found⟩
      exact .inr ⟨declared_passes here, here⟩

variable {b} in
theorem requireLabel_passes {var label : String} (labelled : b.label? var = some label) :
    (requireLabel var).outcome b = (.ok (), b) := by
  simp [requireLabel, Action.outcome_bind, labelled]

theorem nodes_oneEdit (label : String) : OneEdit b (nodes label) fun name e =>
    ∃ counter, e = .declare name (some label) counter := by
  cases passed : nonBlank "label" label with
  | error f => exact .failed (Action.outcome_bind_error (by rw [Action.outcome_check, passed]) _)
  | ok l =>
      obtain ⟨rfl, shown⟩ := nonBlank_eq_ok_iff.mp passed
      refine .made (v := autoName b.freshNumber) (e := .declare (autoName b.freshNumber) (some l) (b.freshNumber + 1))
        ?_ ⟨isBlank_autoName _, by simpa using shown, .inr ⟨rfl, rfl⟩⟩ ⟨_, rfl⟩
      simp only [nodes, freshName, enter, Action.outcome_bind, Action.outcome_check, passed]
      rfl

theorem resolve_outcome (target : Target) :
    (∃ f, (resolve target).outcome b = (.error f, b)) ∨
      ∃ counter, (resolve target).outcome b = (.ok (target.nameIn b, target.label?), { b with counter }) ∧
        Edit.Named b (target.nameIn b) target.label? counter := by
  match target with
  | .label label =>
      cases passed : nonBlank "label" label with
      | error f => exact .inl ⟨f, Action.outcome_bind_error (by rw [Action.outcome_check, passed]) _⟩
      | ok l =>
          obtain ⟨rfl, shown⟩ := nonBlank_eq_ok_iff.mp passed
          refine .inr ⟨b.freshNumber + 1, ?_, isBlank_autoName _, by simpa [Target.label?] using shown, .inr ⟨rfl, rfl⟩⟩
          simp only [resolve, freshName, Action.outcome_bind, Action.outcome_check, passed]
          rfl
  | .variable name label =>
      cases passed : nonBlank "variable name" name with
      | error f => exact .inl ⟨f, Action.outcome_bind_error (by rw [Action.outcome_check, passed]) _⟩
      | ok n =>
          obtain ⟨rfl, shown⟩ := nonBlank_eq_ok_iff.mp passed
          have rest := mapM_check (nonBlank "label") label b
          cases labelled : label.mapM (nonBlank "label") with
          | error f =>
              refine .inl ⟨f, ?_⟩
              simp only [resolve, Action.outcome_bind, Action.outcome_check, passed, rest, labelled]
          | ok l =>
              obtain ⟨rfl, labelShown⟩ := mapM_nonBlank_eq_ok labelled
              refine .inr ⟨b.counter, ?_, shown, labelShown, .inl rfl⟩
              simp only [resolve, Action.outcome_bind, Action.outcome_check, passed, rest, labelled,
                Action.outcome_pure, Target.nameIn, Target.label?]

theorem matchTarget_oneEdit (target : Target) : OneEdit b (matchTarget target) fun _ e =>
    ∃ counter, e = .declare (target.nameIn b) target.label? counter := by
  rcases b.resolve_outcome target with ⟨f, failed⟩ | ⟨counter, resolved, named⟩
  · exact .failed (Action.outcome_bind_error failed _)
  · refine .made (v := ()) (e := .declare (target.nameIn b) target.label? counter) ?_ named ⟨counter, rfl⟩
    exact Action.outcome_bind_ok resolved _

/-- That there are no targets at all is found when nothing is left to be done. -/
theorem matchAll_leaves (targets : List Target) :
    ((matchAll targets).outcome b).2 = ((targets.forM matchTarget : Action Builder PUnit).outcome b).2 := by
  rw [matchAll, Action.outcome_bind]
  cases (targets.forM matchTarget : Action Builder PUnit).outcome b with
  | mk r d =>
      cases r with
      | error f => rfl
      | ok _ => cases targets <;> rfl

theorem traverse_oneEdit (edgeType : Option String) (target : Target) : OneEdit b (traverse edgeType target) fun _ e =>
    ∃ source counter, e = .follow source edgeType (target.nameIn b) target.label? counter := by
  cases current : b.current with
  | none =>
      refine .failed (f := .argument .noCurrentVariable) ?_
      simp only [traverse, Action.outcome_bind, Action.outcome_get, current, Action.outcome_refuse]
  | some source =>
      have types := mapM_check (nonBlank "edge type") edgeType b
      cases typed : edgeType.mapM (nonBlank "edge type") with
      | error f =>
          refine .failed (f := f) ?_
          simp only [traverse, Action.outcome_bind, Action.outcome_get, current, types, typed]
      | ok t =>
          obtain ⟨rfl, shown⟩ := mapM_nonBlank_eq_ok typed
          rcases b.resolve_outcome target with ⟨f, failed⟩ | ⟨counter, resolved, named⟩
          · refine .failed (f := f) ?_
            simp only [traverse, Action.outcome_bind, Action.outcome_get, current, types, typed, failed]
          · refine .made (v := ()) (e := .follow source t (target.nameIn b) target.label? counter) ?_
              ⟨current, shown, named⟩ ⟨source, counter, rfl⟩
            simp only [traverse, Action.outcome_bind, Action.outcome_get, current, types, typed, resolved]
            rfl

theorem direction_oneEdit (d : Direction) : OneEdit b (direction d) fun _ e => e = .turn d :=
  .made (v := ()) (e := .turn d) rfl trivial rfl

theorem distinctRows_oneEdit : OneEdit b distinctRows fun _ e => e = .distinct :=
  .made (v := ()) (e := .distinct) rfl trivial rfl

theorem request_oneEdit (id : Option String) : OneEdit b (request id) fun _ e => ∃ i, e = .identify i := by
  have ids := mapM_check (trimmed "request_id") id b
  cases passed : id.mapM (trimmed "request_id") with
  | error f => exact .failed (Action.outcome_bind_error (by rw [ids, passed]) _)
  | ok i =>
      refine .made (v := ()) (e := .identify i) (Action.outcome_bind_ok (by rw [ids, passed]) _) ?_ ⟨i, rfl⟩
      intro text given
      cases id with
      | none => cases passed; cases given
      | some raw =>
          obtain ⟨name, clean, rfl⟩ := map_eq_ok.mp passed
          cases given
          exact trimmed_eq_ok clean

variable {b} in
theorem whereVar_outcome {name : String} (declared : b.Declares name) (clauses : List Clause) :
    (whereVar name clauses).outcome b =
      (do append (← Action.check (Clause.predicate name (b.propertyCheck name) clauses)) .all :
        Action Builder Unit).outcome b := by
  rw [whereVar, Action.outcome_bind_ok (declared_passes declared)]
  rfl

theorem whereVar_oneEdit (name : String) (clauses : List Clause) : OneEdit b (whereVar name clauses) fun _ e =>
    ∃ p, Clause.asked name (b.propertyCheck name) clauses = .ok p ∧ e = .ask .all p := by
  rcases b.declared_outcome name with ⟨f, failed⟩ | ⟨_, declared⟩
  · exact .failed (Action.outcome_bind_error failed _)
  · have shape := whereVar_outcome declared clauses
    rw [Clause.predicate_eq] at shape
    cases asked : Clause.asked name (b.propertyCheck name) clauses with
    | error f =>
        rw [asked] at shape
        exact .failed shape
    | ok p =>
        rw [asked] at shape
        exact .made (v := ()) (e := .ask .all p) shape ⟨name, declared, Clause.asked_admissible asked⟩ ⟨p, rfl, rfl⟩

variable {b} in
theorem attach_outcome {var label : String} (labelled : b.label? var = some label) (condition : Condition) (mode : Mode) :
    (attach var condition mode).outcome b =
      (do append (← Action.check (condition.bind var (b.propertyCheck var))) mode : Action Builder Unit).outcome b := by
  rw [attach, Action.outcome_bind_ok (requireLabel_passes labelled)]
  rfl

variable {b} in
theorem attach_made_outcome {var label : String} (labelled : b.label? var = some label) (made : Except Failure Condition)
    (mode : Mode) : (do attach var (← Action.check made) mode : Action Builder Unit).outcome b =
      (do append (← Action.check (made >>= Condition.bind var (b.propertyCheck var))) mode :
        Action Builder Unit).outcome b := by
  rw [Action.outcome_bind, Action.outcome_check]
  cases made with
  | error f => rfl
  | ok c => exact attach_outcome labelled c mode

/-- A bound condition needs no collapsing: its groups are wide as they are written. -/
theorem attach_oneEdit (var : String) {condition : Condition} (composed : condition.Composed) (mode : Mode) :
    OneEdit b (attach var condition mode) fun _ e => e = .ask mode (condition.asked var) := by
  cases labelled : b.label? var with
  | none =>
      refine .failed (f := .argument (.unlabelled var)) ?_
      simp only [attach, requireLabel, Action.outcome_bind, Action.outcome_get, labelled, Option.isNone_none, if_true,
        Action.outcome_refuse]
  | some label =>
      have shape := attach_outcome labelled condition mode
      cases bound : condition.bind var (b.propertyCheck var) with
      | error f =>
          rw [bound] at shape
          exact .failed shape
      | ok p =>
          obtain ⟨rfl, _⟩ := Condition.bind_spec bound
          have kept := (composed.wide var).collapse_eq_self
          refine .made (v := ()) (e := .ask mode (condition.asked var)) ?_
            ⟨var, declares_of_label labelled, composed.admissible bound⟩ rfl
          simp only [shape, bound, Edit.apply, Edit.joined, kept]
          rfl

variable {b} in
theorem columnName_passes {name : Option String} (shown : ∀ n ∈ name, Text.isBlank n = false) :
    (column.columnName name).outcome b = (.ok name, b) := by
  cases name with
  | none => rfl
  | some n => simp [column.columnName, shown n rfl]

theorem columnName_outcome (name : Option String) :
    (∃ f, (column.columnName name).outcome b = (.error f, b)) ∨
      (column.columnName name).outcome b = (.ok name, b) ∧ ∀ n ∈ name, Text.isBlank n = false := by
  cases name with
  | none => exact .inr ⟨rfl, by simp⟩
  | some name =>
      by_cases blank : Text.isBlank name = true
      · exact .inl ⟨.argument .blankColumn, by simp only [column.columnName, if_pos blank, Action.outcome_refuse]⟩
      · have shown : ∀ n ∈ some name, Text.isBlank n = false := by simpa using blank
        exact .inr ⟨columnName_passes shown, shown⟩

variable {b} in
theorem column_property_outcome {var : String} (declared : b.Declares var) (prop : String) {name : Option String}
    (shown : ∀ n ∈ name, Text.isBlank n = false) : (column (.property var prop name)).outcome b =
      ((.property var · name) <$> (b.propertyCheck var).check prop, b) := by
  simp only [column, Action.outcome_bind, declared_passes declared, Action.outcome_get, Action.outcome_check]
  cases (b.propertyCheck var).check prop with
  | error f => rfl
  | ok given =>
      simp only [columnName_passes shown, Action.outcome_pure]
      rfl

variable {b} in
theorem column_passes {c : Projection} (h : c.Checked b) : (column c).outcome b = (.ok c, b) := by
  cases h with
  | node declared shown =>
      simp only [column, Action.outcome_bind, declared_passes declared, columnName_passes shown, Action.outcome_pure]
  | property declared passed shown => rw [column_property_outcome declared _ shown, passed, map_ok]

theorem column_outcome (c : Projection) :
    (∃ f, (column c).outcome b = (.error f, b)) ∨ (column c).outcome b = (.ok c, b) ∧ c.Checked b := by
  rcases b.declared_outcome c.var with ⟨f, failed⟩ | ⟨passed, declared⟩
  · cases c <;> exact .inl ⟨f, Action.outcome_bind_error failed _⟩
  · cases c with
    | node var name =>
        change (Builder.declared var).outcome b = (.ok var, b) at passed
        rcases b.columnName_outcome name with ⟨f, failed⟩ | ⟨_, shown⟩
        · exact .inl ⟨f, by simp only [column, Action.outcome_bind, passed, failed]⟩
        · exact .inr ⟨column_passes (.node declared shown), .node declared shown⟩
    | property var prop name =>
        change (Builder.declared var).outcome b = (.ok var, b) at passed
        cases checked : (b.propertyCheck var).check prop with
        | error f =>
            refine .inl ⟨f, ?_⟩
            simp only [column, Action.outcome_bind, passed, Action.outcome_get, Action.outcome_check, checked]
        | ok given =>
            obtain ⟨rfl, _⟩ := PropertyCheck.check_eq_ok_iff.mp checked
            rcases b.columnName_outcome name with ⟨f, failed⟩ | ⟨_, shown⟩
            · refine .inl ⟨f, ?_⟩
              simp only [column, Action.outcome_bind, passed, Action.outcome_get, Action.outcome_check, checked, failed]
            · have good : (Projection.property var given name).Checked b := .property declared checked shown
              exact .inr ⟨column_passes good, good⟩

theorem column_reads (c : Projection) : ((column c).outcome b).2 = b := by
  rcases b.column_outcome c with ⟨f, failed⟩ | ⟨passed, _⟩
  · rw [failed]
  · rw [passed]

theorem select_oneEdit (columns : List Projection) : OneEdit b (select columns) fun _ e => e = .choose columns := by
  have shape := Action.mapM_reads b.column_reads columns
  cases found : columns.mapM fun c => ((column c).outcome b).1 with
  | error f => exact .failed (Action.outcome_bind_error (by rw [shape, found]) _)
  | ok cs =>
      have each : ∀ c ∈ columns, ∀ d, ((column c).outcome b).1 = .ok d → d = id c ∧ c.Checked b := by
        intro c _ d here
        rcases b.column_outcome c with ⟨f, failed⟩ | ⟨passed, checked⟩
        · rw [failed] at here
          cases here
        · rw [passed] at here
          cases here
          exact ⟨rfl, checked⟩
      obtain ⟨rfl, checked⟩ := mapM_eq_ok each found
      rw [List.map_id] at found
      refine .made (v := ()) (e := .choose columns) ?_ checked rfl
      exact Action.outcome_bind_ok (shape.trans (by rw [found])) _

def propertyColumn (var : String) (check : PropertyCheck) (prop : String) : Except Failure Projection :=
  (.property var · none) <$> check.check prop

theorem mapM_propertyColumn (var : String) (check : PropertyCheck) (props : List String) :
    (props.mapM fun prop => do pure (.property var (← Action.check (check.check prop)) none) :
      Action Builder (List Projection)).outcome b = (props.mapM (propertyColumn var check), b) := by
  have each (prop : String) : (do pure (.property var (← Action.check (check.check prop)) none) :
      Action Builder Projection).outcome b = (propertyColumn var check prop, b) := by
    simp only [propertyColumn, Action.outcome_bind, Action.outcome_check]
    cases check.check prop <;> rfl
  rw [Action.mapM_reads fun prop => by rw [each]]
  simp only [each]

theorem propertyColumns_eq_ok_iff {var : String} {check : PropertyCheck} {props : List String}
    {columns : List Projection} :
    props.mapM (propertyColumn var check) = .ok columns ↔
      (∀ prop ∈ props, check.check prop = .ok prop) ∧ columns = props.map (.property var · none) := by
  constructor
  · intro found
    have each : ∀ prop ∈ props, ∀ c, propertyColumn var check prop = .ok c →
        c = .property var prop none ∧ check.check prop = .ok prop := by
      intro prop _ c here
      obtain ⟨name, passed, rfl⟩ := map_eq_ok.mp here
      obtain ⟨rfl, _⟩ := PropertyCheck.check_eq_ok_iff.mp passed
      exact ⟨rfl, passed⟩
    obtain ⟨rfl, passed⟩ := mapM_eq_ok each found
    exact ⟨passed, rfl⟩
  · rintro ⟨passed, rfl⟩
    apply mapM_eq_ok_of_forall
    intro prop member
    rw [propertyColumn, passed prop member, map_ok]

variable {b} in
theorem checked_of_propertyColumns {var : String} (declared : b.Declares var) {props : List String}
    {columns : List Projection} (found : props.mapM (propertyColumn var (b.propertyCheck var)) = .ok columns) :
    ∀ c ∈ columns, c.Checked b := by
  obtain ⟨passed, rfl⟩ := propertyColumns_eq_ok_iff.mp found
  intro c member
  obtain ⟨prop, asked, rfl⟩ := List.mem_map.mp member
  exact .property declared (passed prop asked) nofun

theorem selectProperties_outcome (var : String) (props : List String) :
    (∃ f, (selectProperties var props).outcome b = (.error f, b)) ∨
      ∃ columns, props.mapM (propertyColumn var (b.propertyCheck var)) = .ok columns ∧
        (selectProperties var props).outcome b = (.ok (), { b with projections := b.projections ++ columns }) := by
  have read := b.mapM_propertyColumn var (b.propertyCheck var) props
  cases found : props.mapM (propertyColumn var (b.propertyCheck var)) with
  | error f =>
      rw [found] at read
      exact .inl ⟨f, Action.outcome_bind_error read _⟩
  | ok columns =>
      rw [found] at read
      cases columns with
      | nil => exact .inl ⟨_, Action.outcome_bind_ok read _⟩
      | cons c cs => exact .inr ⟨c :: cs, rfl, Action.outcome_bind_ok read _⟩

theorem selectProperties_oneEdit {var : String} (declared : b.Declares var) (props : List String) :
    OneEdit b (selectProperties var props) fun _ e => ∃ columns, e = .add columns := by
  rcases b.selectProperties_outcome var props with ⟨f, failed⟩ | ⟨columns, found, made⟩
  · exact .failed failed
  · exact .made (v := ()) (e := .add columns) made (checked_of_propertyColumns declared found) ⟨columns, rfl⟩

variable {b} in
theorem scope_passes {var label : String} (labelled : b.label? var = some label) : (scope var).outcome b = (.ok var, b) := by
  rw [scope, Action.outcome_bind_ok (declared_passes (declares_of_label labelled)),
    Action.outcome_bind_ok (requireLabel_passes labelled), Action.outcome_pure]

theorem scope_outcome (name : String) :
    (∃ f, (scope name).outcome b = (.error f, b)) ∨
      (scope name).outcome b = (.ok name, b) ∧ ∃ label, b.label? name = some label := by
  rcases b.declared_outcome name with ⟨f, failed⟩ | ⟨passed, _⟩
  · exact .inl ⟨f, Action.outcome_bind_error failed _⟩
  · cases labelled : b.label? name with
    | none =>
        refine .inl ⟨.argument (.unlabelled name), ?_⟩
        simp only [scope, Action.outcome_bind, passed, requireLabel, Action.outcome_get, labelled, Option.isNone_none,
          if_true, Action.outcome_refuse]
    | some label => exact .inr ⟨scope_passes labelled, label, rfl⟩

/-! A scope that is opened is that of a labelled variable. -/

theorem nodes_labelled {b d : Builder} {label var : String} (opened : (nodes label).outcome b = (.ok var, d)) :
    ∃ l, d.label? var = some l := by
  obtain ⟨_, _, ⟨counter, rfl⟩, rfl⟩ := (b.nodes_oneEdit label).edit opened
  simp [label?, find?, Edit.apply, find?_declare_self]

theorem scope_labelled {b d : Builder} {name var : String} (opened : (scope name).outcome b = (.ok var, d)) :
    ∃ l, d.label? var = some l := by
  rcases b.scope_outcome name with ⟨f, failed⟩ | ⟨entered, labelled⟩
  · rw [failed] at opened
    cases opened
  · rw [entered] at opened
    cases opened
    exact labelled

end Builder
end GraphClient
