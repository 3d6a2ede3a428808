import GraphClient.Proofs.Query.WellFormed

/-!
How declarations merge. A variable stands where its name was declared first and carries the first label that any of its
declarations gives. What is called later takes neither away, so that a scope never loses the label it was opened on.
-/
namespace GraphClient

/-- A declaration that has taken effect: the name, and the label given with it if there is one. -/
structure Declaration where
  name : String
  label : Option String
deriving DecidableEq, Repr

namespace Declaration

def names (ds : List Declaration) : List String := (ds.map (·.name)).eraseDups

def firstLabel (ds : List Declaration) (name : String) : Option String :=
  (ds.filter (·.name == name)).findSome? (·.label)

def declareAll (ds : List Declaration) (vars : List Variable) : List Variable :=
  ds.foldl (fun vars d => declare d.name d.label vars) vars

theorem declareAll_append (earlier later : List Declaration) (vars : List Variable) :
    declareAll (earlier ++ later) vars = declareAll later (declareAll earlier vars) :=
  List.foldl_append

structure Merged (ds : List Declaration) (vars : List Variable) : Prop where
  names : vars.map (·.name) = names ds
  labels : ∀ name, (vars.find? (·.name == name)).bind (·.label) = firstLabel ds name

theorem merged_nil : Merged [] [] := ⟨rfl, fun _ => rfl⟩

theorem names_snoc (ds : List Declaration) (d : Declaration) :
    names (ds ++ [d]) = if d.name ∈ names ds then names ds else names ds ++ [d.name] := by
  rw [names, names, List.map_append, List.eraseDups_append, List.map_singleton, List.removeAll, List.filter_singleton]
  simp only [List.mem_eraseDups, List.elem_eq_mem]
  by_cases old : d.name ∈ ds.map (·.name)
  · simp [old]
  · simp [old, List.eraseDups_cons]

theorem firstLabel_snoc (ds : List Declaration) (d : Declaration) (name : String) :
    firstLabel (ds ++ [d]) name = (firstLabel ds name).or (if d.name = name then d.label else none) := by
  rw [firstLabel, List.filter_append, List.findSome?_append]
  by_cases same : d.name = name
  · simp [firstLabel, same]
  · simp [firstLabel, same]

variable {ds : List Declaration} {vars : List Variable}

theorem Merged.declare (h : Merged ds vars) (d : Declaration) :
    Merged (ds ++ [d]) (GraphClient.declare d.name d.label vars) where
  names := by rw [names_declare, h.names, names_snoc]
  labels name := by
    rw [firstLabel_snoc, ← h.labels]
    by_cases same : d.name = name
    · rw [if_pos same, ← same, find?_declare_self]
      rfl
    · rw [if_neg same, find?_declare_of_ne _ _ _ (Ne.symm same), Option.or_none]

theorem Merged.declareAll (h : Merged ds vars) (later : List Declaration) :
    Merged (ds ++ later) (declareAll later vars) := by
  induction later generalizing ds vars with
  | nil => rwa [List.append_nil]
  | cons d later ih =>
      rw [List.append_cons]
      exact ih (h.declare d)

end Declaration

open Declaration (declareAll firstLabel)

def Target.declarationIn (b : Builder) (target : Target) : Declaration := ⟨target.nameIn b, target.label?⟩

namespace Builder

/-! The declarations of calls. -/

def targetsDeclared (b : Builder) : List Target → List Declaration
  | [] => []
  | target :: targets => (matchTarget target).ifMade b fun _ d => target.declarationIn b :: targetsDeclared d targets

def Call.declarations (b : Builder) : Call → List Declaration
  | nodes label _ => (Builder.nodes label).ifMade b fun var _ => [⟨var, some label⟩]
  | matchTarget target => (Builder.matchTarget target).ifMade b fun _ _ => [target.declarationIn b]
  | matchAll targets => b.targetsDeclared targets
  | traverse edgeType target => (Builder.traverse edgeType target).ifMade b fun _ _ => [target.declarationIn b]
  | direction _ | inScope _ _ | whereVar _ _ | distinct | request _ | select _ => []

def declarations (b : Builder) : List Call → List Declaration
  | [] => []
  | c :: cs => c.declarations b ++ (b.step c).declarations cs

theorem Refers.vars {b d : Builder} {attached : List Attachment} (h : b.Refers attached d) : d.vars = b.vars := by
  obtain ⟨es, edited, quiet, _⟩ := h
  refine edited.keeps_of_all (P := fun c => c.vars = b.vars) ?_ quiet rfl
  intro c e same _ quiet
  rw [Edit.vars_apply quiet, same]

theorem vars_of_oneEdit {α : Type} {b : Builder} {a : Action Builder α} {goes : α → Edit → Prop} (h : OneEdit b a goes)
    {found : α → Builder → List Declaration}
    (each : ∀ v e, goes v e → (e.apply b).vars = declareAll (found v (e.apply b)) b.vars) :
    (a.outcome b).2.vars = declareAll (a.ifMade b found) b.vars := by
  cases h with
  | failed failed =>
      rw [Action.ifMade, failed]
      rfl
  | made made _ goes =>
      rw [Action.ifMade, made]
      exact each _ _ goes

theorem matchTarget_vars (b : Builder) (target : Target) : ((Builder.matchTarget target).outcome b).2.vars =
    declareAll ((Builder.matchTarget target).ifMade b fun _ _ => [target.declarationIn b]) b.vars := by
  refine vars_of_oneEdit (b.matchTarget_oneEdit target) ?_
  rintro _ _ ⟨_, rfl⟩
  rfl

theorem traverse_vars (b : Builder) (edgeType : Option String) (target : Target) :
    ((Builder.traverse edgeType target).outcome b).2.vars =
      declareAll ((Builder.traverse edgeType target).ifMade b fun _ _ => [target.declarationIn b]) b.vars := by
  refine vars_of_oneEdit (b.traverse_oneEdit edgeType target) ?_
  rintro _ _ ⟨_, _, rfl⟩
  rfl

theorem matchAll_vars (b : Builder) (targets : List Target) :
    ((Builder.matchAll targets).outcome b).2.vars = declareAll (b.targetsDeclared targets) b.vars := by
  rw [b.matchAll_leaves targets]
  -- each target is named by the builder that the ones before it have left
  induction targets generalizing b with
  | nil => rfl
  | cons target targets ih =>
      have first := b.matchTarget_vars target
      rw [targetsDeclared, List.forM_eq_forM, List.forM_cons, Action.outcome_bind]
      rw [Action.ifMade] at first ⊢
      cases here : (Builder.matchTarget target).outcome b with
      | mk r d =>
          rw [here] at first
          cases r with
          | error f => exact first
          | ok _ => exact (ih d).trans (congrArg (declareAll (d.targetsDeclared targets)) first)

theorem nodes_vars (b : Builder) (label : String) (body : List ScopeCall) :
    (b.step (.nodes label body)).vars = declareAll ((Call.nodes label body).declarations b) b.vars := by
  rw [step, Call.run, Call.declarations, Action.ifMade, Action.outcome_bind]
  cases b.nodes_oneEdit label with
  | failed failed =>
      rw [failed]
      rfl
  | @made name _ made _ goes =>
      obtain ⟨counter, rfl⟩ := goes
      rw [made]
      exact (ScopeCall.runAll_refers body (Edit.declares_declare b name (some label) counter)).vars

theorem inScope_vars (b : Builder) (name : String) (body : List ScopeCall) :
    (b.step (.inScope name body)).vars = b.vars := by
  rw [step, Call.run, withScope, Action.outcome_bind]
  rcases b.scope_outcome name with ⟨f, failed⟩ | ⟨entered, _, labelled⟩
  · rw [failed]
  · rw [entered]
    exact (ScopeCall.runAll_refers body (declares_of_label labelled)).vars

theorem step_vars (b : Builder) (c : Call) : (b.step c).vars = declareAll (c.declarations b) b.vars := by
  cases c with
  | nodes label body => exact b.nodes_vars label body
  | matchTarget target => exact b.matchTarget_vars target
  | matchAll targets => exact b.matchAll_vars targets
  | traverse edgeType target => exact b.traverse_vars edgeType target
  | direction d => exact (b.direction_refers d).vars
  | inScope name body => exact b.inScope_vars name body
  | whereVar name clauses => exact (b.whereVar_refers name clauses).vars
  | distinct => exact b.distinctRows_refers.vars
  | request id => exact (b.request_refers id).vars
  | select columns => exact (b.select_refers columns).vars

theorem after_vars (b : Builder) (calls : List Call) :
    (b.after calls).vars = declareAll (b.declarations calls) b.vars := by
  induction calls generalizing b with
  | nil => rfl
  | cons c calls ih =>
      rw [declarations, Declaration.declareAll_append, ← step_vars]
      exact ih (b.step c)

/-! What declarations leave in place. -/

/-- The scope of this variable has a label to attach conditions to, whatever calls are made on it. -/
def StaysLabelled (b : Builder) (var : String) : Prop :=
  ∀ body, let d := ((ScopeCall.runAll var body).outcome b).2
    (requireLabel var).outcome d = (.ok (), d)

theorem staysLabelled {b : Builder} {var label : String} (labelled : b.label? var = some label) : b.StaysLabelled var := by
  intro body
  obtain ⟨es, edited, _⟩ := ScopeCall.runAll_refers body (declares_of_label labelled)
  exact requireLabel_passes (edited.label? labelled)

theorem nodes_staysLabelled {b d : Builder} {label var : String} (opened : (nodes label).outcome b = (.ok var, d)) :
    d.StaysLabelled var := by
  obtain ⟨_, labelled⟩ := nodes_labelled opened
  exact staysLabelled labelled

theorem scope_staysLabelled {b d : Builder} {name var : String} (opened : (scope name).outcome b = (.ok var, d)) :
    d.StaysLabelled var := by
  obtain ⟨_, labelled⟩ := scope_labelled opened
  exact staysLabelled labelled

theorem names_after (b : Builder) (calls : List Call) : b.build.names <+: (b.after calls).build.names := by
  change b.vars.map (·.name) <+: (b.after calls).vars.map (·.name)
  rw [after_vars]
  generalize b.declarations calls = ds
  generalize b.vars = vars
  induction ds generalizing vars with
  | nil => exact List.prefix_rfl
  | cons d ds ih =>
      refine List.IsPrefix.trans ?_ (ih (declare d.name d.label vars))
      rw [names_declare]
      split
      · exact List.prefix_rfl
      · exact List.prefix_append _ _

theorem labelled_after {b : Builder} (distinct : (b.vars.map (·.name)).Nodup) {v : Variable} (member : v ∈ b.vars)
    (labelled : v.label ≠ none) (calls : List Call) : v ∈ (b.after calls).vars := by
  obtain ⟨l, given⟩ := Option.ne_none_iff_exists'.mp labelled
  have before : b.label? v.name = some l := by rw [label?, find?, find?_of_nodup distinct member, Option.bind_some, given]
  obtain ⟨es, edited, _⟩ := b.after_edited calls
  -- the label is kept by name, and no other variable goes by this one
  obtain ⟨w, found, kept⟩ := Option.bind_eq_some_iff.mp (edited.label? before)
  have named : w.name = v.name := by simpa using List.find?_some found
  have same : w = v := congrArg₂ Variable.mk named (kept.trans given.symm)
  exact same ▸ List.mem_of_find?_eq_some found

structure MergesDeclarations (ds : List Declaration) (b : Builder) : Prop where
  names : b.build.names = Declaration.names ds
  distinct : b.build.names.Nodup
  label : ∀ v ∈ b.build.vars, v.label = firstLabel ds v.name
  /-- Further calls take no variable away, and leave those with a label as they are. -/
  stay : ∀ more, b.build.names <+: (b.after more).build.names ∧
    ∀ v ∈ b.build.vars, v.label ≠ none → v ∈ (b.after more).build.vars
  nodes : ∀ label var d, (nodes label).outcome b = (.ok var, d) → d.StaysLabelled var
  scope : ∀ name var d, (scope name).outcome b = (.ok var, d) → d.StaysLabelled var
  columns : b.projections = [] → b.build.projections = b.build.vars.map fun v => .node v.name none

/-- Whatever calls are made, and whichever of them fail, the first label of each variable wins. -/
theorem build_mergesDeclarations (schema : Option Schema) (calls : List Call) :
    MergesDeclarations ((new schema).declarations calls) ((new schema).after calls) := by
  have distinct := (wellFormed_after schema calls).names_distinct
  have merged : Declaration.Merged ((new schema).declarations calls) ((new schema).after calls).vars := by
    rw [after_vars]
    exact Declaration.merged_nil.declareAll _
  exact {
    names := merged.names
    distinct := distinct
    label := fun v member => by
      rw [← merged.labels, find?_of_nodup distinct member, Option.bind_some]
    stay := fun more => ⟨names_after _ more, fun v member labelled => labelled_after distinct member labelled more⟩
    nodes := fun _ _ _ => nodes_staysLabelled
    scope := fun _ _ _ => scope_staysLabelled
    columns := fun none => by rw [build, none]; rfl }

example : ((new none).after [.matchAll [.variable "a" none, .label "User", .label " "],
      .matchTarget (.variable "a" (some "Post")), .traverse none (.variable "a" (some "User"))]).build.vars =
    [⟨"a", some "Post"⟩, ⟨"b", some "User"⟩] := by decide +kernel

end Builder
end GraphClient
