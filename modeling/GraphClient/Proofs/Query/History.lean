import GraphClient.Proofs.Query.Calls

/-!
Histories of calls on a builder. A call that fails keeps what it has done until then, and the next call goes on from
there. Every call declares variables first and only then refers to them, so that what it refers to is checked against
the labels it leaves.
-/
namespace GraphClient

/-- What is attached when a call succeeds; a call that fails attaches nothing. -/
def Action.ifMade {σ α β : Type} (a : Action σ α) (s : σ) (found : α → σ → List β) : List β :=
  match a.outcome s with
  | (.ok v, t) => found v t
  | (.error _, _) => []

theorem Action.ifMade_nothing {σ α β : Type} (a : Action σ α) (s : σ) : a.ifMade s (fun _ _ => ([] : List β)) = [] := by
  unfold ifMade
  split <;> rfl

namespace Builder

/-- A call on the scope of a variable; its conditions are those that the helpers make. -/
inductive ScopeCall
  | attach (condition : { c : Condition // c.Composed }) (mode : Mode)
  | whereWith (clauses : List Clause)
  | select (props : List String)
  | distinct
  | direction (d : Direction)
  | request (id : Option String)
  | fail (cause : Failure)
  | attempt (call : ScopeCall)

namespace ScopeCall

def run (var : String) : ScopeCall → Action Builder Unit
  | attach condition mode => Builder.attach var condition.1 mode
  | whereWith clauses => whereVar var clauses
  | select props => selectProperties var props
  | distinct => distinctRows
  | direction d => Builder.direction d
  | request id => Builder.request id
  | fail cause => throw cause
  | attempt call => discard (call.run var).attempt

def runAll (var : String) : List ScopeCall → Action Builder Unit
  | [] => pure ()
  | c :: cs => do
    c.run var
    runAll var cs

end ScopeCall

inductive Call
  | nodes (label : String) (body : List ScopeCall)
  | matchTarget (target : Target)
  | matchAll (targets : List Target)
  | traverse (edgeType : Option String) (target : Target)
  | direction (d : Direction)
  | inScope (name : String) (body : List ScopeCall)
  | whereVar (name : String) (clauses : List Clause)
  | distinct
  | request (id : Option String)
  | select (columns : List Projection)

def Call.run : Call → Action Builder Unit
  | nodes label body => do ScopeCall.runAll (← Builder.nodes label) body
  | matchTarget target => Builder.matchTarget target
  | matchAll targets => Builder.matchAll targets
  | traverse edgeType target => Builder.traverse edgeType target
  | direction d => Builder.direction d
  | inScope name body => withScope name fun var => ScopeCall.runAll var body
  | whereVar name clauses => Builder.whereVar name clauses
  | distinct => distinctRows
  | request id => Builder.request id
  | select columns => Builder.select columns

def step (b : Builder) (c : Call) : Builder := (c.run.outcome b).2

/-- The builder after calls, each made on what the ones before it have left. -/
def after (b : Builder) (calls : List Call) : Builder := calls.foldl step b

/-! What calls attach, in their order. -/

def attachedWhere (b : Builder) (name : String) (clauses : List Clause) : List Attachment :=
  (whereVar name clauses).ifMade b fun _ _ =>
    match Clause.asked name (b.propertyCheck name) clauses with
    | .ok p => [⟨.all, p⟩]
    | .error _ => []

def ScopeCall.attached (var : String) (b : Builder) : ScopeCall → List Attachment
  | attach condition mode => (Builder.attach var condition.1 mode).ifMade b fun _ _ => [⟨mode, condition.1.asked var⟩]
  | whereWith clauses => b.attachedWhere var clauses
  | attempt call => call.attached var b
  | select _ | distinct | direction _ | request _ | fail _ => []

def ScopeCall.attachedAll (var : String) (b : Builder) : List ScopeCall → List Attachment
  | [] => []
  | c :: cs => c.attached var b ++ (c.run var).ifMade b fun _ d => attachedAll var d cs

def Call.attached (b : Builder) : Call → List Attachment
  | nodes label body => (Builder.nodes label).ifMade b fun var d => ScopeCall.attachedAll var d body
  | inScope name body => (scope name).ifMade b fun var d => ScopeCall.attachedAll var d body
  | whereVar name clauses => b.attachedWhere name clauses
  | matchTarget _ | matchAll _ | traverse _ _ | direction _ | distinct | request _ | select _ => []

def attachments (b : Builder) : List Call → List Attachment
  | [] => []
  | c :: cs => c.attached b ++ (b.step c).attachments cs

/-! Calls come to edits. -/

def Refers (b : Builder) (attached : List Attachment) (d : Builder) : Prop :=
  ∃ es, Edited b es d ∧ (∀ e ∈ es, ¬ e.Declaring) ∧ es.filterMap Edit.attachment? = attached

theorem Refers.nothing (b : Builder) : Refers b [] b := ⟨[], .nil, by simp, rfl⟩

theorem Refers.append {b c d : Builder} {first later : List Attachment} (h : Refers b first c) (k : Refers c later d) :
    Refers b (first ++ later) d := by
  obtain ⟨es, edited, quiet, rfl⟩ := h
  obtain ⟨fs, further, quiet', rfl⟩ := k
  refine ⟨es ++ fs, edited.append further, ?_, List.filterMap_append⟩
  intro e member
  rcases List.mem_append.mp member with member | member
  · exact quiet e member
  · exact quiet' e member

theorem Refers.declares {b d : Builder} {attached : List Attachment} (h : Refers b attached d) {x : String}
    (declared : b.Declares x) : d.Declares x := by
  obtain ⟨es, edited, _⟩ := h
  exact edited.declares declared

end Builder

theorem OneEdit.refers {α : Type} {b : Builder} {a : Action Builder α} {goes : α → Edit → Prop} (h : OneEdit b a goes)
    {found : α → Builder → List Attachment}
    (each : ∀ v e, goes v e → ¬ e.Declaring ∧ e.attachment?.toList = found v (e.apply b)) :
    b.Refers (a.ifMade b found) (a.outcome b).2 := by
  cases h with
  | failed failed =>
      rw [Action.ifMade, failed]
      exact .nothing b
  | @made v e made allowed goes =>
      obtain ⟨quiet, asks⟩ := each v e goes
      rw [Action.ifMade, made]
      refine ⟨[e], .single allowed, by simpa using quiet, Eq.trans ?_ asks⟩
      cases asked : e.attachment? <;> simp [asked]

theorem OneEdit.refers_nothing {α : Type} {b : Builder} {a : Action Builder α} {goes : α → Edit → Prop}
    (h : OneEdit b a goes) (each : ∀ v e, goes v e → ¬ e.Declaring ∧ e.attachment? = none) :
    b.Refers [] (a.outcome b).2 := by
  have found : b.Refers (a.ifMade b fun _ _ => []) (a.outcome b).2 := h.refers fun v e goes =>
    ⟨(each v e goes).1, by rw [(each v e goes).2]; rfl⟩
  rwa [Action.ifMade_nothing] at found

namespace Builder

theorem whereVar_refers (b : Builder) (name : String) (clauses : List Clause) :
    b.Refers (b.attachedWhere name clauses) ((whereVar name clauses).outcome b).2 := by
  refine (b.whereVar_oneEdit name clauses).refers ?_
  rintro _ _ ⟨p, asked, rfl⟩
  exact ⟨id, by rw [asked]; rfl⟩

theorem distinctRows_refers (b : Builder) : b.Refers [] (distinctRows.outcome b).2 := by
  refine b.distinctRows_oneEdit.refers_nothing ?_
  rintro _ _ rfl
  exact ⟨id, rfl⟩

theorem direction_refers (b : Builder) (d : Direction) : b.Refers [] ((direction d).outcome b).2 := by
  refine (b.direction_oneEdit d).refers_nothing ?_
  rintro _ _ rfl
  exact ⟨id, rfl⟩

theorem request_refers (b : Builder) (i : Option String) : b.Refers [] ((request i).outcome b).2 := by
  refine (b.request_oneEdit i).refers_nothing ?_
  rintro _ _ ⟨_, rfl⟩
  exact ⟨id, rfl⟩

theorem select_refers (b : Builder) (columns : List Projection) : b.Refers [] ((select columns).outcome b).2 := by
  refine (b.select_oneEdit columns).refers_nothing ?_
  rintro _ _ rfl
  exact ⟨id, rfl⟩

namespace ScopeCall

variable {var : String}

theorem run_refers (c : ScopeCall) {b : Builder} (declared : b.Declares var) :
    b.Refers (c.attached var b) ((c.run var).outcome b).2 := by
  induction c with
  | attach condition mode =>
      refine (b.attach_oneEdit var condition.2 mode).refers ?_
      rintro _ _ rfl
      exact ⟨id, rfl⟩
  | whereWith clauses => exact b.whereVar_refers var clauses
  | select props =>
      refine (b.selectProperties_oneEdit declared props).refers_nothing ?_
      rintro _ _ ⟨_, rfl⟩
      exact ⟨id, rfl⟩
  | distinct => exact b.distinctRows_refers
  | direction d => exact b.direction_refers d
  | request i => exact b.request_refers i
  | fail cause => exact .nothing b
  | attempt call ih =>
      simp only [run, Action.outcome_discard_attempt]
      exact ih

theorem runAll_refers (body : List ScopeCall) {b : Builder} (declared : b.Declares var) :
    b.Refers (attachedAll var b body) ((runAll var body).outcome b).2 := by
  induction body generalizing b with
  | nil => exact .nothing b
  | cons c body ih =>
      have first := c.run_refers declared
      simp only [runAll, attachedAll, Action.ifMade, Action.outcome_bind]
      cases here : (c.run var).outcome b with
      | mk r d =>
          rw [here] at first
          cases r with
          | error f => simpa using first
          | ok _ => exact first.append (ih (first.declares declared))

end ScopeCall

def Introduces (b d : Builder) : Prop := ∃ es, Edited b es d ∧ ∀ e ∈ es, e.Declaring

theorem Introduces.nothing (b : Builder) : b.Introduces b := ⟨[], .nil, by simp⟩

theorem Introduces.append {b c d : Builder} (h : b.Introduces c) (k : c.Introduces d) : b.Introduces d := by
  obtain ⟨es, edited, introducing⟩ := h
  obtain ⟨fs, further, introducing'⟩ := k
  exact ⟨es ++ fs, edited.append further, List.forall_mem_append.mpr ⟨introducing, introducing'⟩⟩

/-- A call declares variables, and then it refers to them. -/
def Changes (b : Builder) (attached : List Attachment) (d : Builder) : Prop :=
  ∃ c, b.Introduces c ∧ c.Refers attached d

theorem Refers.changes {b d : Builder} {attached : List Attachment} (h : b.Refers attached d) : b.Changes attached d :=
  ⟨b, .nothing b, h⟩

theorem Introduces.changes {b d : Builder} (h : b.Introduces d) : b.Changes [] d := ⟨d, h, .nothing d⟩

theorem introduces_of_oneEdit {α : Type} {b : Builder} {a : Action Builder α} {goes : α → Edit → Prop}
    (h : OneEdit b a goes) (each : ∀ v e, goes v e → e.Declaring) : b.Introduces (a.outcome b).2 := by
  cases h with
  | failed failed =>
      rw [failed]
      exact .nothing b
  | made made allowed goes =>
      rw [made]
      exact ⟨_, .single allowed, List.forall_mem_singleton.mpr (each _ _ goes)⟩

theorem matchTarget_introduces (b : Builder) (target : Target) :
    b.Introduces ((Builder.matchTarget target).outcome b).2 := by
  refine introduces_of_oneEdit (b.matchTarget_oneEdit target) ?_
  rintro _ _ ⟨_, rfl⟩
  trivial

theorem traverse_introduces (b : Builder) (edgeType : Option String) (target : Target) :
    b.Introduces ((Builder.traverse edgeType target).outcome b).2 := by
  refine introduces_of_oneEdit (b.traverse_oneEdit edgeType target) ?_
  rintro _ _ ⟨_, _, rfl⟩
  trivial

theorem matchAll_introduces (b : Builder) (targets : List Target) :
    b.Introduces ((Builder.matchAll targets).outcome b).2 := by
  have each : ∀ b : Builder, b.Introduces ((targets.forM Builder.matchTarget : Action Builder PUnit).outcome b).2 := by
    induction targets with
    | nil => exact .nothing
    | cons target targets ih =>
        intro b
        have first := b.matchTarget_introduces target
        simp only [List.forM_eq_forM, List.forM_cons, Action.outcome_bind] at ih ⊢
        cases here : (Builder.matchTarget target).outcome b with
        | mk r d =>
            rw [here] at first
            cases r with
            | error f => exact first
            | ok _ => exact first.append (ih d)
  rw [b.matchAll_leaves targets]
  exact each b

theorem nodes_changes (b : Builder) (label : String) (body : List ScopeCall) :
    b.Changes ((Call.nodes label body).attached b) (b.step (.nodes label body)) := by
  simp only [step, Call.run, Call.attached, Action.ifMade, Action.outcome_bind]
  cases b.nodes_oneEdit label with
  | failed failed =>
      rw [failed]
      exact (Refers.nothing b).changes
  | @made name _ made allowed goes =>
      obtain ⟨counter, rfl⟩ := goes
      rw [made]
      have declared := Edit.declares_declare b name (some label) counter
      exact ⟨_, ⟨_, .single allowed, List.forall_mem_singleton.mpr trivial⟩, ScopeCall.runAll_refers body declared⟩

theorem inScope_changes (b : Builder) (name : String) (body : List ScopeCall) :
    b.Changes ((Call.inScope name body).attached b) (b.step (.inScope name body)) := by
  simp only [step, Call.run, withScope, Call.attached, Action.ifMade, Action.outcome_bind]
  rcases b.scope_outcome name with ⟨f, failed⟩ | ⟨entered, _, labelled⟩
  · rw [failed]
    exact (Refers.nothing b).changes
  · rw [entered]
    exact (ScopeCall.runAll_refers body (declares_of_label labelled)).changes

theorem step_changes (b : Builder) (c : Call) : b.Changes (c.attached b) (b.step c) := by
  cases c with
  | nodes label body => exact b.nodes_changes label body
  | matchTarget target => exact (b.matchTarget_introduces target).changes
  | matchAll targets => exact (b.matchAll_introduces targets).changes
  | traverse edgeType target => exact (b.traverse_introduces edgeType target).changes
  | direction d => exact (b.direction_refers d).changes
  | inScope name body => exact b.inScope_changes name body
  | whereVar name clauses => exact (b.whereVar_refers name clauses).changes
  | distinct => exact b.distinctRows_refers.changes
  | request i => exact (b.request_refers i).changes
  | select columns => exact (b.select_refers columns).changes

theorem Changes.edited {b d : Builder} {attached : List Attachment} (h : b.Changes attached d) :
    ∃ es, Edited b es d ∧ es.filterMap Edit.attachment? = attached := by
  obtain ⟨c, ⟨es, first, introducing⟩, fs, later, _, rfl⟩ := h
  refine ⟨es ++ fs, first.append later, ?_⟩
  have none : es.filterMap Edit.attachment? = [] := by
    rw [List.filterMap_eq_nil_iff]
    intro e member
    have := introducing e member
    cases e <;> first | rfl | cases this
  rw [List.filterMap_append, none, List.nil_append]

/-- Whatever calls are made, the builder comes from edits that were allowed, and it asks what the calls have attached. -/
theorem after_edited (b : Builder) (calls : List Call) :
    ∃ es, Edited b es (b.after calls) ∧ es.filterMap Edit.attachment? = b.attachments calls := by
  induction calls generalizing b with
  | nil => exact ⟨[], .nil, rfl⟩
  | cons c calls ih =>
      obtain ⟨es, first, here⟩ := (b.step_changes c).edited
      obtain ⟨fs, later, there⟩ := ih (b.step c)
      exact ⟨es ++ fs, first.append later, by rw [List.filterMap_append, here, there]; rfl⟩

end Builder
end GraphClient
