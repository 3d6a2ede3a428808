import GraphClient.Proofs.Query.Atomicity

/-!
Where edges come from. The trail of calls holds what those that succeed have done on the way: variables that were
entered, edges that were followed and directions that were set. The edges of the query, the current variable and the
direction of the next edge can all be read off it.
-/
namespace GraphClient

inductive Waypoint
  | entered (name : String)
  | followed (edgeType : Option String) (name : String)
  | turned (d : Direction)
deriving DecidableEq, Repr

namespace Waypoint

def name? : Waypoint → Option String
  | entered name | followed _ name => some name
  | turned _ => none

def direction? : Waypoint → Option Direction
  | turned d => some d
  | entered _ | followed _ _ => none

def isEdge : Waypoint → Bool
  | followed _ _ => true
  | entered _ | turned _ => false

/-- The variable that was entered last, along an edge or not. -/
def place (trail : List Waypoint) : Option String := (trail.filterMap name?).getLast?

/-- The direction that was set last, unless an edge has been followed since. -/
def heading (trail : List Waypoint) : Direction :=
  ((trail.reverse.takeWhile (!·.isEdge)).findSome? direction?).getD .outgoing

section
variable (trail : List Waypoint) (edgeType : Option String) (name : String) (d : Direction)

@[simp] theorem place_entered : place (trail ++ [.entered name]) = some name := by
  simp [place, name?]

@[simp] theorem place_followed : place (trail ++ [.followed edgeType name]) = some name := by
  simp [place, name?]

@[simp] theorem place_turned : place (trail ++ [.turned d]) = place trail := by
  simp [place, name?]

@[simp] theorem heading_entered : heading (trail ++ [.entered name]) = heading trail := by
  simp [heading, isEdge, direction?, List.findSome?_cons]

@[simp] theorem heading_followed : heading (trail ++ [.followed edgeType name]) = .outgoing := by
  simp [heading, isEdge]

@[simp] theorem heading_turned : heading (trail ++ [.turned d]) = d := by
  simp [heading, isEdge, direction?, List.findSome?_cons]

end

end Waypoint

def Edit.waypoint? : Edit → Option Waypoint
  | declare name _ _ => some (.entered name)
  | follow _ edgeType name _ _ => some (.followed edgeType name)
  | turn d => some (.turned d)
  | ask _ _ | choose _ | add _ | distinct | identify _ => none

theorem append_singleton_eq_append_cons {α : Type} {front before after : List α} {a x : α}
    (h : front ++ [a] = before ++ x :: after) :
    before = front ∧ x = a ∧ after = [] ∨ ∃ rest, after = rest ++ [a] ∧ front = before ++ x :: rest := by
  rcases List.eq_nil_or_concat after with rfl | ⟨rest, b, rfl⟩
  · obtain ⟨rfl, same⟩ := List.append_inj' h rfl
    cases same
    exact .inl ⟨rfl, rfl, rfl⟩
  · rw [List.concat_eq_append, ← List.cons_append, ← List.append_assoc] at h
    obtain ⟨rfl, same⟩ := List.append_inj' h rfl
    cases same
    exact .inr ⟨rest, List.concat_eq_append, rfl⟩

namespace Builder

open Waypoint

theorem build_edges (b : Builder) : b.build.edges = b.edges := rfl

/-- What the trail of a builder says of it. -/
structure Along (trail : List Waypoint) (b : Builder) : Prop where
  edges : b.build.edges.length = trail.countP isEdge
  edge : ∀ before edgeType name after, trail = before ++ .followed edgeType name :: after →
    ∃ source, place before = some source ∧
      b.build.edges[before.countP isEdge]? = some ⟨source, name, edgeType, heading before⟩
  current : b.current = place trail
  pending : b.pending = heading trail

namespace Along

variable {trail : List Waypoint} {b d : Builder}

theorem start (schema : Option Schema) : Along [] (new schema) where
  edges := rfl
  edge := by simp
  current := rfl
  pending := rfl

theorem turn (h : Along trail b) {w : Waypoint} (quiet : w.isEdge = false) (edges : d.edges = b.edges)
    (current : d.current = place (trail ++ [w])) (pending : d.pending = heading (trail ++ [w])) :
    Along (trail ++ [w]) d where
  edges := by
    rw [build_edges, edges, List.countP_append, ← h.edges]
    simp [quiet, build_edges]
  edge := by
    intro before edgeType name after split
    rw [build_edges, edges]
    -- the new waypoint is no edge, so it is not the one at which the trail is cut
    rcases append_singleton_eq_append_cons split with ⟨_, rfl, _⟩ | ⟨rest, _, split⟩
    · cases quiet
    · exact h.edge before edgeType name rest split
  current := current
  pending := pending

theorem follow (h : Along trail b) {source name : String} (here : b.current = some source) (edgeType : Option String)
    (edges : d.edges = b.edges ++ [⟨source, name, edgeType, b.pending⟩]) (current : d.current = some name)
    (pending : d.pending = .outgoing) : Along (trail ++ [.followed edgeType name]) d where
  edges := by
    rw [build_edges, edges, List.countP_append, ← h.edges]
    simp [isEdge, build_edges]
  edge := by
    intro before edgeType' name' after split
    rw [build_edges, edges]
    rcases append_singleton_eq_append_cons split with ⟨rfl, same, _⟩ | ⟨rest, _, split⟩
    · -- The new edge is the last, and takes its place and its heading from the whole trail before it.
      cases same
      refine ⟨source, h.current ▸ here, ?_⟩
      rw [← h.edges, ← h.pending]
      exact List.getElem?_concat_length
    · obtain ⟨source, last, found⟩ := h.edge before edgeType' name' rest split
      have inside := (List.getElem?_eq_some_iff.mp found).1
      exact ⟨source, last, (List.getElem?_append_left inside).trans found⟩
  current := by rw [current, place_followed]
  pending := by rw [pending, heading_followed]

end Along

theorem Along.apply {trail : List Waypoint} {b : Builder} (h : Along trail b) {e : Edit} (allowed : e.Allowed b) :
    Along (trail ++ e.waypoint?.toList) (e.apply b) := by
  cases e with
  | declare name label counter =>
      refine h.turn rfl rfl ?_ ?_
      · exact (place_entered trail name).symm
      · exact h.pending.trans (heading_entered trail name).symm
  | follow source edgeType name label counter => exact h.follow allowed.1 edgeType rfl rfl rfl
  | turn d =>
      refine h.turn rfl rfl ?_ ?_
      · exact h.current.trans (place_turned trail d).symm
      · exact (heading_turned trail d).symm
  | ask _ _ | choose _ | add _ | distinct | identify _ =>
      rw [Edit.waypoint?, Option.toList_none, List.append_nil]
      exact { edges := h.edges, edge := h.edge, current := h.current, pending := h.pending }

theorem Along.edited {trail : List Waypoint} {b d : Builder} {es : List Edit} (h : Along trail b) (edited : Edited b es d) :
    Along (trail ++ es.filterMap Edit.waypoint?) d := by
  induction edited generalizing trail with
  | nil => simpa using h
  | @cons b e es d allowed _ ih =>
      have rest := ih (h.apply allowed)
      cases seen : e.waypoint? <;> simpa [seen] using rest

/-! The trail of calls. -/

def targetsTrail (b : Builder) : List Target → List Waypoint
  | [] => []
  | target :: targets => (matchTarget target).ifMade b fun _ d =>
    .entered (target.nameIn b) :: targetsTrail d targets

def ScopeCall.trail : ScopeCall → List Waypoint
  | direction d => [.turned d]
  | attempt call => call.trail
  | attach _ _ | whereWith _ | select _ | distinct | request _ | fail _ => []

def ScopeCall.trailAll (var : String) (b : Builder) : List ScopeCall → List Waypoint
  | [] => []
  | c :: cs => c.trail ++ (c.run var).ifMade b fun _ d => trailAll var d cs

def Call.trail (b : Builder) : Call → List Waypoint
  | nodes label body => (Builder.nodes label).ifMade b fun var d => .entered var :: ScopeCall.trailAll var d body
  | matchTarget target => (Builder.matchTarget target).ifMade b fun _ _ => [.entered (target.nameIn b)]
  | matchAll targets => b.targetsTrail targets
  | traverse edgeType target =>
    (Builder.traverse edgeType target).ifMade b fun _ _ => [.followed edgeType (target.nameIn b)]
  | direction d => [.turned d]
  | inScope name body => (scope name).ifMade b fun var d => ScopeCall.trailAll var d body
  | whereVar _ _ | distinct | request _ | select _ => []

def trail (b : Builder) : List Call → List Waypoint
  | [] => []
  | c :: cs => c.trail b ++ (b.step c).trail cs

def Leads (b : Builder) (trail : List Waypoint) (d : Builder) : Prop :=
  ∃ es, Edited b es d ∧ es.filterMap Edit.waypoint? = trail

theorem Leads.nowhere (b : Builder) : b.Leads [] b := ⟨[], .nil, rfl⟩

theorem Leads.append {b c d : Builder} {first later : List Waypoint} (h : b.Leads first c) (k : c.Leads later d) :
    b.Leads (first ++ later) d := by
  obtain ⟨es, edited, rfl⟩ := h
  obtain ⟨fs, further, rfl⟩ := k
  exact ⟨es ++ fs, edited.append further, List.filterMap_append⟩

section
variable {α : Type} {b : Builder} {a : Action Builder α} {goes : α → Edit → Prop} (h : OneEdit b a goes)
include h

theorem leads_of_oneEdit {found : α → Builder → List Waypoint}
    (each : ∀ v e, goes v e → e.waypoint?.toList = found v (e.apply b)) : b.Leads (a.ifMade b found) (a.outcome b).2 := by
  cases h with
  | failed failed =>
      rw [Action.ifMade, failed]
      exact .nowhere b
  | @made v e made allowed goes =>
      rw [Action.ifMade, made]
      refine ⟨[e], .single allowed, Eq.trans ?_ (each v e goes)⟩
      cases seen : e.waypoint? <;> simp [seen]

theorem leads_nowhere_of_oneEdit (each : ∀ v e, goes v e → e.waypoint? = none) : b.Leads [] (a.outcome b).2 := by
  have found : b.Leads (a.ifMade b fun _ _ => []) (a.outcome b).2 :=
    leads_of_oneEdit h fun v e goes => by rw [each v e goes]; rfl
  rwa [Action.ifMade_nothing] at found

end

theorem direction_leads (b : Builder) (d : Direction) : b.Leads [.turned d] ((direction d).outcome b).2 :=
  ⟨[.turn d], .single trivial, rfl⟩

theorem whereVar_leads (b : Builder) (name : String) (clauses : List Clause) :
    b.Leads [] ((whereVar name clauses).outcome b).2 := by
  refine leads_nowhere_of_oneEdit (b.whereVar_oneEdit name clauses) ?_
  rintro _ _ ⟨_, _, rfl⟩
  rfl

theorem distinctRows_leads (b : Builder) : b.Leads [] (distinctRows.outcome b).2 := by
  refine leads_nowhere_of_oneEdit b.distinctRows_oneEdit ?_
  rintro _ _ rfl
  rfl

theorem request_leads (b : Builder) (id : Option String) : b.Leads [] ((request id).outcome b).2 := by
  refine leads_nowhere_of_oneEdit (b.request_oneEdit id) ?_
  rintro _ _ ⟨_, rfl⟩
  rfl

theorem select_leads (b : Builder) (columns : List Projection) : b.Leads [] ((select columns).outcome b).2 := by
  refine leads_nowhere_of_oneEdit (b.select_oneEdit columns) ?_
  rintro _ _ rfl
  rfl

namespace ScopeCall

variable {var : String}

theorem run_leads (c : ScopeCall) {b : Builder} (declared : b.Declares var) :
    b.Leads c.trail ((c.run var).outcome b).2 := by
  induction c with
  | attach condition mode =>
      refine leads_nowhere_of_oneEdit (b.attach_oneEdit var condition.2 mode) ?_
      rintro _ _ rfl
      rfl
  | whereWith clauses => exact b.whereVar_leads var clauses
  | select props =>
      refine leads_nowhere_of_oneEdit (b.selectProperties_oneEdit declared props) ?_
      rintro _ _ ⟨_, rfl⟩
      rfl
  | distinct => exact b.distinctRows_leads
  | direction d => exact b.direction_leads d
  | request id => exact b.request_leads id
  | fail cause => exact .nowhere b
  | attempt call ih =>
      rw [run, Action.outcome_discard_attempt]
      exact ih

theorem runAll_leads (body : List ScopeCall) {b : Builder} (declared : b.Declares var) :
    b.Leads (trailAll var b body) ((runAll var body).outcome b).2 := by
  induction body generalizing b with
  | nil => exact .nowhere b
  | cons c body ih =>
      have first := c.run_leads declared
      have kept := (c.run_refers declared).declares declared
      rw [runAll, trailAll, Action.ifMade, Action.outcome_bind]
      cases here : (c.run var).outcome b with
      | mk r d =>
          rw [here] at first kept
          cases r with
          | error f => simpa using first
          | ok _ => exact first.append (ih kept)

end ScopeCall

theorem matchTarget_leads (b : Builder) (target : Target) :
    b.Leads ((matchTarget target).ifMade b fun _ _ => [.entered (target.nameIn b)]) ((matchTarget target).outcome b).2 := by
  refine leads_of_oneEdit (b.matchTarget_oneEdit target) ?_
  rintro _ _ ⟨_, rfl⟩
  rfl

theorem traverse_leads (b : Builder) (edgeType : Option String) (target : Target) :
    b.Leads ((traverse edgeType target).ifMade b fun _ _ => [.followed edgeType (target.nameIn b)])
      ((traverse edgeType target).outcome b).2 := by
  refine leads_of_oneEdit (b.traverse_oneEdit edgeType target) ?_
  rintro _ _ ⟨_, _, rfl⟩
  rfl

theorem forM_matchTarget_leads (b : Builder) (targets : List Target) :
    b.Leads (b.targetsTrail targets) ((targets.forM matchTarget : Action Builder PUnit).outcome b).2 := by
  induction targets generalizing b with
  | nil => exact .nowhere b
  | cons target targets ih =>
      have first := b.matchTarget_leads target
      rw [targetsTrail, List.forM_eq_forM, List.forM_cons, Action.outcome_bind]
      rw [Action.ifMade] at first ⊢
      cases here : (matchTarget target).outcome b with
      | mk r d =>
          rw [here] at first
          cases r with
          | error f => exact first
          | ok _ => exact first.append (ih d)

theorem matchAll_leads (b : Builder) (targets : List Target) :
    b.Leads (b.targetsTrail targets) ((matchAll targets).outcome b).2 := by
  rw [b.matchAll_leaves targets]
  exact b.forM_matchTarget_leads targets

theorem nodes_leads (b : Builder) (label : String) (body : List ScopeCall) :
    b.Leads ((Call.nodes label body).trail b) (b.step (.nodes label body)) := by
  rw [step, Call.run, Call.trail, Action.ifMade, Action.outcome_bind]
  cases b.nodes_oneEdit label with
  | failed failed =>
      rw [failed]
      exact .nowhere b
  | @made name _ made allowed goes =>
      obtain ⟨counter, rfl⟩ := goes
      rw [made]
      have declared := Edit.declares_declare b name (some label) counter
      have entered : b.Leads [.entered name] (Edit.apply b (.declare name (some label) counter)) :=
        ⟨_, .single allowed, rfl⟩
      exact entered.append (ScopeCall.runAll_leads body declared)

theorem inScope_leads (b : Builder) (name : String) (body : List ScopeCall) :
    b.Leads ((Call.inScope name body).trail b) (b.step (.inScope name body)) := by
  rw [step, Call.run, withScope, Call.trail, Action.ifMade, Action.outcome_bind]
  rcases b.scope_outcome name with ⟨f, failed⟩ | ⟨entered, _, labelled⟩
  · rw [failed]
    exact .nowhere b
  · rw [entered]
    exact ScopeCall.runAll_leads body (declares_of_label labelled)

theorem step_leads (b : Builder) (c : Call) : b.Leads (c.trail b) (b.step c) := by
  cases c with
  | nodes label body => exact b.nodes_leads label body
  | matchTarget target => exact b.matchTarget_leads target
  | matchAll targets => exact b.matchAll_leads targets
  | traverse edgeType target => exact b.traverse_leads edgeType target
  | direction d => exact b.direction_leads d
  | inScope name body => exact b.inScope_leads name body
  | whereVar name clauses => exact b.whereVar_leads name clauses
  | distinct => exact b.distinctRows_leads
  | request id => exact b.request_leads id
  | select columns => exact b.select_leads columns

theorem after_leads (b : Builder) (calls : List Call) : b.Leads (b.trail calls) (b.after calls) := by
  induction calls generalizing b with
  | nil => exact .nowhere b
  | cons c calls ih => exact (b.step_leads c).append (ih (b.step c))

/-! Failing calls. -/

theorem Refers.current {b d : Builder} {attached : List Attachment} (h : b.Refers attached d) : d.current = b.current := by
  obtain ⟨es, edited, quiet, _⟩ := h
  refine edited.keeps_of_all (P := fun c => c.current = b.current) ?_ quiet rfl
  intro c e same _ quiet
  cases e with
  | declare _ _ _ | follow _ _ _ _ _ => exact absurd trivial quiet
  | _ => exact same

/-- What failing calls leave alone. A scope that is opened on new nodes leaves them current, also if a call on it fails. -/
structure KeepsPlace (b : Builder) : Prop where
  pending : ∀ edgeType target f d, (traverse edgeType target).outcome b = (.error f, d) → d.pending = b.pending
  current : ∀ (c : Call) f d, c.run.outcome b = (.error f, d) → (∀ targets, c ≠ .matchAll targets) →
    d.current = b.current ∨
      ∃ label body var e, c = .nodes label body ∧ (nodes label).outcome b = (.ok var, e) ∧ d.current = some var
  scopeCall : ∀ var (c : ScopeCall) f d, (c.run var).outcome b = (.error f, d) → d.current = b.current

theorem nodes_failed {b d : Builder} {label : String} {body : List ScopeCall} {f : Failure}
    (h : (Call.nodes label body).run.outcome b = (.error f, d)) :
    d = b ∨ ∃ var e, (nodes label).outcome b = (.ok var, e) ∧ d.current = some var := by
  cases b.nodes_oneEdit label with
  | failed failed =>
      rw [Call.run, Action.outcome_bind_error failed] at h
      cases h
      exact .inl rfl
  | @made name _ made allowed goes =>
      obtain ⟨counter, rfl⟩ := goes
      rw [Call.run, Action.outcome_bind_ok made] at h
      have declared := Edit.declares_declare b name (some label) counter
      have stays := (ScopeCall.runAll_refers body declared).current
      rw [h] at stays
      exact .inr ⟨name, _, made, stays⟩

theorem inScope_failed {b d : Builder} {name : String} {body : List ScopeCall} {f : Failure}
    (h : (Call.inScope name body).run.outcome b = (.error f, d)) : d.current = b.current := by
  rcases b.scope_outcome name with ⟨f, failed⟩ | ⟨entered, _, labelled⟩
  · rw [Call.run, withScope, Action.outcome_bind_error failed] at h
    cases h
    rfl
  · rw [Call.run, withScope, Action.outcome_bind_ok entered] at h
    have stays := (ScopeCall.runAll_refers body (declares_of_label labelled)).current
    rwa [h] at stays

theorem keepsPlace (b : Builder) : b.KeepsPlace where
  pending edgeType target f d failed := by rw [(b.traverse_oneEdit edgeType target).atomicAt f d failed]
  current c f d failed other := by
    cases c with
    | nodes label body =>
        rcases nodes_failed failed with rfl | ⟨var, e, entered, stays⟩
        · exact .inl rfl
        · exact .inr ⟨label, body, var, e, rfl, entered, stays⟩
    | matchTarget target => exact .inl (by rw [(b.matchTarget_oneEdit target).atomicAt f d failed])
    | matchAll targets => exact absurd rfl (other targets)
    | traverse edgeType target => exact .inl (by rw [(b.traverse_oneEdit edgeType target).atomicAt f d failed])
    | direction way => exact .inl (by rw [(b.direction_oneEdit way).atomicAt f d failed])
    | inScope name body => exact .inl (inScope_failed failed)
    | whereVar name clauses => exact .inl (by rw [(b.whereVar_oneEdit name clauses).atomicAt f d failed])
    | distinct => exact .inl (by rw [b.distinctRows_oneEdit.atomicAt f d failed])
    | request id => exact .inl (by rw [(b.request_oneEdit id).atomicAt f d failed])
    | select columns => exact .inl (by rw [(b.select_oneEdit columns).atomicAt f d failed])
  scopeCall var c f d failed := by rw [c.run_atomicAt var b f d failed]

/-- The edges of a query are those that its calls have followed, each from where they had come to and under the heading
they had then. A traversal that fails keeps the heading, and failing calls stay at the current variable, but for several
targets of which some are matched before one fails. -/
theorem edges_follow_trail (schema : Option Schema) (calls : List Call) :
    Along ((new schema).trail calls) ((new schema).after calls) ∧ ((new schema).after calls).KeepsPlace := by
  obtain ⟨es, edited, seen⟩ := (new schema).after_leads calls
  refine ⟨?_, keepsPlace _⟩
  rw [← seen]
  exact (Along.start schema).edited edited

example : (new none).trail [.nodes "User" [.direction .incoming], .traverse (some " ") (.label "User"),
      .traverse (some "KNOWS") (.variable "a" none), .inScope "a" [.direction .both, .select []]] =
    [.entered "a", .turned .incoming, .followed (some "KNOWS") "a", .turned .both] := by decide +kernel

end Builder
end GraphClient
