import GraphClient.Engine.Scripted
import GraphClient.Proofs.Creation.Calls
import GraphClient.Proofs.Mutation.Validation

/-!
The names under which nodes and edges are created. Each call that creates something looks at them by itself, and a call
that finds one missing or blank does nothing at all; but the one that queues a node does not look for blank labels.
-/
namespace GraphClient.Creation

open Engine (Observed)
open Mutation (EdgeLoad)
open Database (EdgeFits Load)

structure Desk (σ : Type) where
  handle : Database σ
  draft : Draft
  batch : Batch

structure Desk.Opened {σ : Type} (w : Desk σ) : Prop where
  handle : w.handle.closed = false
  draft : w.draft.isSealed = false
  batch : w.batch.isSealed = false

inductive Creating
  | draftNode (labels : List String) (props : Props) (aliasName : Option String)
  | draftEdge (source : Ref) (edgeType : String) (target : Ref) (props : Props)
  | queueNode (labels : List String) (props : Props)
  | queueEdge (source target : UInt64) (edgeType : String) (props : Props)
  | node (labels : List String) (props : Props)
  | edge (source target : UInt64) (edgeType : String) (props : Props)
  | loadNodes (label : String) (each : List Props) (size : Option Nat)
  | loadEdges (each : List EdgeLoad) (size : Option Nat)

namespace Creating

section
variable {σ τ α : Type} {get : Desk σ → τ} {put : Desk σ → τ → Desk σ}

def on (get : Desk σ → τ) (put : Desk σ → τ → Desk σ) (a : Action τ α) : Action (Desk σ) Unit :=
  discard (a.within get put)

theorem on_outcome (a : Action τ α) (w : Desk σ) :
    (on get put a).outcome w = ((fun _ => ()) <$> (a.outcome (get w)).1, put w (a.outcome (get w)).2) := by
  rw [on, Action.outcome_discard, Action.outcome_within]

theorem on_refused {a : Action τ α} {w : Desk σ} {f : Failure} (refused : a.outcome (get w) = (.error f, get w))
    (same : put w (get w) = w) : (on get put a).outcome w = (.error f, w) := by
  rw [on_outcome, refused, same, map_error]

def onHandle (a : Action (Database σ) α) : Action (Desk σ) Unit := on Desk.handle (fun w handle => { w with handle }) a

def onDraft (a : Action Draft α) : Action (Desk σ) Unit := on Desk.draft (fun w draft => { w with draft }) a

def onBatch (a : Action Batch α) : Action (Desk σ) Unit := on Desk.batch (fun w batch => { w with batch }) a

end

def run {σ : Type} [Engine σ] : Creating → Action (Desk σ) Unit
  | draftNode labels props aliasName => onDraft (Draft.node labels props aliasName)
  | draftEdge source edgeType target props => onDraft (Draft.edge source edgeType target props)
  | queueNode labels props => onBatch (Batch.createNode labels props)
  | queueEdge source target edgeType props => onBatch (Batch.createEdge source target edgeType props)
  | node labels props => onHandle (Database.createNode labels props)
  | edge source target edgeType props => onHandle (Database.createEdge source target edgeType props)
  | loadNodes label each size => onHandle (Database.loadNodes label each size)
  | loadEdges each size => onHandle (Database.loadEdges each size)

def Unnamed : Creating → Prop
  | draftNode labels _ _ | queueNode labels _ | node labels _ => labels = [] ∨ ∃ l ∈ labels, Text.isBlank l = true
  | draftEdge _ edgeType _ _ | queueEdge _ _ edgeType _ | edge _ _ edgeType _ => Text.isBlank edgeType = true
  | loadNodes label _ _ => Text.isBlank label = true
  | loadEdges each _ => ∃ e ∈ each, Text.isBlank e.edgeType = true

def RestFits {σ : Type} (w : Desk σ) : Creating → Prop
  | draftNode labels props aliasName =>
    (∀ s ∈ w.draft.schema, s.AdmitsNode labels props) ∧
      ∀ name ∈ aliasName, Text.isBlank name = false ∧ name ∉ w.draft.taken
  | draftEdge source edgeType target props =>
    (∀ s ∈ w.draft.schema, s.AdmitsEdge edgeType props) ∧
      Draft.reference source = .ok source ∧ Draft.reference target = .ok target
  | queueNode labels props => ∀ s ∈ w.batch.schema, s.AdmitsNode labels props
  | queueEdge _ _ edgeType props => ∀ s ∈ w.batch.schema, s.AdmitsEdge edgeType props
  | node labels props => ∀ s ∈ w.handle.schema, s.AdmitsNode labels props
  | edge _ _ edgeType props => ∀ s ∈ w.handle.schema, s.AdmitsEdge edgeType props
  | loadNodes label each size =>
    0 < size.getD w.handle.options.nodeChunk ∧ ∀ s ∈ w.handle.schema, ∀ props ∈ each, s.AdmitsNode [label] props
  | loadEdges each size =>
    0 < size.getD w.handle.options.edgeChunk ∧
      ∀ e ∈ each, Text.isBlank e.edgeType = true ∨ EdgeFits w.handle.schema e

/-- A blank label that is not looked for. -/
def Overlooks : Creating → Prop
  | queueNode labels _ | node labels _ => labels ≠ [] ∧ ∃ l ∈ labels, Text.isBlank l = true
  | _ => False

section
variable {σ : Type} [Engine σ]

/-- The call fails for its arguments. It leaves the draft and the batch as they are, and the engine hears of nothing. -/
def Refused (w : Desk (Observed σ)) (c : Creating) : Prop := ∃ m, c.run.outcome w = (.error (.argument m), w)

/-- If nothing else is wrong, a name that is missing or blank is refused. -/
def KeepsOut (w : Desk (Observed σ)) (c : Creating) : Prop := w.Opened → c.RestFits w → c.Unnamed → c.Refused w

end
end Creating

/-! What each call does with a name that is missing or blank. -/

section
variable {σ : Type} {labels : List String} {props : Props}

theorem blank_refused {what text : String} (blank : Text.isBlank text = true) (s : σ) :
    (Action.check (nonBlank what text) : Action σ String).outcome s = (.error (.argument (.blank what)), s) := by
  rw [Action.outcome_check, nonBlank, if_pos blank]

theorem Draft.checkNode_refuses {d : Draft} (opened : d.isSealed = false)
    (unnamed : labels = [] ∨ ∃ l ∈ labels, Text.isBlank l = true) (props : Props) :
    ∃ m, (checkNode labels props).outcome d = (.error (.argument m), d) := by
  rw [checkNode, Action.outcome_bind_ok (requireOpen_opened opened)]
  rcases unnamed with rfl | blank
  · exact ⟨_, rfl⟩
  · obtain ⟨l, member, unseen⟩ := blank
    have some : labels.isEmpty = false := by simp [List.ne_nil_of_mem member]
    have among : labels.any Text.isBlank = true := List.any_eq_true.mpr ⟨l, member, unseen⟩
    rw [some, among]
    exact ⟨_, rfl⟩

theorem createEdge_refuses {edgeType : String} (blank : Text.isBlank edgeType = true) (source target : UInt64)
    (props : Props) (b : Batch) :
    (Batch.createEdge source target edgeType props).outcome b = (.error (.argument (.blank "edge type")), b) :=
  Action.outcome_bind_error (blank_refused blank b) _

theorem createNode_refuses (props : Props) (b : Batch) :
    (Batch.createNode [] props).outcome b = (.error (.argument (.noLabel "createNode")), b) := rfl

theorem createNode_queues {b : Batch} (opened : b.isSealed = false) (some : labels ≠ [])
    (admitted : ∀ s ∈ b.schema, s.AdmitsNode labels props) :
    (Batch.createNode labels props).outcome b = (.ok (), { b with ops := b.ops ++ [.createNode labels props] }) := by
  have same : Batch.createNode labels props = Batch.queue (.createNode labels props) := by
    simp [Batch.createNode, some]
  rw [same]
  exact Batch.queue_accepted opened (Mutation.conforms?_eq_ok_iff.mpr admitted)

theorem createNode_sends [Engine σ] {db : Database σ} (opened : db.closed = false) (some : labels ≠ [])
    (admitted : ∀ s ∈ db.schema, s.AdmitsNode labels props) :
    ((Database.createNode labels props).outcome db).2.engine =
      ((Engine.answer (.mutate ⟨[.createNode labels props]⟩)).outcome db.engine).2 := by
  have queued := createNode_queues (b := .new db.schema) rfl some admitted
  have conforming : ∀ m ∈ [Mutation.createNode labels props], m.conforms? db.schema = .ok () :=
    List.forall_mem_singleton.mpr (Mutation.conforms?_eq_ok_iff.mpr admitted)
  rw [Database.createNode, bind_pure_comp, Action.outcome_map, Database.single_filled opened queued,
    Database.commit_sent opened rfl conforming]
  rfl

end

namespace Creating

section
variable {σ : Type} [Engine σ] {w : Desk (Observed σ)} {c : Creating}

theorem Overlooks.unnamed (h : c.Overlooks) : c.Unnamed := by
  cases c with
  | queueNode labels props => exact .inr h.2
  | node labels props => exact .inr h.2
  | _ => exact h.elim

theorem refuses (opened : w.Opened) (rest : c.RestFits w) (unnamed : c.Unnamed) (looks : ¬ c.Overlooks) :
    c.Refused w := by
  cases c with
  | draftNode labels props aliasName =>
      obtain ⟨m, refused⟩ := Draft.checkNode_refuses opened.draft unnamed props
      exact ⟨m, on_refused (Action.outcome_bind_error refused _) rfl⟩
  | draftEdge source edgeType target props =>
      have refused : (Draft.edge source edgeType target props).outcome w.draft =
          (.error (.argument (.blank "edge type")), w.draft) := by
        rw [Draft.edge, Action.outcome_bind_ok (Draft.requireOpen_opened opened.draft)]
        exact Action.outcome_bind_error (blank_refused unnamed _) _
      exact ⟨_, on_refused refused rfl⟩
  | queueNode labels props =>
      rcases unnamed with rfl | ⟨l, member, blank⟩
      · exact ⟨_, on_refused (createNode_refuses props _) rfl⟩
      · exact absurd ⟨List.ne_nil_of_mem member, l, member, blank⟩ looks
  | queueEdge source target edgeType props =>
      exact ⟨_, on_refused (createEdge_refuses unnamed source target props _) rfl⟩
  | node labels props =>
      rcases unnamed with rfl | ⟨l, member, blank⟩
      · have refused := Database.single_refused opened.handle (createNode_refuses props _)
        exact ⟨_, on_refused (Action.outcome_bind_error refused _) rfl⟩
      · exact absurd ⟨List.ne_nil_of_mem member, l, member, blank⟩ looks
  | edge source target edgeType props =>
      have refused := Database.single_refused opened.handle (createEdge_refuses unnamed source target props _)
      exact ⟨_, on_refused (Action.outcome_bind_error refused _) rfl⟩
  | loadNodes label each size =>
      have refused : (Database.loadNodes label each size).outcome w.handle = _ :=
        Load.run_fault (l := .nodes label each) rest.1 (.blank unnamed)
      exact ⟨_, on_refused refused rfl⟩
  | loadEdges each size =>
      obtain ⟨e, member, blank⟩ := unnamed
      have wrong : ¬ ∀ e ∈ each, EdgeFits w.handle.schema e := by
        intro fit
        rw [(fit e member).typed] at blank
        cases blank
      -- the edge that is refused is the first that does not fit, which need not be the one that is given as blank
      obtain ⟨e, first⟩ := exists_firstOffender wrong
      have blank : Text.isBlank e.edgeType = true := (rest.2 e first.mem).resolve_right first.offends
      have refused : (Database.loadEdges each size).outcome w.handle = _ :=
        Load.run_fault (l := .edges each) rest.1 (.edge first (.blank blank))
      exact ⟨_, on_refused refused rfl⟩

theorem overlooked (opened : w.Opened) (rest : c.RestFits w) (overlooks : c.Overlooks) : ¬ c.Refused w := by
  rintro ⟨m, refused⟩
  cases c with
  | queueNode labels props =>
      rw [run, onBatch, on_outcome, createNode_queues opened.batch overlooks.1 rest] at refused
      cases refused
  | node labels props =>
      have asked := createNode_sends opened.handle overlooks.1 rest
      have same : ((Database.createNode labels props).outcome w.handle).2 = w.handle := by
        rw [run, onHandle, on_outcome] at refused
        exact congrArg (fun done => done.2.handle) refused
      rw [same] at asked
      exact Database.exchanges_ne_of_answered (.mutate ⟨[.createNode labels props]⟩) w.handle (by rw [← asked])
  | _ => exact overlooks

/-- A name that is missing or blank is kept out exactly where it is not a blank label among those of a node that is queued
or created at once. -/
theorem keepsOut_iff (w : Desk (Observed σ)) (c : Creating) :
    c.KeepsOut w ↔ ¬ (w.Opened ∧ c.RestFits w ∧ c.Overlooks) := by
  constructor
  · rintro keeps ⟨opened, rest, overlooks⟩
    exact overlooked opened rest overlooks (keeps opened rest overlooks.unnamed)
  · intro looks opened rest unnamed
    exact refuses opened rest unnamed fun overlooks => looks ⟨opened, rest, overlooks⟩

end

theorem blank_label_goes_out : ¬ ∀ (w : Desk (Observed Engine.Scripted)) (c : Creating), c.KeepsOut w := by
  intro all
  let w : Desk (Observed Engine.Scripted) := ⟨(Database.new .empty).observed, .new none, .new none⟩
  have opened : w.Opened := ⟨rfl, rfl, rfl⟩
  obtain ⟨m, refused⟩ := all w (.node [" "] .empty) opened nofun (.inr ⟨" ", by simp, by decide⟩)
  have asked : ((node [" "] .empty).run.outcome w).2.handle.engine.exchanges.map (·.call) =
      [.mutate ⟨[.createNode [" "] .empty]⟩] := rfl
  rw [refused] at asked
  cases asked

end Creating
end GraphClient.Creation
