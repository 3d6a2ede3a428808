import GraphClient.Engine.Wire

/-!
An engine without storage, for trying a client out: it answers from what it was told beforehand, hands out ids by
counting, and keeps a log of what it is asked.
-/
namespace GraphClient.Engine

inductive Event
  | call (call : Call)
  | nextRow
  | closeCursor

def Event.toJson : Event → Json
  | call c => c.toJson
  | nextRow => .object [("call", .string "next_row")]
  | closeCursor => .object [("call", .string "close_cursor")]

structure Delivery where
  rows : List Props
  /-- A failure behind the last row, once. -/
  failure : Option String
  /-- A failure of the first attempt to close. -/
  closeFailure : Option String
  plain : Bool

structure Scripted where
  log : List Event
  /-- One entry per call: the failure it meets, or none. -/
  failures : List (Option String)
  envelopes : List Envelope
  delivery : Delivery
  closeFailure : Option String
  lastId : UInt64
  cancellable : List String
  pragmas : Record Value
  interned : List String
  neighbors : List Neighbor
  visits : List Visit
  nodes : Record Props
  edges : Record Props
  counts : Record UInt64
  lists : Record (List UInt64)
  cursors : List Delivery

namespace Scripted

def empty : Scripted :=
  ⟨[], [], [], ⟨[], none, none, false⟩, none, 0, [], .empty, [], [], [], .empty, .empty, .empty, .empty, []⟩

def record (e : Event) : Action Scripted Unit := modify fun s => { s with log := s.log ++ [e] }

def meet (failure : Option String) : Action Scripted Unit :=
  match failure with
  | some raw => throw (.ofEngineText raw)
  | none => pure ()

def popFailure : Action Scripted Unit := do
  let failures := (← get).failures
  modify fun s => { s with failures := failures.tail }
  meet failures.head?.join

def popEnvelope : Action Scripted Envelope := do
  let envelopes := (← get).envelopes
  modify fun s => { s with envelopes := envelopes.tail }
  pure (envelopes.head?.getD .empty)

def freshId : Action Scripted UInt64 := do
  modify fun s => { s with lastId := s.lastId + 1 }
  pure (← get).lastId

def apply : Mutation → Action Scripted Mutation.Summary
  | .createNode _ _ => do pure { Mutation.Summary.empty with createdNodes := [← freshId] }
  | .createEdge _ _ _ _ => do pure { Mutation.Summary.empty with createdEdges := [← freshId] }
  | .updateNode _ _ _ => pure { Mutation.Summary.empty with updatedNodes := 1 }
  | .updateEdge _ _ _ => pure { Mutation.Summary.empty with updatedEdges := 1 }
  | .deleteNode _ _ => pure { Mutation.Summary.empty with deletedNodes := 1 }
  | .deleteEdge _ => pure { Mutation.Summary.empty with deletedEdges := 1 }

/-- Nodes get their ids before edges do. -/
def create (f : Creation.Fragment) : Action Scripted Creation.Summary := do
  let nodes ← f.nodes.mapM fun _ => freshId
  let edges ← f.edges.mapM fun _ => freshId
  let aliases := (f.nodes.zip nodes).filterMap fun (n, id) => n.aliasName.map (·, id)
  pure ⟨nodes, edges, .ofList aliases⟩

def openCursor : Action Scripted Cursor := do
  let s ← get
  set { s with cursors := s.cursors ++ [s.delivery] }
  pure ⟨s.cursors.length⟩

def close : Action Scripted Unit := do
  let failure := (← get).closeFailure
  modify fun s => { s with closeFailure := none }
  meet failure

def reply : (call : Call) → Action Scripted call.Reply
  | .execute _ | .explain _ => popEnvelope
  | .stream _ => openCursor
  | .mutate script => script.ops.foldlM (fun total m => do pure (total.merge (← apply m))) .empty
  | .create f => create f
  | .cancel id => do pure ((← get).cancellable.contains id)
  | .pragma name => do pure (((← get).pragmas.get? name).getD .null)
  | .setPragma name value => do
    modify fun s => { s with pragmas := s.pragmas.insert name value }
    pure value
  | .intern name => do
    let s ← get
    let known := if s.interned.contains name then s.interned else s.interned ++ [name]
    set { s with interned := known }
    pure (UInt32.ofNat (known.idxOf name + 1))
  | .neighbors _ _ => do pure (← get).neighbors
  | .walk _ _ _ => do pure (← get).visits
  | .node id => do pure ((← get).nodes.get? (toString id))
  | .edge id => do pure ((← get).edges.get? (toString id))
  | .countNodes name | .countEdges name => do pure (((← get).counts.get? name).getD 0)
  | .listNodes name => do pure (((← get).lists.get? name).getD [])
  | .close => close

/-- Whether a call meets the failures of the queue; closing has one of its own. -/
def queues : Call → Bool
  | .close => false
  | _ => true

def answer (call : Call) : Action Scripted call.Reply := do
  record (.call call)
  if queues call then popFailure
  reply call

def deliver (c : Cursor) (d : Delivery) : Action Scripted Unit :=
  modify fun s => { s with cursors := s.cursors.set c.id d }

def nextRow (c : Cursor) : Action Scripted (Option Props) := do
  record .nextRow
  match (← get).cursors[c.id]? with
  | none => pure none
  | some d =>
    match d.rows with
    | row :: rows => do
      deliver c { d with rows }
      pure (some row)
    | [] => do
      deliver c { d with failure := none }
      meet d.failure
      pure none

def closeCursor (c : Cursor) : Action Scripted Unit := do
  let some d := (← get).cursors[c.id]? | pure ()
  unless d.plain do
    record .closeCursor
    deliver c { d with closeFailure := none }
    meet d.closeFailure

end Scripted

instance : Engine Scripted := ⟨Scripted.answer, Scripted.nextRow, Scripted.closeCursor⟩

end GraphClient.Engine
