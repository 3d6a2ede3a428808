import Mathlib.Data.List.Infix
import Mathlib.Data.Set.List
import GraphClient.Proofs.Mutation.Loading

/-!
Loads are looked at as a whole before any of them is sent. The first thing that is wrong is what they fail with, and no
engine has heard of them then; a load in which nothing is wrong sends one mutation for each element, in order.
-/
namespace GraphClient.Database

open Engine (Observed Submission)
open Mutation (Summary EdgeLoad)

inductive Load
  | nodes (label : String) (each : List Props)
  | edges (each : List EdgeLoad)
  | mutations (each : List Mutation)

namespace Load

abbrev Reply : Load → Type
  | nodes _ _ | edges _ => List UInt64
  | mutations _ => Summary

def run {σ : Type} [Engine σ] : (l : Load) → Option Nat → Action (Database σ) l.Reply
  | nodes label each, asked => loadNodes label each asked
  | edges each, asked => loadEdges each asked
  | mutations each, asked => mutateBatched each asked

def size (l : Load) (options : Options) (asked : Option Nat) : Nat :=
  asked.getD <| match l with
    | nodes _ _ => options.nodeChunk
    | edges _ => options.edgeChunk
    | mutations _ => options.mutationBatch

def ops : Load → List Mutation
  | nodes label each => each.map (.createNode [label])
  | edges each => each.map creation
  | mutations each => each

def Fits (schema : Option Schema) : Load → Prop
  | nodes label each => NodesFit schema label each
  | edges each => ∀ e ∈ each, EdgeFits schema e
  | mutations each => ∀ m ∈ each, ∀ s ∈ schema, m.Admitted s

/-- What is wrong with an edge, and the failure that says so. -/
inductive EdgeFault (schema : Option Schema) (e : EdgeLoad) : Failure → Prop
  | blank : Text.isBlank e.edgeType = true → EdgeFault schema e (.argument (.blank "edge type"))
  | undeclared {s : Schema} : Text.isBlank e.edgeType = false → s ∈ schema → s.edges.contains e.edgeType = false →
      EdgeFault schema e (.schema (.unknownEdgeType e.edgeType))
  | stray {s : Schema} {v : Violation} : Text.isBlank e.edgeType = false → s ∈ schema → (creation e).Strays s v →
      EdgeFault schema e (.schema v)

/-- The first thing that is wrong with a load. Nodes share their label, so it comes before any of them. -/
inductive Fault (schema : Option Schema) : Load → Failure → Prop
  | blank {label : String} {each : List Props} : Text.isBlank label = true →
      Fault schema (.nodes label each) (.argument (.blank "label"))
  | undeclared {s : Schema} {label : String} {each : List Props} : Text.isBlank label = false → s ∈ schema →
      s.nodes.contains label = false → Fault schema (.nodes label each) (.schema (.unknownLabel label))
  | node {s : Schema} {label : String} {each : List Props} {props : Props} {v : Violation} :
      Text.isBlank label = false → s ∈ schema → FirstOffender (s.AdmitsNode [label]) each props →
      (Mutation.createNode [label] props).Strays s v → Fault schema (.nodes label each) (.schema v)
  | edge {each : List EdgeLoad} {e : EdgeLoad} {f : Failure} : FirstOffender (EdgeFits schema) each e →
      EdgeFault schema e f → Fault schema (.edges each) f
  | mutation {s : Schema} {each : List Mutation} {m : Mutation} {v : Violation} : s ∈ schema →
      FirstOffender (·.Admitted s) each m → m.Strays s v → Fault schema (.mutations each) (.schema v)

def checked (schema : Option Schema) : Load → Except Failure (List Mutation)
  | nodes label each => nodeLoads schema label each
  | edges each => edgeLoads schema each
  | mutations each => do
    Mutation.conformAll schema each
    pure each

def answer : (l : Load) → Summary → l.Reply
  | nodes _ _ => (·.createdNodes)
  | edges _ => (·.createdEdges)
  | mutations _ => id

end Load

section
variable {schema : Option Schema}

theorem nodeLoad_eq_error {s : Schema} {label : String} {props : Props} {v : Violation}
    (refused : s.checkNodeProps [label] props = .error v) : nodeLoad (some s) label props = .error (.schema v) := by
  rw [nodeLoad, Mutation.conforms?, Mutation.conforms, refused]
  rfl

theorem edgeLoad_eq_error {e : EdgeLoad} {f : Failure} (fault : Load.EdgeFault schema e f) :
    edgeLoad schema e = .error f := by
  cases fault with
  | blank blank => rw [edgeLoad, nonBlank, if_pos blank, error_bind]
  | undeclared typed active undeclared =>
      obtain rfl := Option.mem_def.mp active
      rw [edgeLoad, nonBlank_eq_ok_iff.mpr ⟨rfl, typed⟩, ok_bind]
      dsimp only
      rw [Schema.requireEdgeType, Record.get?_eq_none_iff.mpr undeclared]
      rfl
  | @stray s v typed active strays =>
      obtain rfl := Option.mem_def.mp active
      have refused : s.checkEdgeProps e.edgeType e.props = .error v := Mutation.conforms_eq_error_iff.mpr strays
      obtain ⟨definition, known, _⟩ := Schema.checkEdgeProps_eq_error_iff.mp refused
      rw [edgeLoad, nonBlank_eq_ok_iff.mpr ⟨rfl, typed⟩, ok_bind]
      dsimp only
      rw [Schema.requireEdgeType, known, Mutation.conforms?, Mutation.conforms, refused]
      rfl

theorem exists_edgeFault {e : EdgeLoad} (h : ¬ EdgeFits schema e) : ∃ f, Load.EdgeFault schema e f := by
  cases typed : Text.isBlank e.edgeType with
  | true => exact ⟨_, .blank typed⟩
  | false =>
      cases schema with
      | none => exact absurd ⟨typed, nofun, nofun⟩ h
      | some s =>
          cases declared : s.edges.contains e.edgeType with
          | false => exact ⟨_, .undeclared typed rfl declared⟩
          | true =>
              have stray : ¬ (creation e).Admitted s := by
                intro admitted
                have admitted : s.AdmitsEdge e.edgeType e.props := admitted
                exact h ⟨typed, by simpa using declared, by simpa using admitted⟩
              obtain ⟨v, strays⟩ := Mutation.exists_strays stray
              exact ⟨_, .stray typed rfl strays⟩

namespace Load

variable {l : Load}

theorem checked_fits (fits : l.Fits schema) : l.checked schema = .ok l.ops := by
  cases l with
  | nodes label each => exact nodeLoads_eq_ok fits
  | edges each => exact edgeLoads_eq_ok fits
  | mutations each =>
      have conforming : Mutation.conformAll schema each = .ok ⟨⟩ :=
        Mutation.conformAll_eq_ok_iff.mpr fun m member => Mutation.conforms?_eq_ok_iff.mpr (fits m member)
      rw [checked, conforming]
      rfl

theorem checked_fault {f : Failure} (fault : l.Fault schema f) : l.checked schema = .error f := by
  cases fault with
  | blank blank => rw [checked, nodeLoads, nonBlank, if_pos blank, error_bind]
  | undeclared named active undeclared =>
      obtain rfl := Option.mem_def.mp active
      rw [checked, nodeLoads, nonBlank_eq_ok_iff.mpr ⟨rfl, named⟩, ok_bind]
      dsimp only
      rw [Schema.requireLabel, Record.get?_eq_none_iff.mpr undeclared]
      rfl
  | @node s label each props v named active first strays =>
      -- a property that is not allowed tells that the label is declared, so the loop over nodes is reached
      obtain rfl := Option.mem_def.mp active
      obtain ⟨before, after, rfl, fine, _⟩ := first
      have refused : s.checkNodeProps [label] props = .error v := Mutation.conforms_eq_error_iff.mpr strays
      have declared : s.nodes.contains label = true := by simpa using (Schema.checkNodeProps_eq_error_iff.mp refused).1
      have passed : ∀ props ∈ before, nodeLoad (some s) label props = .ok (.createNode [label] props) :=
        fun props member => nodeLoad_eq_ok (by simpa using fine props member)
      rw [checked, nodeLoads_named named (by simpa using declared), mapM_eq_error passed (nodeLoad_eq_error refused)]
  | edge first fault =>
      obtain ⟨before, after, rfl, fine, _⟩ := first
      exact mapM_eq_error (fun e member => edgeLoad_eq_ok (fine e member)) (edgeLoad_eq_error fault)
  | @mutation s each m v active first strays =>
      obtain rfl := Option.mem_def.mp active
      obtain ⟨before, after, rfl, fine, _⟩ := first
      have passed : ∀ m ∈ before, m.conforms? (some s) = .ok () :=
        fun m member => Mutation.conforms_eq_ok_iff.mpr (fine m member)
      have refused : m.conforms? (some s) = .error v := Mutation.conforms_eq_error_iff.mpr strays
      rw [checked, Mutation.conformAll_eq_error passed refused]
      rfl

theorem exists_fault (h : ¬ l.Fits schema) : ∃ f, l.Fault schema f := by
  cases l with
  | nodes label each =>
      cases named : Text.isBlank label with
      | true => exact ⟨_, .blank named⟩
      | false =>
          cases schema with
          | none => exact absurd ⟨named, nofun, nofun⟩ h
          | some s =>
              cases declared : s.nodes.contains label with
              | false => exact ⟨_, .undeclared named rfl declared⟩
              | true =>
                  have stray : ¬ ∀ props ∈ each, s.AdmitsNode [label] props := fun admitted =>
                    h ⟨named, by simpa using declared, by simpa using admitted⟩
                  obtain ⟨props, first⟩ := exists_firstOffender stray
                  obtain ⟨v, strays⟩ := Mutation.exists_strays (m := .createNode [label] props) first.offends
                  exact ⟨_, .node named rfl first strays⟩
  | edges each =>
      obtain ⟨e, first⟩ := exists_firstOffender h
      obtain ⟨f, fault⟩ := exists_edgeFault first.offends
      exact ⟨f, .edge first fault⟩
  | mutations each =>
      cases schema with
      | none => exact absurd (fun _ _ => nofun) h
      | some s =>
          have stray : ¬ ∀ m ∈ each, m.Admitted s := fun admitted => h fun m member => by simpa using admitted m member
          obtain ⟨m, first⟩ := exists_firstOffender stray
          obtain ⟨v, strays⟩ := Mutation.exists_strays first.offends
          exact ⟨_, .mutation rfl first strays⟩

end Load
end

structure SentInOrder {α : Type} (ops : List Mutation) (made : List Submission) (result : Except Failure α) : Prop where
  inOrder : made.flatMap (·.ops) <+: ops
  whole : (∀ s ∈ made, ∃ summary, s.reply = .ok summary) → made.flatMap (·.ops) = ops ∧ ∃ v, result = .ok v
  failed : ∀ s ∈ made, ∀ f, s.reply = .error f → result = .error f

theorem Submitted.sentInOrder {α : Type} {size : Nat} {ops : List Mutation} {pieces : List (List Mutation)}
    {made : List Submission} {result : Except Failure Summary} (h : Submitted pieces made result)
    (cut : Cut size ops pieces) (answer : Summary → α) : SentInOrder ops made (answer <$> result) where
  inOrder := by
    rw [← cut.whole, List.flatMap_def]
    exact h.inOrder.flatten
  whole := by
    intro fine
    have replies : made.map (·.reply) ∈ Set.range (List.map Except.ok) := by
      rw [Set.range_list_map]
      refine List.forall_mem_map.mpr fun s member => ?_
      obtain ⟨summary, passed⟩ := fine s member
      exact ⟨summary, passed.symm⟩
    obtain ⟨summaries, same⟩ := replies
    obtain ⟨all, total, rfl, _⟩ := h.completes summaries same.symm
    refine ⟨?_, answer total, rfl⟩
    rw [List.flatMap_def, all, cut.whole]
  failed := by
    intro s member f refused
    obtain ⟨earlier, later, split⟩ := List.append_of_mem member
    rw [(h.stops earlier s later f split refused).2, map_error]

section
variable {σ : Type} [Engine σ]

namespace Load

variable {db : Database σ} {asked : Option Nat}

theorem run_unsized (l : Load) (zero : l.size db.options asked = 0) :
    (l.run asked).outcome db = (.error (.argument (.notPositive "chunk_size")), db) := by
  cases l with
  | nodes label each =>
      have refused : (chunkSize asked (·.nodeChunk)).outcome db = _ := chunkSize_refused zero
      exact Action.outcome_bind_error refused _
  | edges each =>
      have refused : (chunkSize asked (·.edgeChunk)).outcome db = _ := chunkSize_refused zero
      exact Action.outcome_bind_error refused _
  | mutations each =>
      have refused : (chunkSize asked (·.mutationBatch)).outcome db = _ := chunkSize_refused zero
      exact Action.outcome_bind_error refused _

theorem run_outcome (l : Load) (positive : 0 < l.size db.options asked) :
    (l.run asked).outcome db = (sendChecked (l.checked db.schema) (l.size db.options asked) l.answer).outcome db := by
  cases l with
  | nodes label each => exact loadNodes_outcome label each asked positive
  | edges each => exact loadEdges_outcome each asked positive
  | mutations each => exact mutateBatched_outcome each asked positive

theorem run_fault {l : Load} {f : Failure} (positive : 0 < l.size db.options asked) (fault : l.Fault db.schema f) :
    (l.run asked).outcome db = (.error f, db) := by
  rw [run_outcome l positive, checked_fault fault, sendChecked_refused]

theorem run_closed {l : Load} (positive : 0 < l.size db.options asked) (fits : l.Fits db.schema)
    (shut : db.closed = true) : (l.run asked).outcome db = (.error .closed, db) := by
  have refused : (submit l.ops (l.size db.options asked)).outcome db = (.error .closed, db) :=
    Action.outcome_bind_error (requireOpen_closed shut) _
  rw [run_outcome l positive, checked_fits fits, sendChecked_passed, refused, map_error]

end Load

structure ChecksFirst (db : Database (Observed σ)) (l : Load) (asked : Option Nat) : Prop where
  silent : ¬ (db.closed = false ∧ 0 < l.size db.options asked ∧ l.Fits db.schema) →
    ∃ f, (l.run asked).outcome db = (.error f, db)
  /-- If only elements are wrong, the failure is that of the first. -/
  first : 0 < l.size db.options asked → ∀ f, l.Fault db.schema f → (l.run asked).outcome db = (.error f, db)
  exhaustive : ¬ l.Fits db.schema → ∃ f, l.Fault db.schema f
  sent : db.closed = false → 0 < l.size db.options asked → l.Fits db.schema →
    ∃ made, SentInOrder l.ops made ((l.run asked).outcome db).1 ∧
      ((l.run asked).outcome db).2.engine.exchanges = db.engine.exchanges ++ made.map Submission.exchange

/-- This holds of every load on every handle, whatever its engine answers. -/
theorem load_checksFirst (db : Database (Observed σ)) (l : Load) (asked : Option Nat) : ChecksFirst db l asked where
  silent := by
    intro wrong
    -- the size is looked at first, then the load, and the handle last
    rcases Nat.eq_zero_or_pos (l.size db.options asked) with zero | positive
    · exact ⟨_, l.run_unsized zero⟩
    · by_cases fits : l.Fits db.schema
      · have shut : db.closed = true := by
          cases shut : db.closed with
          | true => rfl
          | false => exact absurd ⟨shut, positive, fits⟩ wrong
        exact ⟨_, Load.run_closed positive fits shut⟩
      · obtain ⟨f, fault⟩ := Load.exists_fault fits
        exact ⟨f, Load.run_fault positive fault⟩
  first positive _ fault := Load.run_fault positive fault
  exhaustive := Load.exists_fault
  sent := by
    intro opened positive fits
    obtain ⟨pieces, made, result, cut, submitted, done, logged⟩ :=
      sendChecked_sendsInPieces opened l.ops positive l.answer
    rw [l.run_outcome positive, Load.checked_fits fits]
    refine ⟨made, ?_, logged⟩
    rw [done]
    exact submitted.sentInOrder cut l.answer

end
end GraphClient.Database
