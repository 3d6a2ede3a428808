import GraphClient.Creation.Wire
import GraphClient.Proofs.Mutation.RoundTrip

/-!
Graph fragments and their summaries are read back as they were written. Positions are numbers of 64 bits at most, as all
that a document counts with.
-/
namespace GraphClient.Creation

open Wire

namespace Ref

/-- A document can hold the position. -/
def Addressable : Ref → Prop
  | position index => index < 0x10000000000000000
  | _ => True

theorem read_eq (j : Json) : read j = tagged .outside "kind" kinds j >>= fun y => y.2.read 1 y.1 := rfl

theorem steady_kinds : ∀ v ∈ kinds, Parts.Steady v.2 := by
  simp only [kinds, List.forall_mem_cons]
  exact ⟨(Parts.Steady.required .size 0 "index").map position, (Parts.Steady.required .text 0 "alias").map named,
    (Parts.Steady.required .uint64 0 "id").map id, by simp⟩

theorem lossless : Lossless Addressable read toJson where
  steady := .tagged (fun parts p => p.read 1 parts) (fun v member _ faithful r => (steady_kinds v member).read 1 faithful r)
    .outside "kind"
  faithful r addressable := by
    cases r with
    | position index =>
        have number := Lossless.size.faithful index addressable
        exact .object (by simp) (by simp [number])
    | named name => exact .object (by simp) (by simp)
    | id n => exact .object (by simp) (by simp)
  back r addressable := by
    rw [read_eq]
    cases r with
    | position index =>
        have number := Lossless.size.back index addressable
        have known : variant kinds "handle" = .ok fun p => position <$> p.required 0 "index" size := rfl
        rw [toJson, tagged_head (by simp) known, ok_bind, Parts.read_members_eq_ok]
        simp [number]
    | named name =>
        have known : variant kinds "alias" = .ok fun p => named <$> p.required 0 "alias" text := rfl
        rw [toJson, tagged_head (by simp) known, ok_bind, Parts.read_members_eq_ok]
        simp
    | id n =>
        have known : variant kinds "id" = .ok fun p => id <$> p.required 0 "id" uint64 := rfl
        rw [toJson, tagged_head (by simp) known, ok_bind, Parts.read_members_eq_ok]
        simp

end Ref

def Edge.Addressable (e : Edge) : Prop := e.source.Addressable ∧ e.target.Addressable

def Fragment.Addressable (f : Fragment) : Prop := ∀ e ∈ f.edges, e.Addressable

theorem Node.lossless : Lossless (fun _ => True) Node.read Node.toJson where
  steady := by
    have labels := (Parts.Steady.required (.list .text) 0 "labels").map Node.mk
    exact .record ((labels.seq (.defaulting .props 1 "props" .empty)).seq (.defaulting (.optional .text) 2 "alias" none)) _ _
  faithful n _ := by
    rw [Node.toJson]
    cases n.aliasName <;> exact .object (by simp) (by simp)
  back n _ := by
    obtain ⟨labels, props, aliasName⟩ := n
    rw [Node.read, Node.toJson, record_object]
    cases aliasName <;> simp [Wire.optional]

theorem Edge.lossless : Lossless Edge.Addressable Edge.read Edge.toJson where
  steady := by
    have source := (Parts.Steady.required Ref.lossless.steady 0 "src").map Edge.mk
    have ends := (source.seq (.required .text 1 "ty")).seq (.required Ref.lossless.steady 2 "dst")
    exact .record (ends.seq (.defaulting .props 3 "props" .empty)) _ _
  faithful e addressable := by
    have source := Ref.lossless.faithful e.source addressable.1
    have target := Ref.lossless.faithful e.target addressable.2
    exact .object (by simp) (by simp [source, target])
  back e addressable := by
    have source := Ref.lossless.back e.source addressable.1
    have target := Ref.lossless.back e.target addressable.2
    rw [Edge.read, Edge.toJson, record_object]
    simp [source, target]

theorem Fragment.lossless : Lossless Fragment.Addressable Fragment.read Fragment.toJson where
  steady := by
    have nodes := (Parts.Steady.defaulting Node.lossless.steady.list 0 "nodes" []).map Fragment.mk
    exact .record (nodes.seq (.defaulting Edge.lossless.steady.list 1 "edges" [])) _ _
  faithful f addressable := by
    have nodes := Node.lossless.list.faithful f.nodes fun _ _ => trivial
    have edges := Edge.lossless.list.faithful f.edges addressable
    exact .object (by simp) (by simp [nodes, edges])
  back f addressable := by
    have nodes := Node.lossless.list.back f.nodes fun _ _ => trivial
    have edges := Edge.lossless.list.back f.edges addressable
    rw [Fragment.read, Fragment.toJson, record_object]
    simp [nodes, edges]

theorem Summary.lossless : Lossless (fun _ => True) Summary.read Summary.toJson where
  steady := by
    have ids : Steady (list uint64) := .list .uint64
    have nodes := ((Parts.Steady.defaulting ids 0 "nodes" []).map Summary.mk).seq (.defaulting ids 1 "edges" [])
    exact .record (nodes.seq (.defaulting (.map .uint64) 2 "aliases" .empty)) _ _
  faithful s _ := by
    have aliases := Mutation.lossless_id.map.faithful s.aliases fun _ _ => trivial
    exact .object (by simp) (by simp [aliases])
  back s _ := by
    have aliases := Mutation.lossless_id.map.back s.aliases fun _ _ => trivial
    rw [Summary.read, Summary.toJson, record_object]
    simp [aliases]

end GraphClient.Creation
