import GraphClient.Mutation.Wire
import GraphClient.Proofs.Wire.Lossless

/-!
Mutations, their scripts and summaries, and edges to load are read back as they were written.
-/
namespace GraphClient.Mutation

open Wire

/-! Ids and lists. -/

theorem lossless_id : Lossless (fun _ => True) uint64 idJson := .uint64

section
variable (id : UInt64) (ids : List UInt64) (texts : List String)

@[simp] theorem uint64_idJson : uint64 (idJson id) = .ok id := lossless_id.back id trivial

@[simp] theorem list_uint64_idsJson : list uint64 (idsJson ids) = .ok ids := lossless_id.list.back ids fun _ _ => trivial

@[simp] theorem list_text_textsJson : list text (textsJson texts) = .ok texts :=
  Lossless.text.list.back texts fun _ _ => trivial

@[simp] theorem idJson_faithful : (idJson id).Faithful := lossless_id.faithful id trivial

@[simp] theorem idsJson_faithful : (idsJson ids).Faithful := lossless_id.list.faithful ids fun _ _ => trivial

@[simp] theorem textsJson_faithful : (textsJson texts).Faithful := Lossless.text.list.faithful texts fun _ _ => trivial

end

/-! Mutations. -/

def kinds : List (String × Kind) := Kind.all.map fun k => (k.text, k)

theorem read_eq (j : Json) : read j = tagged .outside "op" kinds j >>= fun y => ofKind y.2 y.1 := rfl

theorem steady_update (make : UInt64 → Props → List String → Mutation) : Parts.Steady (update make) :=
  ((Parts.Steady.required .uint64 0 "id").map make |>.seq (.defaulting .props 1 "set" .empty)).seq
    (.defaulting (.list .text) 2 "unset" [])

theorem steady_ofKind (k : Kind) {p : Parts} (faithful : p.Faithful) (m : Mutation) :
    ofKind p.normalize k = .ok m ↔ ofKind p k = .ok m := by
  have texts : Steady (list text) := .list .text
  cases k with
  | createNode =>
      have labels := (Parts.Steady.required texts 0 "labels").map createNode
      exact (labels.seq (.defaulting .props 1 "props" .empty)).read 2 faithful m
  | updateNode => exact (steady_update updateNode).read 3 faithful m
  | deleteNode =>
      have id := (Parts.Steady.required .uint64 0 "id").map deleteNode
      exact (id.seq (.defaulting .bool 1 "cascade" false)).read 2 faithful m
  | createEdge =>
      have ends := ((Parts.Steady.required .uint64 0 "src").map createEdge).seq (.required .uint64 1 "dst")
      exact ((ends.seq (.required .text 2 "ty")).seq (.defaulting .props 3 "props" .empty)).read 4 faithful m
  | updateEdge => exact (steady_update updateEdge).read 3 faithful m
  | deleteEdge => exact ((Parts.Steady.required .uint64 0 "id").map deleteEdge).read 1 faithful m

theorem variant_kinds (k : Kind) : variant kinds k.text = .ok k := by
  cases k <;> rfl

theorem lossless : Lossless (fun _ => True) read toJson where
  steady := .tagged (fun k p => ofKind p k) (fun v _ _ faithful m => steady_ofKind v.2 faithful m) .outside "op"
  faithful m _ := by
    cases m <;> exact .object (by simp [members]) (by simp [members])
  back m _ := by
    have fresh : ∀ e ∈ m.members, e.1 ≠ "op" := by
      cases m <;> simp [members]
    rw [read_eq, toJson, tagged_head fresh (variant_kinds m.kind), ok_bind]
    cases m <;> simp [kind, ofKind, update, members, Parts.read_members_eq_ok]

namespace Script

theorem lossless : Lossless (fun _ => True) read toJson where
  steady := .record ((Parts.Steady.required Mutation.lossless.steady.list 0 "ops").map Script.mk) _ _
  faithful s _ := by
    have ops := Mutation.lossless.list.faithful s.ops fun _ _ => trivial
    exact .object (by simp) (by simpa using ops)
  back s _ := by
    have ops := Mutation.lossless.list.back s.ops fun _ _ => trivial
    rw [read, toJson, record_object]
    simp [ops]

end Script

namespace Summary

theorem lossless : Lossless (fun _ => True) read toJson where
  steady := by
    have ids : Steady (list Wire.uint64) := .list .uint64
    have created := ((Parts.Steady.defaulting ids 0 "createdNodes" []).map Summary.mk).seq (.defaulting ids 1 "createdEdges" [])
    have updated := (created.seq (.defaulting .uint64 2 "updatedNodes" 0)).seq (.defaulting .uint64 3 "updatedEdges" 0)
    exact .record ((updated.seq (.defaulting .uint64 4 "deletedNodes" 0)).seq (.defaulting .uint64 5 "deletedEdges" 0)) _ _
  faithful s _ := .object (by simp) (by simp)
  back s _ := by
    rw [read, toJson, record_object]
    simp

end Summary

namespace EdgeLoad

theorem lossless : Lossless (fun _ => True) read toJson where
  steady := by
    have ends := ((Parts.Steady.required .uint64 0 "src").map EdgeLoad.mk).seq (.required .uint64 1 "dst")
    exact .record ((ends.seq (.required .text 2 "ty")).seq (.defaulting .props 3 "props" .empty)) _ _
  faithful e _ := .object (by simp) (by simp)
  back e _ := by
    rw [read, toJson, record_object]
    simp

end EdgeLoad
end GraphClient.Mutation
