import GraphClient.Proofs.Wire.Lossless
import GraphClient.Schema.Wire

/-!
Schemas are read back as they were written. A set of names is written as a list, which is in order already.
-/
namespace GraphClient.Schema

open Wire

theorem lossless_names : Lossless (fun _ => True) nameSet namesJson where
  steady := .functor (.list .text) NameSet.ofList
  faithful s _ := Lossless.text.list.faithful s.names fun _ _ => trivial
  back s _ := by
    have names : list text (namesJson s) = .ok s.names := Lossless.text.list.back s.names fun _ _ => trivial
    have entries : s.names.map (·, ()) = s.entries := by
      rw [Record.names, List.map_map]
      exact List.map_id s.entries
    rw [nameSet, names, map_ok, NameSet.ofList, entries, Record.ofList_entries]

@[simp] theorem nameSet_namesJson (s : NameSet) : nameSet (namesJson s) = .ok s := lossless_names.back s trivial

@[simp] theorem namesJson_faithful (s : NameSet) : (namesJson s).Faithful := lossless_names.faithful s trivial

theorem Node.lossless : Lossless (fun _ => True) Node.read Node.toJson where
  steady := .record ((Parts.Steady.defaulting lossless_names.steady 0 "properties" .empty).map Node.mk) _ _
  faithful n _ := .object (by simp) (by simp)
  back n _ := by
    rw [Node.read, Node.toJson, record_object]
    simp

theorem Edge.lossless : Lossless (fun _ => True) Edge.read Edge.toJson where
  steady := by
    have ends := ((Parts.Steady.required .text 0 "from").map Edge.mk).seq (.required .text 1 "to")
    exact .record (ends.seq (.defaulting lossless_names.steady 2 "properties" .empty)) _ _
  faithful e _ := .object (by simp) (by simp)
  back e _ := by
    rw [Edge.read, Edge.toJson, record_object]
    simp

theorem lossless : Lossless (fun _ => True) read toJson where
  steady := by
    have nodes := (Parts.Steady.defaulting Node.lossless.steady.map 0 "nodes" .empty).map Schema.mk
    exact .record (nodes.seq (.defaulting Edge.lossless.steady.map 1 "edges" .empty)) _ _
  faithful s _ := by
    have nodes := Node.lossless.map.faithful s.nodes fun _ _ => trivial
    have edges := Edge.lossless.map.faithful s.edges fun _ _ => trivial
    exact .object (by simp) (by simp [nodes, edges])
  back s _ := by
    have nodes := Node.lossless.map.back s.nodes fun _ _ => trivial
    have edges := Edge.lossless.map.back s.edges fun _ _ => trivial
    rw [read, toJson, record_object]
    simp [nodes, edges]

end GraphClient.Schema
