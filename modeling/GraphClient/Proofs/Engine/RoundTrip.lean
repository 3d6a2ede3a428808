import GraphClient.Engine.Wire
import GraphClient.Proofs.Creation.RoundTrip
import GraphClient.Proofs.Query.RoundTrip
import GraphClient.Proofs.Schema.RoundTrip

/-!
What goes to the engine beside queries, and what comes back, is read as it was written. Only an envelope cannot tell a plan
of null from none.
-/
namespace GraphClient

open Wire

namespace Envelope

def withoutNullPlan (e : Envelope) : Envelope :=
  match e.plan with
  | some ⟨.null, _⟩ => { e with plan := none }
  | _ => e

theorem toJson_withoutNullPlan (e : Envelope) : e.withoutNullPlan.toJson = e.toJson := by
  unfold withoutNullPlan
  split
  · rename_i null
    simp only [toJson, null, Option.map_none, Option.getD_none, Option.map_some, Option.getD_some]
  · rfl

theorem plan_withoutNullPlan (e : Envelope) : ∀ v ∈ e.withoutNullPlan.plan, v.json ≠ .null := by
  unfold withoutNullPlan
  split
  · nofun
  · rename_i other
    rintro ⟨j, formed⟩ plan rfl
    exact other formed plan

theorem lossless_plan : Lossless (fun o => ∀ v ∈ o, v.json ≠ .null) (optional value) fun o => (o.map Value.json).getD .null :=
  (Lossless.value.weaken fun _ _ => trivial).optional fun _ some => some

theorem lossless_features : Lossless (fun _ => True) (optional (list value))
    fun o => (o.map fun vs => Json.array (vs.map Value.json)).getD .null :=
  (Lossless.value.list.optional fun _ _ => nofun).weaken fun _ _ _ _ _ _ => trivial

theorem lossless : Lossless (fun e => ∀ v ∈ e.plan, v.json ≠ .null) read toJson where
  steady := by
    have rows := (Parts.Steady.defaulting (.list .props) 0 "rows" []).map Envelope.mk
    have named := rows.seq (.slot (.optional .text) 1 "request_id" ["requestId"] (some none))
    have described := (named.seq (.defaulting (.optional (.list .value)) 2 "features" none)).seq
      (.defaulting (.optional .value) 3 "plan" none)
    exact .record (described.seq (.slot (.optional .text) 4 "plan_hash" ["planHash"] (some none))) _ _
  faithful e proper := by
    have rows := Lossless.props.list.faithful e.rows fun _ _ => trivial
    have features := lossless_features.faithful e.features trivial
    have plan := lossless_plan.faithful e.plan proper
    exact .object (by simp) (by simp [rows, features, plan])
  back e proper := by
    have rows := Lossless.props.list.back e.rows fun _ _ => trivial
    have features := lossless_features.back e.features trivial
    have plan := lossless_plan.back e.plan proper
    rw [read, toJson, record_object]
    simp [Parts.slot_eq_done, rows, features, plan]

theorem decode_encode (e : Envelope) : format.decode (format.encode e) = .ok e.withoutNullPlan := by
  have same : format.encode e = format.encode e.withoutNullPlan := congrArg Value.ofJson e.toJson_withoutNullPlan.symm
  rw [same]
  exact lossless.keeps (plan_withoutNullPlan e)

end Envelope

namespace Engine

/-- Scripts and fragments, the summaries of both, edges to load and schemas come back as they were, and so do envelopes
but for a plan of null. -/
theorem documents_read_back :
    (∀ s, Mutation.Script.format.Keeps s) ∧ (∀ s, Mutation.Summary.format.Keeps s) ∧
      (∀ e, Mutation.EdgeLoad.format.Keeps e) ∧
      (∀ f : Creation.Fragment, f.Addressable → Creation.Fragment.format.Keeps f) ∧
      (∀ s, Creation.Summary.format.Keeps s) ∧ (∀ s, Schema.format.Keeps s) ∧
      ∀ e, Envelope.format.decode (Envelope.format.encode e) = .ok e.withoutNullPlan :=
  ⟨fun _ => Mutation.Script.lossless.keeps trivial, fun _ => Mutation.Summary.lossless.keeps trivial,
    fun _ => Mutation.EdgeLoad.lossless.keeps trivial, fun _ addressable => Creation.Fragment.lossless.keeps addressable,
    fun _ => Creation.Summary.lossless.keeps trivial, fun _ => Schema.lossless.keeps trivial, Envelope.decode_encode⟩

theorem documents_read_back_linked :
    let f : Creation.Fragment :=
      ⟨[⟨["User"], .empty, none⟩, ⟨["User"], .empty, some "b"⟩], [⟨.position 0, "KNOWS", .named "b", .empty⟩]⟩
    f.Addressable ∧ Creation.Fragment.format.Keeps f := by
  intro f
  have addressable : f.Addressable := by
    rintro e (_ | ⟨_, ⟨⟩⟩)
    exact ⟨(by decide : 0 < 0x10000000000000000), trivial⟩
  exact ⟨addressable, documents_read_back.2.2.2.1 f addressable⟩

end Engine
end GraphClient
