import GraphClient.Config.Location
import GraphClient.Proofs.Mutation.Validation

/-!
Which options a handle can be opened with. Those of an accepted configuration are among them, once defaults stand for what
it leaves out; and whatever schemas a handle is given later on, its options stay in order.
-/
namespace GraphClient

structure Options.Sound (o : Options) : Prop where
  schema : ∀ s ∈ o.schema, s.validate = .ok ()
  nodeChunk : 0 < o.nodeChunk
  edgeChunk : 0 < o.edgeChunk
  mutationBatch : 0 < o.mutationBatch

namespace Options

theorem sound_iff {o : Options} : o.Sound ↔
    (∀ s ∈ o.schema, s.validate = .ok ()) ∧ o.nodeChunk ≠ 0 ∧ o.edgeChunk ≠ 0 ∧ o.mutationBatch ≠ 0 := by
  simp only [← Nat.pos_iff_ne_zero]
  exact ⟨fun ⟨schema, nodes, edges, batch⟩ => ⟨schema, nodes, edges, batch⟩,
    fun ⟨schema, nodes, edges, batch⟩ => ⟨schema, nodes, edges, batch⟩⟩

theorem sound_default : default.Sound := ⟨nofun, by decide, by decide, by decide⟩

theorem Sound.replaced {o : Options} (h : o.Sound) {schema : Option Schema} (valid : ∀ s ∈ schema, s.validate = .ok ()) :
    Sound { o with schema } := ⟨valid, h.nodeChunk, h.edgeChunk, h.mutationBatch⟩

end Options

/-! Configurations. -/

namespace Config

theorem getD_eq_zero_iff {size : Option Nat} {fallback : Nat} (positive : 0 < fallback) :
    size.getD fallback = 0 ↔ size = some 0 := by
  cases size with
  | none => exact iff_of_false (Nat.ne_of_gt positive) nofun
  | some n => exact Option.some_inj.symm

/-- A configuration passes exactly if its options are sound, whatever it leaves out. -/
theorem validate_eq_ok_iff {c : Config} : c.validate = .ok () ↔ c.options.Sound := by
  obtain ⟨nodes, edges, batch, schema⟩ := c
  have filled : (Config.mk nodes edges batch schema).options.Sound ↔
      (∀ s ∈ schema, s.validate = .ok ()) ∧ nodes ≠ some 0 ∧ edges ≠ some 0 ∧ batch ≠ some 0 := by
    rw [Options.sound_iff, options, ne_eq, ne_eq, ne_eq, getD_eq_zero_iff (by decide), getD_eq_zero_iff (by decide),
      getD_eq_zero_iff (by decide)]
  rw [filled, validate]
  cases schema with
  | none =>
      simp only [check_eq_ok]
      simp [pure, Except.pure]
  | some s =>
      simp only [check_eq_ok, mapError_eq_ok, Option.mem_some_iff, forall_eq']
      exact ⟨fun ⟨h, h', h'', valid⟩ => ⟨valid, h, h', h''⟩, fun ⟨valid, h, h', h''⟩ => ⟨h, h', h'', valid⟩⟩

inductive Accepted : Config → Prop
  | written {inFile : Bool} {s : String} {c : Config} : ofText inFile s = .ok c → Accepted c
  | loaded {explicit environment : Option Content} {platform : Content} {location : Location} {c : Config} :
      load explicit environment platform = .ok (location, c) → Accepted c

theorem sound_of_ofText {inFile : Bool} {s : String} {c : Config} (h : ofText inFile s = .ok c) : c.options.Sound := by
  unfold ofText at h
  split at h
  · cases h
  · obtain ⟨_, valid, ⟨⟩⟩ := bind_eq_ok.mp h
    exact validate_eq_ok_iff.mp valid

theorem sound_of_ofContent {content : Content} {c : Config} (h : ofContent content = .ok c) : c.options.Sound := by
  unfold ofContent at h
  split at h
  · cases h
    exact Options.sound_default
  · cases h
  · split at h
    · exact sound_of_ofText h
    · cases h

theorem Accepted.sound {c : Config} (h : c.Accepted) : c.options.Sound := by
  cases h with
  | written read => exact sound_of_ofText read
  | loaded found =>
      obtain ⟨_, read, ⟨⟩⟩ := bind_eq_ok.mp found
      exact sound_of_ofContent read

example : Accepted .empty := .loaded (rfl : load none none .missing = .ok (.platform, .empty))

end Config

/-! Handles. -/

namespace Database

variable {σ : Type} {db : Database σ}

theorem ofOptions_eq_ok_iff {e : σ} {o : Options} : ofOptions e o = .ok db ↔ o.Sound ∧ ⟨e, o, false⟩ = db := by
  rw [Options.sound_iff, ofOptions]
  cases o.schema with
  | none => simp [check_eq_ok, and_assoc, pure, Except.pure]
  | some s =>
      have passes : (∃ u, s.validate = .ok u) ↔ s.validate = .ok () := ⟨fun ⟨_, valid⟩ => valid, fun valid => ⟨_, valid⟩⟩
      simp [check_eq_ok, bind_eq_ok, mapError_eq_ok, passes, and_assoc, pure, Except.pure]

theorem withSchema_accepted {schema : Option Schema} (valid : ∀ s ∈ schema, s.validate = .ok ()) :
    (withSchema schema).outcome db = (.ok ⟨⟩, { db with options := { db.options with schema } }) := by
  cases schema with
  | none => rfl
  | some s =>
      have passed : (Action.conform s.validate).outcome db = (.ok ⟨⟩, db) := by
        rw [Action.conform, Action.outcome_check, valid s rfl]
        rfl
      exact Action.outcome_bind_ok passed _

theorem withSchema_rejected {s : Schema} {v : Violation} (invalid : s.validate = .error v) :
    (withSchema (some s)).outcome db = (.error (.schema v), db) := by
  have refused : (Action.conform s.validate).outcome db = (.error (.schema v), db) := by
    rw [Action.conform, Action.outcome_check, invalid]
    rfl
  exact Action.outcome_bind_error refused _

inductive Fresh (e : σ) : Database σ → Prop
  | new : Fresh e (.new e)
  | opened {o : Options} {db : Database σ} : ofOptions e o = .ok db → Fresh e db

/-- The handle after it has been given schemas, one after the other, whether they are accepted or rejected. -/
def offered (db : Database σ) (schemas : List (Option Schema)) : Database σ :=
  schemas.foldl (fun db schema => ((withSchema schema).outcome db).2) db

theorem Fresh.sound {e : σ} (h : Fresh e db) : db.options.Sound := by
  cases h with
  | new => exact Options.sound_default
  | opened done =>
      obtain ⟨sound, rfl⟩ := ofOptions_eq_ok_iff.mp done
      exact sound

theorem withSchema_cases (db : Database σ) (schema : Option Schema) :
    ((∀ s ∈ schema, s.validate = .ok ()) ∧
        (withSchema schema).outcome db = (.ok ⟨⟩, { db with options := { db.options with schema } })) ∨
      ∃ s v, schema = some s ∧ s.validate = .error v ∧ (withSchema schema).outcome db = (.error (.schema v), db) := by
  cases schema with
  | none => exact .inl ⟨nofun, withSchema_accepted nofun⟩
  | some s =>
      cases checked : s.validate with
      | ok _ => exact .inl ⟨by simp [checked], withSchema_accepted (by simp [checked])⟩
      | error v => exact .inr ⟨s, v, rfl, checked, withSchema_rejected checked⟩

theorem withSchema_sound (h : db.options.Sound) (schema : Option Schema) :
    ((withSchema schema).outcome db).2.options.Sound := by
  rcases withSchema_cases db schema with ⟨valid, done⟩ | ⟨_, _, _, _, done⟩
  · rw [done]
    exact h.replaced valid
  · rwa [done]

theorem offered_sound (h : db.options.Sound) (schemas : List (Option Schema)) : (db.offered schemas).options.Sound := by
  induction schemas generalizing db with
  | nil => exact h
  | cons schema schemas ih => exact ih (withSchema_sound h schema)

theorem Load.size_pos (h : db.options.Sound) (l : Load) : 0 < l.size db.options none := by
  cases l with
  | nodes label each => exact h.nodeChunk
  | edges each => exact h.edgeChunk
  | mutations each => exact h.mutationBatch

section
variable [Engine σ]

/-- The options are sound, and remain so: a valid schema takes the place of the old one, and a schema that is rejected
leaves all as it is. A load without a size of its own does not fail for its size: what is left of it is to check the load
and to send it. -/
structure Ready (db : Database σ) : Prop where
  sound : db.options.Sound
  accepted : ∀ schema : Option Schema, (∀ s ∈ schema, s.validate = .ok ()) →
    (withSchema schema).outcome db = (.ok ⟨⟩, { db with options := { db.options with schema } })
  rejected : ∀ schema f, ((withSchema schema).outcome db).1 = .error f → ((withSchema schema).outcome db).2 = db
  sized : ∀ l : Load, 0 < l.size db.options none
  unsized : ∀ l : Load, (l.run none).outcome db =
    (sendChecked (l.checked db.schema) (l.size db.options none) l.answer).outcome db

theorem ready_of_sound (h : db.options.Sound) : db.Ready where
  sound := h
  accepted _ := withSchema_accepted
  rejected schema f refused := by
    rcases withSchema_cases db schema with ⟨_, done⟩ | ⟨_, _, _, _, done⟩
    · rw [done] at refused
      cases refused
    · rw [done]
  sized := Load.size_pos h
  unsized l := l.run_outcome (l.size_pos h)

/-- A handle opens with sound options, and those are what a valid configuration comes to; so accepted configurations open.
A handle is ready from the beginning, and stays so whatever schemas it is given. -/
theorem opens_ready (e : σ) :
    (∀ o : Options, (∃ db, ofOptions e o = .ok db) ↔ o.Sound) ∧
      (∀ c : Config, c.validate = .ok () ↔ c.options.Sound) ∧
      (∀ c : Config, c.Accepted → ofOptions e c.options = .ok ⟨e, c.options, false⟩) ∧
      ∀ db : Database σ, Fresh e db → ∀ schemas, (db.offered schemas).Ready := by
  refine ⟨fun o => ?_, fun c => Config.validate_eq_ok_iff, fun c accepted => ?_, fun db fresh schemas => ?_⟩
  · simp only [ofOptions_eq_ok_iff, exists_and_left, exists_eq', and_true]
  · exact ofOptions_eq_ok_iff.mpr ⟨accepted.sound, rfl⟩
  · exact ready_of_sound (offered_sound fresh.sound schemas)

end
end Database
end GraphClient
