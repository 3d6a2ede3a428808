import GraphClient.Proofs.Wire.Steady

/-!
Writers and readers that belong together. What is written loses nothing in its normal form, and is read back from it; this
carries over from parts to lists, maps and optional values, and in the end to formats.
-/
namespace GraphClient.Wire

variable {α : Type}

/-- Values with a property are read back from what is written of them. -/
structure Lossless (P : α → Prop) (read : Reader α) (write : α → Json) : Prop where
  steady : Steady read
  faithful : ∀ a, P a → (write a).Faithful
  back : ∀ a, P a → read (write a) = .ok a

def Format.Keeps (f : Format α) (a : α) : Prop := f.decode (f.encode a) = .ok a

namespace Lossless

theorem keeps {P : α → Prop} {f : Format α} (h : Lossless P f.read f.write) {a : α} (ha : P a) : f.Keeps a :=
  Format.decode_eq_ok.mpr ((h.steady _ (h.faithful a ha) a).mpr (h.back a ha))

theorem weaken {P Q : α → Prop} {read : Reader α} {write : α → Json} (h : Lossless P read write)
    (stronger : ∀ a, Q a → P a) : Lossless Q read write :=
  ⟨h.steady, fun a ha => h.faithful a (stronger a ha), fun a ha => h.back a (stronger a ha)⟩

/-! Single values. -/

theorem text : Lossless (fun _ => True) Wire.text .string := ⟨.text, fun _ _ => .string, fun _ _ => rfl⟩

theorem value : Lossless (fun _ => True) Wire.value Value.json where
  steady := .value
  faithful v _ := v.wellFormed.faithful
  back v _ := congrArg Except.ok v.ofJson_json

theorem uint64 : Lossless (fun _ => True) Wire.uint64 fun n => .integer n.toNat where
  steady := .uint64
  faithful n _ := by
    have high := n.toNat_lt
    exact .integer (by omega) (by omega)
  back n _ := by
    have high := n.toNat_lt
    rw [Wire.uint64, integer, if_pos (by omega), Except.map, Int.toNat_natCast, UInt64.ofNat_toNat]

theorem uint32 : Lossless (fun _ => True) Wire.uint32 fun n => .integer n.toNat where
  steady := .uint32
  faithful n _ := by
    have high := n.toNat_lt
    exact .integer (by omega) (by omega)
  back n _ := by
    have high := n.toNat_lt
    rw [Wire.uint32, integer, if_pos (by omega), Except.map, Int.toNat_natCast, UInt32.ofNat_toNat]

theorem size : Lossless (· < 0x10000000000000000) Wire.size fun n : Nat => .integer n where
  steady := .size
  faithful n small := .integer (by omega) (by omega)
  back n _ := by rw [Wire.size, if_pos (by omega), Int.toNat_natCast]

/-! Values that hold others. -/

section
variable {P : α → Prop} {read : Reader α} {write : α → Json} (h : Lossless P read write)
include h

theorem list : Lossless (fun l => ∀ a ∈ l, P a) (Wire.list read) fun l => .array (l.map write) where
  steady := h.steady.list
  faithful _ each := Json.array_map_faithful fun a ha => h.faithful a (each a ha)
  back _ each := list_written fun a ha => h.back a (each a ha)

theorem map : Lossless (fun r => ∀ e ∈ r.entries, P e.2) (Wire.map read)
    fun r => .object (r.entries.map fun e => (e.1, write e.2)) where
  steady := h.steady.map
  faithful _ each := Json.object_entries_faithful fun e he => h.faithful e.2 (each e he)
  back r each := by
    have entries : (r.entries.map fun e => (e.1, write e.2)).mapM (fun m => (m.1, ·) <$> read m.2) = .ok r.entries := by
      rw [mapM_eq_ok_iff, List.forall₂_map_left_iff, List.forall₂_same]
      intro e he
      rw [h.back e.2 (each e he), map_ok]
    change Record.ofList <$> (r.entries.map fun e => (e.1, write e.2)).mapM (fun m => (m.1, ·) <$> read m.2) = .ok r
    rw [entries, map_ok, Record.ofList_entries]

/-- Null stands for no value, so that no value may be written as null. -/
theorem optional (some : ∀ a, P a → write a ≠ .null) :
    Lossless (fun o => ∀ a ∈ o, P a) (Wire.optional read) fun o => (o.map write).getD .null where
  steady := h.steady.optional
  faithful o each := by
    cases o with
    | none => exact .null
    | some a => exact h.faithful a (each a rfl)
  back o each := by
    cases o with
    | none => rfl
    | some a =>
        change Wire.optional read (write a) = _
        rw [optional_eq_map (some a (each a rfl)), h.back a (each a rfl), map_ok]

end

theorem props : Lossless (fun _ => True) Wire.props Props.toJson := value.map.weaken fun _ _ _ _ => trivial

end Lossless

/-! Single values are written anywhere, so that records find these facts by themselves. -/

@[simp] theorem text_string (s : String) : text (.string s) = .ok s := rfl

@[simp] theorem bool_bool (b : Bool) : bool (.bool b) = .ok b := rfl

@[simp] theorem props_toJson (p : Props) : props p.toJson = .ok p := Lossless.props.back p trivial

end GraphClient.Wire

namespace GraphClient

@[simp] theorem Props.toJson_faithful (p : Props) : p.toJson.Faithful := Wire.Lossless.props.faithful p trivial

end GraphClient
