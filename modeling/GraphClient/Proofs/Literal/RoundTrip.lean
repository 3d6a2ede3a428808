import GraphClient.Literal.Wire
import GraphClient.Proofs.Base64
import GraphClient.Proofs.Json.Floats
import GraphClient.Proofs.Wire.Lossless

/-!
Literals are read back as they were written, unless they are floats without a number. What is read is never one of
those.
-/
namespace GraphClient.Literal

open Wire

/-- Every literal has a number but the floats that are not finite. -/
def Finite : Literal → Prop
  | float x => x.isFinite = true
  | _ => True

/-! What is read. -/

theorem read_object_eq_ok {place : Place} {ms : List (String × Json)} {l : Literal} :
    read place (.object ms) = .ok l ↔
      ∃ k, (∃ t, Parts.valuesOf ["t"] ms = [t] ∧ choice place kinds t = .ok k) ∧
        (Parts.valuesOf ["v"] ms = [] ∧ k = .null ∧ null = l ∨
          ∃ v, Parts.valuesOf ["v"] ms = [v] ∧ readPayload k v = .ok l) := by
  rw [← Parts.map_snd_occurrences, ← Parts.map_snd_occurrences]
  unfold read
  dsimp only
  match Parts.occurrences ["t"] ms with
  | [] => simp
  | (_, t) :: more =>
      simp only [bind_eq_ok]
      cases more with
      | cons m more => simp
      | nil =>
          simp only [List.map_cons, List.map_nil, List.cons.injEq, and_true, exists_eq_left']
          refine exists_congr fun k => and_congr_right fun _ => ?_
          match Parts.occurrences ["v"] ms with
          | [] => by_cases none : k = .null <;> simp [none, pure, Except.pure]
          | [(_, v)] => simp
          | (_, v) :: _ :: _ => simp [bind_eq_ok]

theorem read_array_eq_ok {place : Place} {xs : List Json} {l : Literal} :
    read place (.array xs) = .ok l ↔
      ∃ t v, xs = [t, v] ∧ ∃ k, tagOf place kinds t = .ok k ∧ readPayload k v = .ok l := by
  match xs with
  | [] => simp [read]
  | [t] => simp [read, bind_eq_ok]
  | [t, v] => simp [read, bind_eq_ok]
  | t :: v :: _ :: _ => simp [read, bind_eq_ok]

theorem steady_readPayload (k : LiteralKind) : Steady (readPayload k) := by
  cases k <;> exact .of_scalars (fun _ _ => nofun) (fun _ _ => nofun)

theorem steady_read (place : Place) : Steady (read place) := by
  intro j faithful l
  rcases faithful.normalize_cases with same | ⟨xs, rfl, items⟩ | ⟨ms, rfl, distinct, members⟩
  · rw [same]
  · match xs with
    | [] | [_] | _ :: _ :: _ :: _ => simp [Json.normalize, Json.normalizeItems, read_array_eq_ok]
    | [t, v] =>
        simp [Json.normalize, Json.normalizeItems, read_array_eq_ok, Steady.tagOf place kinds t (items t (by simp)),
          steady_readPayload _ v (items v (by simp))]
  · have tag := Parts.valuesOf_normalize_perm ["t"] distinct
    have payload := Parts.valuesOf_normalize_perm ["v"] distinct
    have each := fun name => Parts.faithful_of_mem_valuesOf [name] members
    simp only [Json.normalize, read_object_eq_ok, Json.perm_map_nil_iff payload,
      Parts.exists_read_normalize_iff (Steady.choice place kinds) tag (each "t"),
      Parts.exists_read_normalize_iff (steady_readPayload _) payload (each "v")]

theorem finite_of_readPayload {k : LiteralKind} {j : Json} {l : Literal} (faithful : j.Faithful)
    (done : readPayload k j = .ok l) : l.Finite := by
  cases k with
  | float =>
      obtain ⟨x, number, rfl⟩ := map_eq_ok.mp done
      cases faithful with
      | integer low high =>
          cases number
          exact Rounding.isFinite_ofInt low high
      | float finite =>
          cases number
          exact finite
      | _ => cases number
  | _ =>
      obtain ⟨_, _, rfl⟩ := map_eq_ok.mp done
      trivial

theorem yields_finite (place : Place) : Yields Finite (read place) := by
  intro j faithful l done
  cases faithful with
  | array items =>
      obtain ⟨t, v, rfl, k, _, payload⟩ := read_array_eq_ok.mp done
      exact finite_of_readPayload (items v (by simp)) payload
  | object distinct members =>
      obtain ⟨k, _, ⟨_, _, rfl⟩ | ⟨v, only, payload⟩⟩ := read_object_eq_ok.mp done
      · trivial
      · have faithful := Parts.faithful_of_mem_valuesOf _ members v (only ▸ List.mem_singleton_self v)
        exact finite_of_readPayload faithful payload
  | _ => cases done

/-! What is written. -/

theorem variant_kinds (k : LiteralKind) : variant kinds k.text = .ok k := by
  cases k <;> rfl

theorem int64_toInt (n : Int64) : Wire.int64 (.integer n.toInt) = .ok n := by
  have low := n.le_toInt
  have high := n.toInt_lt
  rw [Wire.int64, Wire.integer, if_pos (by omega), Except.map, Int64.ofInt_toInt]

theorem readNanos_toInt (n : Int64) : readNanos (.integer n.toInt) = .ok n := by
  have high := n.toInt_lt
  rw [readNanos, if_pos (by omega), Int64.ofInt_toInt]

theorem readBytes_encode (bs : List UInt8) : readBytes (.string (String.ofList (Base64.encode bs))) = .ok bs := by
  simp [readBytes, Wire.text, Base64.decode_encode]

theorem readPayload_payload {l : Literal} {v : Json} (written : l.payload = some v) (m : Literal) :
    readPayload l.kind v = .ok m ↔ l.Finite ∧ l = m := by
  cases l with
  | null => cases written
  | float x =>
      cases written
      by_cases finite : x.isFinite = true
      · simp [kind, readPayload, Json.ofFloat, finite, Wire.float, Finite]
      · simp [kind, readPayload, Json.ofFloat, finite, Wire.float, Finite]
  | bool b => cases written; simp [kind, readPayload, Wire.bool, Finite]
  | int n => cases written; simp [kind, readPayload, int64_toInt, Finite]
  | string s => cases written; simp [kind, readPayload, Wire.text, Finite]
  | bytes bs => cases written; simp [kind, readPayload, readBytes_encode, Finite]
  | dateTime n => cases written; simp [kind, readPayload, readNanos_toInt, Finite]

/-- A literal is read back, and nothing else is, as long as it is finite. -/
theorem read_toJson (place : Place) (l m : Literal) : read place l.toJson = .ok m ↔ l.Finite ∧ l = m := by
  have tag : Parts.valuesOf ["t"] (("t", .string l.kind.text) :: (l.payload.map (("v", ·))).toList) =
      [.string l.kind.text] := by
    cases l.payload <;> simp [Parts.valuesOf]
  have payload : Parts.valuesOf ["v"] (("t", .string l.kind.text) :: (l.payload.map (("v", ·))).toList) =
      l.payload.toList := by
    cases l.payload <;> simp [Parts.valuesOf]
  rw [toJson, read_object_eq_ok, tag, payload]
  cases written : l.payload with
  | none =>
      cases l with
      | null => simp [choice, variant_kinds, kind, Finite]
      | _ => cases written
  | some v => simp [choice, variant_kinds, readPayload_payload written]

theorem integer_faithful (n : Int64) : (Json.integer n.toInt).Faithful := by
  have low := n.le_toInt
  have high := n.toInt_lt
  exact .integer (by omega) (by omega)

theorem payload_faithful {l : Literal} {v : Json} (written : l.payload = some v) : v.Faithful := by
  cases l with
  | null => cases written
  | bool b => cases written; exact .bool
  | int n => cases written; exact integer_faithful n
  | float x => cases written; exact Json.ofFloat_faithful x
  | string s => cases written; exact .string
  | bytes bs => cases written; exact .string
  | dateTime n => cases written; exact integer_faithful n

theorem toJson_faithful (l : Literal) : l.toJson.Faithful := by
  rw [toJson]
  cases written : l.payload with
  | none => exact .object (by simp) (by simp [Json.Faithful.string])
  | some v => exact .object (by simp) (by simp [Json.Faithful.string, payload_faithful written])

theorem lossless (place : Place) : Lossless Finite (read place) toJson where
  steady := steady_read place
  faithful l _ := l.toJson_faithful
  back l finite := (read_toJson place l l).mpr ⟨finite, rfl⟩

theorem payload_encode (l : Literal) : (format.encode l).json.get? "v" = l.payload.map Json.normalize := by
  change (Json.normalize l.toJson).get? "v" = _
  rw [toJson]
  cases l.payload with
  | none => rfl
  | some v =>
      have sorted : Entries.Sorted [("t", .string l.kind.text), ("v", v.normalize)] :=
        List.pairwise_pair.mpr (by decide : "t" < "v")
      have written : Json.normalize (.object [("t", .string l.kind.text), ("v", v)]) =
          .object [("t", .string l.kind.text), ("v", v.normalize)] := congrArg Json.object (Entries.collect_eq_self sorted)
      exact congrArg (Json.get? · "v") written

end GraphClient.Literal
