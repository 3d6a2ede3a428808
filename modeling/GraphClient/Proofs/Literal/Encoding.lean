import GraphClient.Proofs.Calendar
import GraphClient.Proofs.Literal.RoundTrip

/-!
What encoding makes of a scalar: the literal of its kind that holds its value, if there is one. The literal is read back
from its document, and a scalar that comes from a document is written as the payload that it was.
-/
namespace GraphClient

open Wire

def ZonedTime.InWindow (t : ZonedTime) : Prop := Scalar.windowStart ≤ t.instant ∧ t.instant < Scalar.windowEnd

def Literal.InWindow : Literal → Prop
  | dateTime nanos => Scalar.windowStart ≤ nanos.toInt ∧ nanos.toInt < Scalar.windowEnd
  | _ => True

namespace Scalar

theorem windowStart_eq : windowStart = -2208988800000000000 := by
  decide

theorem windowEnd_eq : windowEnd = 4102444800000000000 := by
  decide

theorem fitsInt64_iff {n : Int} : fitsInt64 n = true ↔ -0x8000000000000000 ≤ n ∧ n < 0x8000000000000000 := by
  simp [fitsInt64]

theorem toInt_ofInt {n : Int} (fits : fitsInt64 n = true) : (Int64.ofInt n).toInt = n := by
  rw [fitsInt64_iff] at fits
  exact Int64.toInt_ofInt_of_le (by omega) (by omega)

/-! Date-times. -/

theorem fitsInt64_of_inWindow {t : ZonedTime} (h : t.InWindow) : fitsInt64 t.instant = true := by
  rw [ZonedTime.InWindow, windowStart_eq, windowEnd_eq] at h
  rw [fitsInt64_iff]
  omega

theorem utc?_isSome_of_inWindow {t : ZonedTime} (h : t.InWindow) : t.utc?.isSome = true := by
  have first : DateTime.newYear (-9999) ≤ windowStart := by decide
  have last : windowEnd ≤ DateTime.newYear 10000 := by decide
  exact ZonedTime.utc?_isSome_iff.mpr ⟨Int.le_trans first h.1, Int.lt_of_lt_of_le h.2 last⟩

theorem encodeZoned_inside {t : ZonedTime} (h : t.InWindow) : encodeZoned t = .ok (.dateTime (.ofInt t.instant)) := by
  obtain ⟨u, shown⟩ := Option.isSome_iff_exists.mp (utc?_isSome_of_inWindow h)
  unfold encodeZoned
  simp only [shown]
  rw [if_neg, if_pos (fitsInt64_of_inWindow h)]
  rw [not_or, Int.not_lt, Int.not_le]
  exact h

theorem encodeZoned_outside {t : ZonedTime} {u : DateTime} (h : ¬ t.InWindow) (shown : t.utc? = some u) :
    encodeZoned t = .error (.argument (.outsideWindow u)) := by
  unfold encodeZoned
  simp only [shown]
  rw [if_pos]
  rwa [ZonedTime.InWindow, Decidable.not_and_iff_or_not, Int.not_le, Int.not_lt] at h

theorem encodeZoned_unshown {t : ZonedTime} (h : t.utc? = none) : encodeZoned t = .error .yearRange := by
  unfold encodeZoned
  simp only [h]

theorem encodeZoned_eq_ok_iff {t : ZonedTime} {l : Literal} :
    encodeZoned t = .ok l ↔ t.InWindow ∧ ∃ n : Int64, l = .dateTime n ∧ n.toInt = t.instant := by
  by_cases inside : t.InWindow
  · rw [encodeZoned_inside inside, and_iff_right inside, Except.ok.injEq]
    constructor
    · rintro rfl
      exact ⟨_, rfl, toInt_ofInt (fitsInt64_of_inWindow inside)⟩
    · rintro ⟨n, rfl, same⟩
      rw [← same, Int64.ofInt_toInt]
  · refine iff_of_false ?_ fun h => inside h.1
    cases shown : t.utc? with
    | none => simp [encodeZoned_unshown shown]
    | some u => simp [encodeZoned_outside inside shown]

/-! Scalars of every kind. -/

def Encodable : Scalar → Prop
  | int n => -0x8000000000000000 ≤ n ∧ n < 0x8000000000000000
  | float x => x.isFinite = true
  | zoned t => t.InWindow
  | naive _ => False
  | _ => True

def kind : Scalar → LiteralKind
  | null => .null
  | bool _ => .bool
  | int _ => .int
  | float _ => .float
  | string _ => .string
  | bytes _ => .bytes
  | zoned _ | naive _ => .dateTime

def HeldBy : Scalar → Literal → Prop
  | null, l => l = .null
  | bool b, l => l = .bool b
  | int n, l => ∃ m : Int64, l = .int m ∧ m.toInt = n
  | float x, l => l = .float x
  | string s, l => l = .string s
  | bytes bs, l => l = .bytes bs
  | zoned t, l => ∃ m : Int64, l = .dateTime m ∧ m.toInt = t.instant
  | naive _, _ => False

theorem encode_eq_ok_iff {s : Scalar} {l : Literal} : s.encode = .ok l ↔ s.Encodable ∧ s.HeldBy l := by
  cases s with
  | int n =>
      rw [encode, Encodable, ← fitsInt64_iff, HeldBy]
      by_cases fits : fitsInt64 n = true
      · rw [if_pos fits, and_iff_right fits, Except.ok.injEq]
        constructor
        · rintro rfl
          exact ⟨_, rfl, toInt_ofInt fits⟩
        · rintro ⟨m, rfl, rfl⟩
          rw [Int64.ofInt_toInt]
      · simp [fits]
  | float x =>
      by_cases finite : x.isFinite = true
      · simp [encode, Encodable, HeldBy, finite, eq_comm]
      · simp [encode, Encodable, finite]
  | zoned t => exact encodeZoned_eq_ok_iff
  | naive t => exact iff_of_false nofun fun h => h.1
  | _ => simp [encode, Encodable, HeldBy, eq_comm]

theorem HeldBy.kind {s : Scalar} {l : Literal} (h : s.HeldBy l) : l.kind = s.kind := by
  cases s with
  | int n => obtain ⟨m, rfl, _⟩ := h; rfl
  | zoned t => obtain ⟨m, rfl, _⟩ := h; rfl
  | naive t => exact h.elim
  | _ => cases h; rfl

theorem exists_heldBy {s : Scalar} (h : s.Encodable) : ∃ l, s.HeldBy l := by
  cases s with
  | int n => exact ⟨_, _, rfl, toInt_ofInt (fitsInt64_iff.mpr h)⟩
  | zoned t => exact ⟨_, _, rfl, toInt_ofInt (fitsInt64_of_inWindow h)⟩
  | naive t => exact h.elim
  | _ => exact ⟨_, rfl⟩

theorem encode_eq_ok {s : Scalar} {l : Literal} (h : s.encode = .ok l) : l.Finite ∧ l.InWindow := by
  obtain ⟨encodable, held⟩ := encode_eq_ok_iff.mp h
  cases s with
  | int n => obtain ⟨m, rfl, _⟩ := held; exact ⟨trivial, trivial⟩
  | float x => cases held; exact ⟨encodable, trivial⟩
  | zoned t =>
      obtain ⟨m, rfl, same⟩ := held
      exact ⟨trivial, by rwa [Literal.InWindow, same]⟩
  | naive t => exact held.elim
  | _ => cases held; exact ⟨trivial, trivial⟩

/-- It is encoded if a literal can hold it. That literal is of its kind, holds its value, and is read back. -/
structure Kept (s : Scalar) : Prop where
  accepted : (∃ l, s.encode = .ok l) ↔ s.Encodable
  held : ∀ l, s.encode = .ok l → l.kind = s.kind ∧ s.HeldBy l
  readBack : ∀ l, s.encode = .ok l → Literal.format.decode (Literal.format.encode l) = .ok l

theorem kept (s : Scalar) : s.Kept where
  accepted := by
    simp only [encode_eq_ok_iff, exists_and_left]
    exact and_iff_left_of_imp exists_heldBy
  held l encoded := by
    have held := (encode_eq_ok_iff.mp encoded).2
    exact ⟨held.kind, held⟩
  readBack l encoded := (Literal.lossless .outside).keeps (encode_eq_ok encoded).1

/-! Documents. -/

def encodeJson (v : Value) : Except Failure Literal := ofJson v.json >>= encode

/-- A document is encoded unless it has parts or is an integer without a literal, and it is written as it was. Null is
written without a payload. -/
structure Carried (v : Value) : Prop where
  refused : (∃ f, encodeJson v = .error f) ↔ (∃ xs, v.json = .array xs) ∨ (∃ ms, v.json = .object ms) ∨
    ∃ n, v.json = .integer n ∧ 0x8000000000000000 ≤ n
  payload : ∀ l, encodeJson v = .ok l →
    v.json = .null ∧ (Literal.format.encode l).json.get? "v" = none ∨
      v.json ≠ .null ∧ (Literal.format.encode l).json.get? "v" = some v.json

theorem refused_of_ofJson {v : Value} {s : Scalar} (made : ofJson v.json = .ok s) :
    (∃ f, encodeJson v = .error f) ↔ ¬ s.Encodable := by
  rw [encodeJson, made, ok_bind, ← (kept s).accepted]
  cases s.encode <;> simp

theorem refused_encodeJson (v : Value) : (∃ f, encodeJson v = .error f) ↔
    (∃ xs, v.json = .array xs) ∨ (∃ ms, v.json = .object ms) ∨ ∃ n, v.json = .integer n ∧ 0x8000000000000000 ≤ n := by
  obtain ⟨j, formed⟩ := v
  cases j with
  | array xs => exact iff_of_true ⟨_, rfl⟩ (.inl ⟨xs, rfl⟩)
  | object ms => exact iff_of_true ⟨_, rfl⟩ (.inr (.inl ⟨ms, rfl⟩))
  | integer n =>
      have low : -0x8000000000000000 ≤ n := formed.1
      rw [refused_of_ofJson (s := int n) rfl, Encodable, and_iff_right low, Int.not_lt]
      simp
  | float x =>
      rw [refused_of_ofJson (s := float x) rfl]
      exact iff_of_false (not_not_intro formed) (by simp)
  | null => exact (refused_of_ofJson rfl).trans (by simp [Encodable])
  | bool b => exact (refused_of_ofJson rfl).trans (by simp [Encodable])
  | string s => exact (refused_of_ofJson rfl).trans (by simp [Encodable])

theorem payload_of_encodeJson {v : Value} {l : Literal} (encoded : encodeJson v = .ok l) :
    v.json = .null ∧ l.payload = none ∨ v.json ≠ .null ∧ l.payload = some v.json := by
  obtain ⟨s, made, encoded⟩ := bind_eq_ok.mp encoded
  have held := (encode_eq_ok_iff.mp encoded).2
  obtain ⟨j, formed⟩ := v
  cases j with
  | array xs | object ms => cases made
  | null =>
      cases made
      cases held
      exact .inl ⟨rfl, rfl⟩
  | integer n =>
      cases made
      obtain ⟨m, rfl, rfl⟩ := held
      exact .inr ⟨nofun, rfl⟩
  | float x =>
      cases made
      cases held
      exact .inr ⟨nofun, congrArg some (if_pos formed)⟩
  | bool b | string s =>
      cases made
      cases held
      exact .inr ⟨nofun, rfl⟩

theorem carried (v : Value) : Carried v where
  refused := refused_encodeJson v
  payload l encoded := by
    rw [Literal.payload_encode]
    rcases payload_of_encodeJson encoded with ⟨null, written⟩ | ⟨some, written⟩
    · exact .inl ⟨null, by rw [written, Option.map_none]⟩
    · exact .inr ⟨some, by rw [written, Option.map_some, Json.normalize_eq_self v.wellFormed]⟩

/-- Scalars keep their values in literals and on the way back, and documents are the payloads of theirs. -/
theorem encoding_keeps_values : (∀ s : Scalar, s.Kept) ∧ ∀ v : Value, Carried v :=
  ⟨kept, carried⟩

end Scalar

end GraphClient
