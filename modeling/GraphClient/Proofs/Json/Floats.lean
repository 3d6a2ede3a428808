import Mathlib
import GraphClient.Json.Basic

/-!
Integers of 64 bits are finite as floats. Each operation on the way raises the exponent by no more than the length of
the mantissas it works on, and the bounds add up to less than what a float holds.
-/
namespace GraphClient.Rounding

open Float.Model (UnpackedFloat Format totalExponent)
open Float.Model.UnpackedFloat (Sign ExtendedMantissa Accuracy shiftToTargetExponent roundWithAccuracy)

/-- Zero, or a finite number whose exponent is at most `k`. -/
inductive Within (k : Nat) : UnpackedFloat → Prop
  | zero {s} : Within k (.zero s)
  | finite {s : Sign} {m : Nat} {e : Int} {pos : 0 < m} : e ≤ k → Within k (.finite s m e pos)

theorem Within.mono {k l : Nat} {f : UnpackedFloat} (h : Within k f) (le : k ≤ l) : Within l f := by
  cases h with
  | zero => exact .zero
  | finite low => exact .finite (by omega)

theorem Within.isFinite {k : Nat} {f : UnpackedFloat} (h : Within k f) : f.isFinite = true := by
  cases h <;> rfl

theorem Within.neg {k : Nat} {f : UnpackedFloat} (h : Within k f) : Within k f.neg := by
  cases h with
  | zero => exact .zero
  | finite low => exact .finite low

/-! Rounding. A shift to the right makes the mantissa no larger. -/

theorem shift_mantissa_le (em : ExtendedMantissa) (k : Nat) : (em >>> k).mantissa ≤ em.mantissa := by
  induction k with
  | zero => exact Nat.le_refl _
  | succ k ih =>
      change (em >>> k).mantissa / 2 ≤ em.mantissa
      omega

theorem roundedMantissa_le (em : ExtendedMantissa) : em.roundedMantissa ≤ em.mantissa + 1 := by
  rcases em with ⟨m, r, s⟩
  cases r <;> cases s <;>
    simp only [ExtendedMantissa.roundedMantissa, ExtendedMantissa.accuracy, Accuracy.roundToNearestEven] <;> omega

theorem shiftToTargetExponent_le {m L E : Nat} {e : Int} (small : m < 2 ^ L) (low : e ≤ E) (a : Accuracy) :
    (shiftToTargetExponent Format.binary64 m e a).1.mantissa ≤ m ∧
      (shiftToTargetExponent Format.binary64 m e a).2 ≤ E + L := by
  have digits : m.log2 ≤ L := by
    by_cases zero : m = 0
    · simp [zero]
    · exact Nat.le_of_lt ((Nat.log2_lt zero).mpr small)
  have start : (ExtendedMantissa.ofMantissaAndAccuracy m a).mantissa = m := by
    cases a with
    | exact => rfl
    | inexact o => cases o <;> rfl
  constructor
  · exact (shift_mantissa_le _ _).trans_eq start
  · simp only [shiftToTargetExponent, UnpackedFloat.shiftToExponent, Format.targetExponent, totalExponent,
      Format.mantissaBits, Format.minExponent]
    norm_num
    omega

/-- Rounding brings the mantissa to its place twice: once to round it, and once more for the carry. -/
theorem within_roundWithAccuracy {m L E : Nat} {e : Int} (s : Sign) (small : m < 2 ^ L) (low : e ≤ E)
    (a : Accuracy) : Within (E + 2 * L + 1) (roundWithAccuracy Format.binary64 s m e a) := by
  obtain ⟨lower, here⟩ := shiftToTargetExponent_le small low a
  have rounded := roundedMantissa_le (shiftToTargetExponent Format.binary64 m e a).1
  have carry : (shiftToTargetExponent Format.binary64 m e a).1.roundedMantissa < 2 ^ (L + 1) := by
    have := Nat.one_le_two_pow (n := L)
    rw [Nat.pow_succ]
    omega
  -- a carry brings the rounded mantissa to its place once more
  have there := (shiftToTargetExponent_le (E := E + L) carry (by simpa using here) .exact).2
  unfold roundWithAccuracy
  dsimp only
  split
  · exact .zero
  · refine .finite ?_
    push_cast at there ⊢
    omega

theorem within_round {m L : Nat} (s : Sign) (small : m < 2 ^ L) :
    Within (0 + 2 * (L + 53) + 1) (UnpackedFloat.round Format.binary64 s m 0) := by
  unfold UnpackedFloat.round UnpackedFloat.decreaseExponent
  refine within_roundWithAccuracy s ?_ (by omega) .exact
  rw [Nat.shiftLeft_eq, Nat.pow_add]
  refine Nat.mul_lt_mul_of_lt_of_le small (Nat.pow_le_pow_right (by omega) ?_) (by positivity)
  simp only [Format.targetExponent, totalExponent, Format.mantissaBits, Format.minExponent]
  norm_num
  omega

/-! Packing. -/

theorem mantissa_lt_of_unpack {x : Float.Model} {s : Sign} {m : Nat} {e : Int} {pos : 0 < m}
    (h : x.unpack = .finite s m e pos) : m < 2 ^ 53 := by
  unfold Float.Model.unpack UnpackedFloat.unpack at h
  dsimp only at h
  split at h
  · split at h <;> cases h
  split at h
  · split at h
    · cases h
    · injection h with _ same
      rw [← same]
      exact (BitVec.isLt _).trans (by decide)
  · injection h with _ same
    rw [← same]
    exact BitVec.isLt _

theorem within_unpack {b : BitVec Format.binary64.numBits} {k : Nat}
    (low : (UnpackedFloat.unpackExponent b).toNat ≤ k + 1075) (fits : k ≤ 971) :
    Within k (UnpackedFloat.unpack Format.binary64 b) := by
  have exponent : UnpackedFloat.unpackExponent b ≠ -1#_ := by
    intro same
    rw [same] at low
    have : (-1#_ : BitVec Format.binary64.exponentBits).toNat = 2047 := rfl
    omega
  have bias : (Format.binary64.exponentBias : Int) + Format.binary64.mantissaBitsWithoutImplicit = 1075 := rfl
  unfold UnpackedFloat.unpack
  simp only [if_neg exponent, bias]
  by_cases subnormal : UnpackedFloat.unpackExponent b = 0#_
  · rw [if_pos subnormal]
    split
    · exact .zero
    · refine .finite ?_
      rw [subnormal, BitVec.toNat_ofNat]
      omega
  · rw [if_neg subnormal]
    exact .finite (by omega)

theorem within_pack {k : Nat} {f : UnpackedFloat} (h : Within k f) (fits : k ≤ 971) :
    Within k (Float.Model.pack f).unpack := by
  refine within_unpack ?_ fits
  change (UnpackedFloat.unpackExponent (UnpackedFloat.pack Format.binary64 f)).toNat ≤ k + 1075
  cases h with
  | zero =>
      rw [UnpackedFloat.pack, UnpackedFloat.packedZero, UnpackedFloat.unpackExponent_packComponents]
      exact Nat.zero_le _
  | @finite s m e pos low =>
      have bias : Format.binary64.exponentBias = 1023 := rfl
      have biased : (e + Format.binary64.exponentBias + Format.binary64.mantissaBitsWithoutImplicit).toNat ≤ k + 1075 := by
        simp only [bias]
        omega
      -- the exponent field does not reach the highest value, which is kept for what is not finite
      have room : ¬ 2 ^ Format.binary64.exponentBits ≤
          (e + Format.binary64.exponentBias + Format.binary64.mantissaBitsWithoutImplicit).toNat + 1 := by
        simp only at biased ⊢
        omega
      rw [UnpackedFloat.pack]
      simp only [if_neg room]
      split
      · rw [UnpackedFloat.unpackExponent_packComponents]
        exact (Nat.mod_le _ _).trans biased
      · rw [UnpackedFloat.unpackExponent_packComponents]
        exact Nat.zero_le _

/-! Integers. A small one is a word times one, a large one is scaled up and multiplied by one. -/

theorem within_mul {k : Nat} {a b : UnpackedFloat} (ha : Within k a) (hb : Within 0 b)
    (left : ∀ s m e pos, a = .finite s m e pos → m < 2 ^ 118)
    (right : ∀ s m e pos, b = .finite s m e pos → m < 2 ^ 53) :
    Within (k + 2 * 171 + 1) (UnpackedFloat.mul Format.binary64 a b) := by
  cases ha with
  | zero => cases hb <;> exact .zero
  | @finite s m e pos low =>
      cases hb with
      | zero => exact .zero
      | @finite t n d pos' low' =>
          have product : m * n < 2 ^ 171 :=
            calc m * n < 2 ^ 118 * 2 ^ 53 := Nat.mul_lt_mul'' (left s m e pos rfl) (right t n d pos' rfl)
              _ = 2 ^ 171 := by norm_num
          exact within_roundWithAccuracy (s * t) product (by omega) .exact

theorem within_ofUInt64 {w : UInt64} {L : Nat} (small : w.toNat < 2 ^ L) (fits : 0 + 2 * (L + 53) + 1 ≤ 971) :
    Within (0 + 2 * (L + 53) + 1) w.toFloat.toModel.unpack := by
  refine within_pack ?_ fits
  have nonneg : ¬ (w.toNat : Int) < 0 := by omega
  change Within _ (UnpackedFloat.normalize Format.binary64 (w.toNat : Int) 0 .positive)
  unfold UnpackedFloat.normalize
  split
  · rename_i less
    exact absurd (compare_lt_iff_lt.mp less) nonneg
  · exact .zero
  · exact within_round .positive (by simpa using small)

theorem ofScientific_eq {n : Nat} (some : n ≠ 0) : UnpackedFloat.ofScientific Format.binary64 n 0 =
    .mul Format.binary64 (.finite .positive (n <<< 53) (-53) (by simpa [Nat.pos_iff_ne_zero] using some))
      (.finite .positive 1 0 (by decide)) := by
  have big : (2 : Int) ^ Format.binary64.exponentBits = 2048 := rfl
  rw [UnpackedFloat.ofScientific, dif_neg some, big, if_neg (by decide), if_neg (by omega), if_pos (Int.le_refl 0)]
  rfl

theorem within_ofScientific {n : Nat} (some : n ≠ 0) (small : n < 2 ^ 65) :
    Within (0 + 2 * 171 + 1) (UnpackedFloat.ofScientific Format.binary64 n 0) := by
  rw [ofScientific_eq some]
  refine within_mul (.finite (by decide)) (.finite (by decide)) ?_ ?_
  · rintro _ _ _ _ ⟨⟩
    rw [Nat.shiftLeft_eq]
    omega
  · rintro _ _ _ _ ⟨⟩
    decide

theorem within_ofNat {n : Nat} (small : n < 2 ^ 65) : Within 971 (Float.ofNat n).toModel.unpack := by
  change Within 971 (Float.ofScientific n false 0).toModel.unpack
  unfold Float.ofScientific
  -- up to 53 bits the reader multiplies by a power of ten, and beyond that it rounds once
  split
  · rename_i smaller
    have word : n.toUInt64.toNat < 2 ^ 53 := (Nat.mod_le n _).trans_lt smaller.1
    have unit : Float.exactlyRepresentablePowersOfTen[0].toModel.unpack =
        .finite .positive (2 ^ 52) (-52) (by decide) := rfl
    have product := within_mul (within_ofUInt64 word (by decide))
      (b := Float.exactlyRepresentablePowersOfTen[0].toModel.unpack) (by rw [unit]; exact .finite (by decide))
      (fun s m e pos found => (mantissa_lt_of_unpack found).trans (by decide))
      (fun s m e pos found => mantissa_lt_of_unpack found)
    exact within_pack (product.mono (by decide)) (Nat.le_refl _)
  · have some : n ≠ 0 := by omega
    have scaled : Within 971 (UnpackedFloat.ofScientific Format.binary64 n 0) :=
      (within_ofScientific some small).mono (by decide)
    exact within_pack scaled (Nat.le_refl _)

/-- An integer that 64 bits hold, with a sign or without, is read as a finite float. -/
theorem isFinite_ofInt {n : Int} (low : -0x8000000000000000 ≤ n) (high : n < 0x10000000000000000) :
    (Float.ofInt n).isFinite = true := by
  cases n with
  | ofNat n => exact (within_ofNat (n := n) (by simp at high; omega)).isFinite
  | negSucc n => exact (within_pack (within_ofNat (n := n + 1) (by omega)).neg (Nat.le_refl _)).isFinite

end GraphClient.Rounding
