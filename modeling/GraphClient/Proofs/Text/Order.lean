import Mathlib.Data.List.Lex

/-!
The order of texts. They are compared character by character, which comes to the same as comparing their bytes in UTF-8:
of two characters the smaller one has the smaller bytes, and they differ before either of them ends.
-/
namespace GraphClient.Text

def bytes (s : String) : List UInt8 := s.toByteArray.data.toList

theorem bytes_eq (s : String) : bytes s = s.toList.flatMap String.utf8EncodeChar := by
  rw [bytes, ← String.utf8Encode_toList, List.utf8Encode, List.toList_data_toByteArray]

theorem byte_lt {n m : Nat} (less : n < m) (small : m < 256) (l k : List UInt8) :
    UInt8.ofNat n :: l < UInt8.ofNat m :: k :=
  List.Lex.rel ((UInt8.ofNat_lt_iff_lt (Nat.lt_trans less small) small).mpr less)

/-- Numbers below the bound are written in their order, whatever stands behind them. -/
def InOrder (write : Nat → List UInt8) (bound : Nat) : Prop :=
  ∀ n m, n < m → m < bound → ∀ x y, write n ++ x < write m ++ y

theorem inOrder_lead (size base : Nat) (fits : size + base ≤ 256) :
    InOrder (fun n => [UInt8.ofNat (n % size + base)]) size := by
  intro n m less small x y
  dsimp only
  rw [Nat.mod_eq_of_lt small, Nat.mod_eq_of_lt (Nat.lt_trans less small)]
  exact byte_lt (by omega) (by omega) x y

theorem InOrder.continued {write : Nat → List UInt8} {bound : Nat} (h : InOrder write bound) :
    InOrder (fun n => write (n / 64) ++ [UInt8.ofNat (n % 64 + 128)]) (64 * bound) := by
  intro n m less small x y
  simp only [List.append_assoc]
  rcases Nat.lt_or_ge (n / 64) (m / 64) with high | low
  · exact h _ _ high (by omega) _ _
  · have same : n / 64 = m / 64 := by omega
    rw [same]
    exact List.append_left_lt (byte_lt (by omega) (by omega) x y)

/-- A longer form has a greater first byte; two of one length are in order. -/
theorem encodeChar_lt {c d : Char} (less : c < d) (x y : List UInt8) :
    String.utf8EncodeChar c ++ x < String.utf8EncodeChar d ++ y := by
  have less : c.val.toNat < d.val.toNat := less
  have range : d.val.toNat < 0x110000 := by
    rcases d.valid with low | high
    · exact Nat.lt_trans low (by decide)
    · exact high.2
  have two : InOrder _ (64 * 32) := (inOrder_lead 32 192 (by decide)).continued
  have three : InOrder _ (64 * (64 * 16)) := (inOrder_lead 16 224 (by decide)).continued.continued
  have four : InOrder _ (64 * (64 * (64 * 8))) := (inOrder_lead 8 240 (by decide)).continued.continued.continued
  simp only [Nat.div_div_eq_div_mul, List.cons_append, List.nil_append] at two three four
  unfold String.utf8EncodeChar
  generalize c.val.toNat = n at less ⊢
  generalize d.val.toNat = m at less range ⊢
  dsimp only
  by_cases n₁ : n ≤ 127
  · rw [if_pos n₁]
    split_ifs <;> exact byte_lt (by omega) (by omega) _ _
  rw [if_neg n₁, if_neg (show ¬ m ≤ 127 by omega)]
  by_cases n₂ : n ≤ 2047
  · rw [if_pos n₂]
    split_ifs
    · exact two n m less (by omega) x y
    · exact byte_lt (by omega) (by omega) _ _
    · exact byte_lt (by omega) (by omega) _ _
  rw [if_neg n₂, if_neg (show ¬ m ≤ 2047 by omega)]
  by_cases n₃ : n ≤ 65535
  · rw [if_pos n₃]
    split_ifs
    · exact three n m less (by omega) x y
    · exact byte_lt (by omega) (by omega) _ _
  rw [if_neg n₃, if_neg (show ¬ m ≤ 65535 by omega)]
  exact four n m less (by omega) x y

theorem flatMap_encodeChar_lt {l k : List Char} (less : l < k) :
    l.flatMap String.utf8EncodeChar < k.flatMap String.utf8EncodeChar := by
  induction less with
  | @nil d k =>
      obtain ⟨b, bs, form⟩ := List.exists_cons_of_ne_nil (String.utf8EncodeChar_ne_nil (c := d))
      rw [List.flatMap_cons, form]
      exact .nil
  | cons less ih => exact List.append_left_lt ih
  | rel less => exact encodeChar_lt less _ _

theorem bytes_lt_iff {s t : String} : bytes s < bytes t ↔ s < t := by
  have forward {s t : String} (less : s < t) : bytes s < bytes t := by
    rw [bytes_eq, bytes_eq]
    exact flatMap_encodeChar_lt less
  refine ⟨fun less => Decidable.byContradiction fun before => ?_, forward⟩
  by_cases behind : t < s
  · exact List.lt_asymm less (forward behind)
  · obtain rfl : s = t := String.le_antisymm (String.not_lt.mp behind) (String.not_lt.mp before)
    exact List.lt_irrefl _ less

end GraphClient.Text
