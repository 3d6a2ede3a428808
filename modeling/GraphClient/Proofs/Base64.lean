import GraphClient.Base64

/-!
Base64 text gives back the bytes it was made of. Three bytes are 24 bits, and four symbols carry six of them each.
-/
namespace GraphClient.Base64

theorem value?_symbol : ∀ n < 64, value? (symbol n) = some n := by
  decide

theorem symbol_ne_pad : ∀ n < 64, symbol n ≠ '=' := by
  decide

theorem byte_eq {a : UInt8} {n : Nat} (h : n = a.toNat) : UInt8.ofNat n = a := by
  rw [h, UInt8.ofNat_toNat]

theorem decode_group {p q r s : Nat} (hp : p < 64) (hq : q < 64) (hr : r < 64) (hs : s < 64) (rest : List Char) :
    decode (symbol p :: symbol q :: symbol r :: symbol s :: rest) = (decode rest).map fun tail =>
      UInt8.ofNat (p * 4 + q / 16) :: UInt8.ofNat (q % 16 * 16 + r / 4) :: UInt8.ofNat (r % 4 * 64 + s) :: tail := by
  rw [decode]
  · simp only [value?_symbol, hp, hq, hr, hs, Option.bind_eq_bind, Option.bind_some]
    cases decode rest <;> rfl
  · exact fun pad _ _ => symbol_ne_pad r hr pad
  · exact fun pad _ => symbol_ne_pad s hs pad

theorem decode_encode (bs : List UInt8) : decode (encode bs) = some bs := by
  induction bs using encode.induct with
  | case1 => rfl
  | case2 a =>
      have := a.toNat_lt
      rw [encode, decode]
      simp (disch := omega) only [value?_symbol, Option.bind_eq_bind, Option.bind_some]
      rw [if_pos (by omega), byte_eq (a := a) (by omega)]
  | case3 a b =>
      have := a.toNat_lt
      have := b.toNat_lt
      have third : symbol (b.toNat % 16 * 4) ≠ '=' := symbol_ne_pad _ (by omega)
      rw [encode, decode]
      · simp (disch := omega) only [value?_symbol, Option.bind_eq_bind, Option.bind_some]
        rw [if_pos (by omega), byte_eq (a := a) (by omega), byte_eq (a := b) (by omega)]
      · exact third
  | case4 a b c rest ih =>
      have := a.toNat_lt
      have := b.toNat_lt
      have := c.toNat_lt
      rw [encode, decode_group (by omega) (by omega) (by omega) (by omega), ih, Option.map_some,
        byte_eq (a := a) (by omega), byte_eq (a := b) (by omega), byte_eq (a := c) (by omega)]

end GraphClient.Base64
