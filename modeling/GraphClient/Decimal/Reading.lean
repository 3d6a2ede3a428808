import GraphClient.Text.Integer

/-!
From written digits to a binary64 number. `nearest` is exact; `toFloat?` takes the leading digits that fit an unsigned
word of 64 bits as the significand, which it scales once by a power of ten.
-/
namespace GraphClient.Decimal

/-- The number nearest to `digits · 10 ^ exponent`; infinite beyond all finite numbers. -/
def nearest (digits : Nat) (exponent : Int) : Float :=
  let lead := (toString digits).length + exponent
  if digits = 0 ∨ lead < -400 then 0
  else if 400 < lead then 1 / 0
  else Float.ofScientific digits (exponent < 0) exponent.natAbs

structure Significand where
  value : Nat
  exponent : Int

/-- Takes up digits from the left while the value fits 64 bits; gives back how many were left out. -/
def Significand.take (value : Nat) : List Char → Nat × Nat
  | [] => (value, 0)
  | c :: cs =>
    let grown := value * 10 + (Text.digit? c).getD 0
    if grown < 0x10000000000000000 then take grown cs else (value, cs.length + 1)

def Significand.ofDigits (whole part : List Char) : Significand :=
  let (a, dropped) := take 0 whole
  let (b, left) := take a part
  -- digits behind the point scale down where they have been taken up
  ⟨b, dropped - (part.length - left : Nat)⟩

def powerOfTen (e : Nat) : Float := Float.ofScientific 1 false e

/-- `n · 10 ^ e` in one rounding step above `10 ^ -308` and in two below; none where it exceeds every finite number. -/
def scaled (n : Nat) (e : Int) : Option Float :=
  let x := Float.ofNat n
  if 308 < e then (if n = 0 then some 0 else none)
  else if 0 ≤ e then
    let y := x * powerOfTen e.toNat
    if y.isFinite then some y else none
  else if -308 ≤ e then some (x / powerOfTen (-e).toNat)
  else if -616 ≤ e then some (x / powerOfTen 308 / powerOfTen (-e - 308).toNat)
  else some 0

def toFloat? (negative : Bool) (whole part : List Char) (exponent : Int) : Option Float := do
  let s := Significand.ofDigits whole part
  let x ← scaled s.value (s.exponent + exponent)
  pure (if negative then -x else x)

end GraphClient.Decimal
