/-!
The shortest decimal number that a binary64 number is the nearest to, found in exact arithmetic
on natural numbers. A decimal number is `digits · 10 ^ exponent`.
-/
namespace GraphClient

structure Decimal where
  digits : Nat
  exponent : Int
deriving DecidableEq, Repr

namespace Decimal

/-- A positive binary64 number with the reals that round to it, all over one denominator. The ends are among them when
the significand is even. -/
structure Span where
  low : Nat
  value : Nat
  high : Nat
  denominator : Nat
  closed : Bool

def Span.ofBits (bits : UInt64) : Span :=
  let fraction := (bits &&& 0xFFFFFFFFFFFFF).toNat
  let biased := ((bits >>> 52) &&& 0x7FF).toNat
  let significand := if biased = 0 then fraction else fraction + 0x10000000000000
  let scale : Int := (if biased = 0 then 1 else biased : Nat) - 1077
  let up := Nat.pow 2 scale.toNat
  -- a power of two has the shorter half below it
  let below := if fraction = 0 ∧ 1 < biased then 1 else 2
  { low := (4 * significand - below) * up, value := 4 * significand * up, high := (4 * significand + 2) * up
    denominator := Nat.pow 2 (-scale).toNat, closed := significand % 2 = 0 }

/-- The exponent of the leading digit of `n / d`, at least `-k`. -/
def leading (n d : Nat) : Nat → Int
  | 0 => 0
  | k + 1 => if d ≤ n then (toString (n / d)).length - 1 else leading (n * 10) d k - 1

def ratio (x : Decimal) : Nat × Nat := (x.digits * Nat.pow 10 x.exponent.toNat, Nat.pow 10 (-x.exponent).toNat)

def Span.contains (s : Span) (x : Decimal) : Bool :=
  let (n, d) := x.ratio
  let (l, h, c) := (s.low * d, s.high * d, n * s.denominator)
  if s.closed then l ≤ c && c ≤ h else l < c && c < h

/-- Of the two neighbours on the grid of `10 ^ exponent`, the nearer one in the span; a tie goes to the even one. -/
def Span.onGrid (s : Span) (exponent : Int) : Option Decimal :=
  let num := s.value * Nat.pow 10 (-exponent).toNat
  let den := s.denominator * Nat.pow 10 exponent.toNat
  let (q, r) := (num / den, num % den)
  let below : Decimal := ⟨q, exponent⟩
  let above : Decimal := ⟨q + 1, exponent⟩
  let preferBelow := 2 * r < den || (2 * r == den && q % 2 == 0)
  match s.contains below, s.contains above with
  | true, true => some (if preferBelow then below else above)
  | true, false => some below
  | false, true => some above
  | false, false => none

def stripZeros (x : Decimal) : Nat → Decimal
  | 0 => x
  | k + 1 => if x.digits ≠ 0 ∧ x.digits % 10 = 0 then stripZeros ⟨x.digits / 10, x.exponent + 1⟩ k else x

/-- The coarsest grid of at most 17 digits that has a number in the span gives the digits. -/
def shortest (bits : UInt64) : Decimal :=
  let s := Span.ofBits bits
  let top := leading s.value s.denominator 400
  let found := (List.range 17).findSome? fun (n : Nat) => s.onGrid (top - (n : Nat))
  (found.getD ⟨s.value / s.denominator, 0⟩).stripZeros 20

end Decimal
end GraphClient
