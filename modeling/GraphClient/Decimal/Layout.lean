import GraphClient.Decimal.Shortest

/-!
How a decimal number is laid out as text: positional within a range of magnitudes, scientific outside it.
-/
namespace GraphClient.Decimal

/-- The choices of one notation. A number is positional if its leading digit has an exponent
from `least` to `greatest`. -/
structure Layout where
  least : Int
  greatest : Int
  /-- A whole number keeps one digit behind the point. -/
  keepsPoint : Bool
  signsExponent : Bool

private def zeros (n : Nat) : String := "".pushn '0' n

def Layout.positional (l : Layout) (digits : List Char) (exponent : Int) : String :=
  let lead : Int := digits.length - 1 + exponent
  if 0 ≤ exponent then
    String.ofList digits ++ zeros exponent.toNat ++ (if l.keepsPoint then ".0" else "")
  else if 0 ≤ lead then
    let (whole, part) := digits.splitAt (lead.toNat + 1)
    String.ofList whole ++ "." ++ String.ofList part
  else "0." ++ zeros (-lead - 1).toNat ++ String.ofList digits

def Layout.scientific (l : Layout) (digits : List Char) (lead : Int) : String :=
  let mantissa := match digits with
    | [] => "0"
    | [d] => String.ofList [d]
    | d :: ds => String.ofList (d :: '.' :: ds)
  let sign := if 0 ≤ lead ∧ l.signsExponent then "+" else ""
  mantissa ++ "e" ++ sign ++ toString lead

def Layout.text (l : Layout) (x : Decimal) : String :=
  let digits := (toString x.digits).toList
  let lead : Int := digits.length - 1 + x.exponent
  if l.least ≤ lead ∧ lead ≤ l.greatest then l.positional digits x.exponent else l.scientific digits lead

def Layout.floatText (l : Layout) (x : Float) : String :=
  let bits := x.toBits
  let magnitude := bits &&& 0x7FFFFFFFFFFFFFFF
  let sign := if bits == magnitude then "" else "-"
  sign ++ if magnitude == 0 then (if l.keepsPoint then "0.0" else "0") else l.text (shortest magnitude)

end GraphClient.Decimal
