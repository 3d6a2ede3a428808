import GraphClient.Decimal.Reading

/-!
Numbers written out in full: an optional sign, digits with an optional point, an optional exponent, or the name of a
number that is not finite.
-/
namespace GraphClient.Decimal

structure Written where
  negative : Bool
  digits : Nat
  exponent : Int

namespace Written

def sign : List Char → Bool × List Char
  | '-' :: cs => (true, cs)
  | '+' :: cs => (false, cs)
  | cs => (false, cs)

def exponent? : List Char → Option Int
  | [] => some 0
  | e :: cs =>
    let (negative, ds) := sign cs
    if (e == 'e' || e == 'E') && !ds.isEmpty && ds.all Char.isDigit then
      some (if negative then -(Text.natOf ds : Int) else Text.natOf ds)
    else none

/-- At least one digit stands before or behind the point. -/
def ofText? (s : String) : Option Written := do
  let (negative, cs) := sign s.toList
  let (whole, rest) := cs.span Char.isDigit
  let (part, rest) := match rest with
    | '.' :: more => more.span Char.isDigit
    | rest => ([], rest)
  if whole.isEmpty && part.isEmpty then none
  let e ← exponent? rest
  some ⟨negative, Text.natOf (whole ++ part), e - part.length⟩

end Written

/-- A number that is not finite, by its name in letters of any case: whether it is infinite, and its sign. -/
def named? (s : String) : Option (Bool × Bool) :=
  let (negative, cs) := Written.sign s.toList
  let name := cs.map Char.toLower
  if name = ['i', 'n', 'f'] ∨ name = ['i', 'n', 'f', 'i', 'n', 'i', 't', 'y'] then some (true, negative)
  else if name = ['n', 'a', 'n'] then some (false, negative)
  else none

def ofText? (s : String) : Option Float :=
  match named? s with
  | some (infinite, negative) => some (if infinite then (if negative then -1 / 0 else 1 / 0) else 0 / 0)
  | none => (Written.ofText? s).map fun w =>
    let x := nearest w.digits w.exponent
    if w.negative then -x else x

/-- The binary32 number nearest to `digits · 10 ^ exponent`; infinite beyond all finite numbers. -/
def nearest32 (digits : Nat) (exponent : Int) : Float32 :=
  let lead := (toString digits).length + exponent
  if digits = 0 ∨ lead < -100 then 0
  else if 100 < lead then 1 / 0
  else Float32.ofScientific digits (exponent < 0) exponent.natAbs

def ofText32? (s : String) : Option Float32 :=
  match named? s with
  | some (infinite, negative) => some (if infinite then (if negative then -1 / 0 else 1 / 0) else 0 / 0)
  | none => (Written.ofText? s).map fun w =>
    let x := nearest32 w.digits w.exponent
    if w.negative then -x else x

end GraphClient.Decimal
