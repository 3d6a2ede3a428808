import GraphClient.Decimal.Reading
import GraphClient.Json.Basic
import GraphClient.Text.Scan

/-!
Numbers and quoted text of JSON. Form and value are told apart: a number of the right form may exceed every finite
one, and quoted text may escape half a surrogate pair, which is no character.
-/
namespace GraphClient.Json

open Text Scan

def isSpace (c : Char) : Bool := c == ' ' || c == '\t' || c == '\n' || c == '\r'

def blank : Scan Unit := discard (run isSpace)

def escaped? : Char → Option Char
  | '"' => some '"'
  | '\\' => some '\\'
  | '/' => some '/'
  | 'b' => some '\x08'
  | 'f' => some '\x0c'
  | 'n' => some '\n'
  | 'r' => some '\r'
  | 't' => some '\t'
  | _ => none

/-- The characters up to the closing quote. Two escaped halves of a surrogate pair are one character, and a half
alone is refused. -/
def stringBody : List Char → Option (List Char × List Char)
  | [] => none
  | '"' :: rest => some ([], rest)
  | '\\' :: 'u' :: a :: b :: c :: d :: rest => do
    let high ← hex? [a, b, c, d]
    if 0xD800 ≤ high ∧ high < 0xDC00 then
      match rest with
      | '\\' :: 'u' :: e :: f :: g :: h :: rest => do
        let low ← hex? [e, f, g, h]
        if 0xDC00 ≤ low ∧ low < 0xE000 then
          let (cs, rest) ← stringBody rest
          some (Char.ofNat (0x10000 + (high - 0xD800) * 0x400 + (low - 0xDC00)) :: cs, rest)
        else none
      | _ => none
    else if 0xDC00 ≤ high ∧ high < 0xE000 then none
    else
      let (cs, rest) ← stringBody rest
      some (Char.ofNat high :: cs, rest)
  | '\\' :: e :: rest => do
    let c ← escaped? e
    let (cs, rest) ← stringBody rest
    some (c :: cs, rest)
  | c :: rest => do
    if c.toNat < 32 then none
    let (cs, rest) ← stringBody rest
    some (c :: cs, rest)

def quoted : Scan String := do
  char '"'
  let cs ← stringBody
  pure (String.ofList cs)

/-- Goes over characters up to the closing quote; any code may be escaped. -/
def skipBody : List Char → Option (Unit × List Char)
  | [] => none
  | '"' :: rest => some ((), rest)
  | '\\' :: 'u' :: a :: b :: c :: d :: rest => if (hex? [a, b, c, d]).isSome then skipBody rest else none
  | '\\' :: e :: rest => if (escaped? e).isSome then skipBody rest else none
  | c :: rest => if c.toNat < 32 then none else skipBody rest

def skipQuoted : Scan Unit := do
  char '"'
  skipBody

structure Numeral where
  negative : Bool
  whole : List Char
  part : Option (List Char)
  exponent : Option Int

def exponent : Scan Int := do
  discard (one fun c => c == 'e' || c == 'E')
  let sign ← Scan.optional (one fun c => c == '+' || c == '-')
  let ds ← run1 Char.isDigit
  pure (if sign == some '-' then -(natOf ds : Int) else natOf ds)

def numeral : Scan Numeral := do
  let minus ← Scan.optional (char '-')
  let whole ← (do char '0'; pure ['0']) <|> run1 Char.isDigit
  let part ← Scan.optional (do char '.'; run1 Char.isDigit)
  pure ⟨minus.isSome, whole, part, ← Scan.optional exponent⟩

/-- An integer of 64 bits stays exact; every other number, and zero behind a minus, is a float. A number beyond all
finite ones has no value. -/
def Numeral.value? (x : Numeral) : Option Json :=
  let n := natOf x.whole
  let exact := x.part.isNone && x.exponent.isNone
  if exact && !x.negative && n < 0x10000000000000000 then some (.integer n)
  else if exact && x.negative && 0 < n && n ≤ 0x8000000000000000 then some (.integer (-n))
  else (Decimal.toFloat? x.negative x.whole (x.part.getD []) (x.exponent.getD 0)).map .float

end GraphClient.Json
