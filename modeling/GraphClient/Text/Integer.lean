/-!
Decimal integers as text. Reading names the first thing that is wrong, from left to right.
-/
namespace GraphClient.Text

inductive IntegerFault
  | empty | badDigit | tooLarge | tooSmall
deriving DecidableEq, Repr

namespace IntegerFault

def message : IntegerFault → String
  | .empty => "cannot parse integer from empty string"
  | .badDigit => "invalid digit found in string"
  | .tooLarge => "number too large to fit in target type"
  | .tooSmall => "number too small to fit in target type"

end IntegerFault

/-- The value of an ASCII decimal digit; no other script's digits count. -/
def digit? (c : Char) : Option Nat :=
  if '0' ≤ c ∧ c ≤ '9' then some (c.toNat - '0'.toNat) else none

def natOf (ds : List Char) : Nat := ds.foldl (fun n c => n * 10 + (digit? c).getD 0) 0

def hexValue? (c : Char) : Option Nat :=
  if '0' ≤ c ∧ c ≤ '9' then some (c.toNat - 48)
  else if 'a' ≤ c ∧ c ≤ 'f' then some (c.toNat - 87)
  else if 'A' ≤ c ∧ c ≤ 'F' then some (c.toNat - 55) else none

def hex? (cs : List Char) : Option Nat :=
  cs.foldlM (fun n c => (hexValue? c).map (n * 16 + ·)) 0

/-- Appends one digit to a bounded number; at one place a bad digit counts before a number out of bounds. -/
def appendDigit (negative : Bool) (least greatest : Int) (n : Int) (c : Char) : Except IntegerFault Int :=
  match digit? c with
  | none => .error .badDigit
  | some d =>
    if negative then
      if n * 10 - d < least then .error .tooSmall else .ok (n * 10 - d)
    else if greatest < n * 10 + d then .error .tooLarge else .ok (n * 10 + d)

/-- Reads an optional sign and at least one digit; a sign alone is a bad digit. -/
def readInteger (least greatest : Int) (s : String) : Except IntegerFault Int :=
  match s.toList with
  | [] => .error .empty
  | ['+'] | ['-'] => .error .badDigit
  | '+' :: ds => ds.foldlM (appendDigit false least greatest) 0
  | '-' :: ds => ds.foldlM (appendDigit true least greatest) 0
  | ds => ds.foldlM (appendDigit false least greatest) 0

def readInt64 (s : String) : Except IntegerFault Int64 :=
  (readInteger (-0x8000000000000000) 0x7FFFFFFFFFFFFFFF s).map Int64.ofInt

def padded (width : Nat) (n : Nat) : String :=
  let ds := toString n
  "".pushn '0' (width - ds.length) ++ ds

end GraphClient.Text
