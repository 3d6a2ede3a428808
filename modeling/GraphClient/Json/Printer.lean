import GraphClient.Decimal.Layout
import GraphClient.Json.Basic

/-!
JSON text without spaces: members in the order of the document, strings with the fewest escapes, floats by
their shortest digits.
-/
namespace GraphClient.Json

/-- Floats keep a digit behind the point; magnitudes from `10 ^ -5` to below `10 ^ 16` are positional. -/
def floatLayout : Decimal.Layout := ⟨-5, 15, true, true⟩

def hexDigit (n : Nat) : Char := if n < 10 then Char.ofNat (n + 48) else Char.ofNat (n + 87)

/-- Only quotes, backslashes and controls below space are escaped, with a short escape where there is one. -/
def escape (c : Char) : List Char :=
  if c = '"' then ['\\', '"']
  else if c = '\\' then ['\\', '\\']
  else if c = '\n' then ['\\', 'n']
  else if c = '\r' then ['\\', 'r']
  else if c = '\t' then ['\\', 't']
  else if c.toNat = 8 then ['\\', 'b']
  else if c.toNat = 12 then ['\\', 'f']
  else if c.toNat < 32 then ['\\', 'u', '0', '0', hexDigit (c.toNat / 16), hexDigit (c.toNat % 16)]
  else [c]

def quote (s : String) : String := String.ofList ('"' :: s.toList.flatMap escape ++ ['"'])

mutual

def text : Json → String
  | .null => "null"
  | .bool b => if b then "true" else "false"
  | .integer n => toString n
  | .float x => if x.isFinite then floatLayout.floatText x else "null"
  | .string s => quote s
  | .array xs => "[" ++ ",".intercalate (itemTexts xs) ++ "]"
  | .object ms => "\x7b" ++ ",".intercalate (memberTexts ms) ++ "\x7d"

def itemTexts : List Json → List String
  | [] => []
  | x :: xs => text x :: itemTexts xs

def memberTexts : List (String × Json) → List String
  | [] => []
  | (n, x) :: ms => (quote n ++ ":" ++ text x) :: memberTexts ms

end

end GraphClient.Json
