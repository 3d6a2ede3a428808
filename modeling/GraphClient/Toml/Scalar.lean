import GraphClient.Calendar
import GraphClient.Decimal.Written
import GraphClient.Text.Scan
import GraphClient.Toml.Basic

/-!
Keys, strings, numbers and date-times of TOML 1.0.
-/
namespace GraphClient.Toml

open Text Scan

def isPlain (c : Char) : Bool := c == '\t' || (32 ≤ c.toNat && c.toNat != 127)

def blanks : Scan Unit := discard (run fun c => c == ' ' || c == '\t')

def newline : Scan Unit := char '\n' <|> word "\r\n"

/-- The character with this number, unless it is half a surrogate pair or beyond the last. -/
def scalarValue? (n : Nat) : Option Char := if n.isValidChar then some (Char.ofNat n) else none

def exactly (p : Char → Bool) : Nat → Scan (List Char)
  | 0 => pure []
  | n + 1 => do
    let c ← one p
    pure (c :: (← exactly p n))

def numbered (digits : Nat) : Scan Char := do
  let ds ← exactly (fun c => (hexValue? c).isSome) digits
  match (hex? ds).bind scalarValue? with
  | some c => pure c
  | none => failure

def escaped : Scan Char := do
  char '\\'
  match ← one fun _ => true with
  | 'b' => pure '\x08'
  | 'f' => pure '\x0c'
  | 'n' => pure '\n'
  | 'r' => pure '\r'
  | 't' => pure '\t'
  | '"' => pure '"'
  | '\\' => pure '\\'
  | 'u' => numbered 4
  | 'U' => numbered 8
  | _ => failure

def basicString : Scan String := do
  char '"'
  let cs ← many (escaped <|> one fun c => isPlain c && c != '"' && c != '\\')
  char '"'
  pure (String.ofList cs)

def literalString : Scan String := do
  char '\''
  let cs ← run fun c => isPlain c && c != '\''
  char '\''
  pure (String.ofList cs)

def innerQuotes (quote : Char) : Scan (List Char) := do
  let qs ← run1 (· == quote)
  if qs.length < 3 then pure qs else failure

/-- The last quotes of a text of several lines; up to two of them belong to the text. -/
def closingQuotes (quote : Char) : Scan (List Char) := do
  let qs ← run (· == quote)
  if 3 ≤ qs.length ∧ qs.length ≤ 5 then pure (qs.drop 3) else failure

/-- A text of several lines between three quotes each; a line break right behind the first three does not count. -/
def severalLines (quote : Char) (piece : Scan (List Char)) : Scan String := do
  discard (exactly (· == quote) 3)
  discard (Scan.optional newline)
  let pieces ← many (piece <|> (do newline; pure ['\n']) <|> innerQuotes quote)
  pure (String.ofList (pieces.flatten ++ (← closingQuotes quote)))

/-- A backslash at the end of a line takes away the line break and the white space behind it. -/
def continued : Scan (List Char) := do
  char '\\'
  blanks
  newline
  discard (many (discard (one fun c => c == ' ' || c == '\t') <|> newline))
  pure []

def basicLines : Scan String :=
  severalLines '"' (run1 (fun c => isPlain c && c != '"' && c != '\\') <|> continued <|> (do pure [← escaped]))

def literalLines : Scan String := severalLines '\'' (run1 fun c => isPlain c && c != '\'')

def string : Scan String := basicLines <|> basicString <|> literalLines <|> literalString

def isBareKeyChar (c : Char) : Bool := c.isAlphanum || c == '-' || c == '_'

def simpleKey : Scan String := basicString <|> literalString <|> String.ofList <$> run1 isBareKeyChar

/-- How deep values may nest, and how many parts a key may have. -/
def nestingLimit : Nat := 79

def key : Scan (List String × String) := do
  let parts ← sepBy1 (do blanks; let k ← simpleKey; blanks; pure k) (char '.')
  match parts.reverse with
  | last :: path => if parts.length ≤ nestingLimit then pure (path.reverse, last) else failure
  | [] => failure

def digits (p : Char → Bool) : Scan (List Char) := do
  let d ← one p
  let ds ← many ((do char '_'; one p) <|> one p)
  pure (d :: ds)

def sign : Scan (Option Char) := Scan.optional (one fun c => c == '+' || c == '-')

def wholePart : Scan (List Char) := do
  match ← peek with
  | some '0' => do char '0'; pure ['0']
  | _ => digits Char.isDigit

def fitted (n : Int) : Scan Value :=
  if -0x8000000000000000 ≤ n ∧ n < 0x8000000000000000 then pure (.integer n) else failure

def based (letter : Char) (base : Nat) : Scan Value := do
  char '0'
  char letter
  let ds ← digits fun c => (hexValue? c).any (· < base)
  fitted (ds.foldl (fun n c => n * base + (hexValue? c).getD 0) 0)

def decimal : Scan Value := do
  let s ← sign
  let n := natOf (← wholePart)
  fitted (if s == some '-' then -(n : Int) else n)

def integer : Scan Value := based 'x' 16 <|> based 'o' 8 <|> based 'b' 2 <|> decimal

def exponent : Scan Int := do
  discard (one fun c => c == 'e' || c == 'E')
  let s ← sign
  let n := natOf (← digits Char.isDigit)
  pure (if s == some '-' then -(n : Int) else n)

/-- A number with a point or an exponent; one that is too large is refused, unless it is negative. -/
def finiteFloat : Scan Value := do
  let s ← sign
  let whole ← wholePart
  let (part, e) ← (do pure ([], ← exponent)) <|> (do
    char '.'
    let part ← digits Char.isDigit
    pure (part, (← Scan.optional exponent).getD 0))
  let x := Decimal.nearest (natOf (whole ++ part)) (e - part.length)
  if s == some '-' then pure (.float (-x)) else if x.isFinite then pure (.float x) else failure

def namedFloat : Scan Value := do
  let s ← sign
  let x ← (do word "inf"; pure (1 / 0)) <|> (do word "nan"; pure (0 / 0))
  pure (.float (if s == some '-' then -x else x))

def bounded (width least greatest : Nat) : Scan Nat := do
  let n := natOf (← exactly Char.isDigit width)
  if least ≤ n ∧ n ≤ greatest then pure n else failure

def date : Scan Unit := do
  let year ← bounded 4 0 9999
  char '-'
  let month ← bounded 2 1 12
  char '-'
  discard (bounded 2 1 (Date.daysIn year month))

/-- A time of day; a leap second counts. -/
def time : Scan Unit := do
  discard (bounded 2 0 23)
  char ':'
  discard (bounded 2 0 59)
  char ':'
  discard (bounded 2 0 60)
  discard (Scan.optional do char '.'; run1 Char.isDigit)

def offset : Scan Unit :=
  discard (one fun c => c == 'Z' || c == 'z') <|> do
    discard (one fun c => c == '+' || c == '-')
    discard (bounded 2 0 23)
    char ':'
    discard (bounded 2 0 59)

def taken (p : Scan Unit) : Scan String := fun s =>
  (p s).map fun ((), rest) => (String.ofList (s.take (s.length - rest.length)), rest)

def dateTime : Scan Value := do
  let behind : Scan Unit := do
    discard (one fun c => c == 'T' || c == 't' || c == ' ')
    time
    discard (Scan.optional offset)
  .dateTime <$> taken ((do date; discard (Scan.optional behind)) <|> time)

def scalar : Scan Value :=
  .string <$> string <|> (do word "true"; pure (.bool true)) <|> (do word "false"; pure (.bool false)) <|>
    dateTime <|> finiteFloat <|> namedFloat <|> integer

end GraphClient.Toml
