import GraphClient.Base64
import GraphClient.Literal.Basic
import GraphClient.Wire.Format

/-!
The wire form of a literal: its tag under `t` and its payload under `v`. Null has no payload.
-/
namespace GraphClient.Literal

open Wire

/-- The payload; bytes are Base64 text, and a float that is not finite has no number. -/
def payload : Literal → Option Json
  | null => none
  | bool b => some (.bool b)
  | int n => some (.integer n.toInt)
  | float x => some (.ofFloat x)
  | string s => some (.string s)
  | bytes bs => some (.string (String.ofList (Base64.encode bs)))
  | dateTime nanos => some (.integer nanos.toInt)

def toJson (l : Literal) : Json :=
  .object (("t", .string l.kind.text) :: (l.payload.map (("v", ·))).toList)

/-- Nanoseconds as an integer or as decimal text; the window does not count here. -/
def readNanos : Reader Int64
  | .integer n => if n < 0x8000000000000000 then .ok (.ofInt n) else .error (.instantRange n)
  | .string s =>
    match Text.readInt64 s with
    | .ok n => .ok n
    | .error why => .error (.instantText s why)
  | _ => .error (.type "nanoseconds as a string or a number")

def readBytes : Reader (List UInt8) := fun j => do
  match Base64.decode (← Wire.text j).toList with
  | some bs => .ok bs
  | none => .error .base64

def readPayload : LiteralKind → Reader Literal
  | .null => fun j => (fun _ => null) <$> Wire.nothing j
  | .bool => fun j => bool <$> Wire.bool j
  | .int => fun j => int <$> Wire.int64 j
  | .float => fun j => float <$> Wire.float j
  | .string => fun j => string <$> Wire.text j
  | .bytes => fun j => bytes <$> readBytes j
  | .dateTime => fun j => dateTime <$> readNanos j

def kinds : List (String × LiteralKind) := LiteralKind.all.map fun k => (k.text, k)

/-- The tag is read before the payload, and only null in an object may lack one. In an object the tag is a variant
without parts; in front of an array it is the tag of a record. -/
def read (place : Place) : Reader Literal
  | .object ms => do
    match Parts.occurrences ["t"] ms with
    | [] => .error (.missing "t")
    | (_, t) :: more =>
      let k ← choice place kinds t
      match more, Parts.occurrences ["v"] ms with
      | _ :: _, _ => .error (.duplicate "t")
      | [], [] => if k = .null then pure null else .error (.missing "v")
      | [], [(_, v)] => readPayload k v
      | [], (_, v) :: _ => do
        discard (readPayload k v)
        .error (.duplicate "v")
  | .array (t :: xs) => do
    let k ← tagOf place kinds t
    match xs with
    | [v] => readPayload k v
    | [] => .error (.length "a tag and a payload")
    | v :: _ => do
      discard (readPayload k v)
      .error (.length "a tag and a payload")
  | .array [] => .error (.length "a tag and a payload")
  | _ => .error (.type "a literal")

def format : Format Literal := .named ["t", "v"] (read .outside) toJson

end GraphClient.Literal
