import GraphClient.Failure
import GraphClient.Json.Basic

/-!
Literals and the application's scalars they are made from. `encode` refuses what no literal holds: integers
beyond 64 bits, floats that are not finite, and date-times without an offset or outside the window.
-/
namespace GraphClient

/-- A value with its kind. Date-times count nanoseconds since 1970 in UTC. -/
inductive Literal
  | null
  | bool (b : Bool)
  | int (n : Int64)
  | float (x : Float)
  | string (s : String)
  | bytes (bs : List UInt8)
  | dateTime (nanos : Int64)
deriving BEq

namespace Literal

def kind : Literal → LiteralKind
  | null => .null
  | bool _ => .bool
  | int _ => .int
  | float _ => .float
  | string _ => .string
  | bytes _ => .bytes
  | dateTime _ => .dateTime

def isNull : Literal → Bool
  | null => true
  | _ => false

def asDateTime : Literal → Option DateTime
  | dateTime nanos => some (.ofInstant nanos.toInt)
  | _ => none

end Literal

/-- A value of the application. Integers keep their full width, so that one out of range can be named. -/
inductive Scalar
  | null
  | bool (b : Bool)
  | int (n : Int)
  | float (x : Float)
  | string (s : String)
  | bytes (bs : List UInt8)
  | zoned (t : ZonedTime)
  | naive (t : DateTime)

namespace Scalar

def ofJson : Json → Except Failure Scalar
  | .null => .ok null
  | .bool b => .ok (bool b)
  | .integer n => .ok (int n)
  | .float x => .ok (float x)
  | .string s => .ok (string s)
  | .array _ => .error (.argument (.notScalar "array"))
  | .object _ => .error (.argument (.notScalar "object"))

def windowStart : Int := DateTime.instant ⟨⟨1900, 1, 1⟩, 0, 0, 0, 0⟩

/-- The first instant behind the window. -/
def windowEnd : Int := DateTime.instant ⟨⟨2100, 1, 1⟩, 0, 0, 0, 0⟩

def fitsInt64 (n : Int) : Bool := -0x8000000000000000 ≤ n && n < 0x8000000000000000

/-- A date-time is taken to UTC before the window is checked. -/
def encodeZoned (t : ZonedTime) : Except Failure Literal :=
  match t.utc? with
  | none => .error .yearRange
  | some u =>
    if t.instant < windowStart ∨ windowEnd ≤ t.instant then .error (.argument (.outsideWindow u))
    else if fitsInt64 t.instant then .ok (.dateTime (.ofInt t.instant))
    else .error (.argument (.beyondNanos u))

def encode : Scalar → Except Failure Literal
  | null => .ok .null
  | bool b => .ok (.bool b)
  | int n => if fitsInt64 n then .ok (.int (.ofInt n)) else .error (.argument (.integerRange n))
  | float x => if x.isFinite then .ok (.float x) else .error (.argument (.notFinite x))
  | string s => .ok (.string s)
  | bytes bs => .ok (.bytes bs)
  | zoned t => encodeZoned t
  | naive t => .error (.argument (.noOffset t))

end Scalar
end GraphClient
