import GraphClient.Failure
import GraphClient.Text.Integer

/-!
Why a document does not have the shape that is asked for.
-/
namespace GraphClient.Wire

inductive Fault
  | type (wanted : String)
  /-- A document of the right type that is out of range. -/
  | value (wanted : String)
  | length (wanted : String)
  | missing (field : String)
  | duplicate (field : String)
  | unknownVariant (name : String) (known : List String)
  | base64
  | instantRange (n : Int)
  | instantText (text : String) (why : Text.IntegerFault)
  | predicate (cause : Misuse)

namespace Fault

def backticked (s : String) : String := "`" ++ s ++ "`"

def alternatives : List String → String
  | [a, b] => "expected " ++ backticked a ++ " or " ++ backticked b
  | [a] => "expected " ++ backticked a
  | known => "expected one of " ++ Text.joined ", " (known.map backticked)

def message : Fault → String
  | type wanted => s!"invalid type: expected {wanted}"
  | value wanted => s!"invalid value: expected {wanted}"
  | length wanted => s!"invalid length: expected {wanted}"
  | missing field => "missing field " ++ backticked field
  | duplicate field => "duplicate field " ++ backticked field
  | unknownVariant name known => "unknown variant " ++ backticked name ++ ", " ++ alternatives known
  | base64 => "invalid base64 bytes literal"
  | instantRange n => s!"datetime literal {n} out of range"
  | instantText text why => s!"invalid datetime literal '{text}': " ++ why.message
  | predicate cause => "invalid argument: " ++ cause.message

end Fault
end Wire

namespace Failure

/-- A document of the wrong shape is filed as malformed JSON. -/
def ofFault (f : Wire.Fault) : Failure := wire .json f.message

def malformedJson : Failure := wire .json "expected a JSON document at line 1"

end Failure
end GraphClient
