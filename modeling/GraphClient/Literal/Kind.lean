/-!
The seven kinds of literals and their tags.
-/
namespace GraphClient

inductive LiteralKind
  | null | bool | int | float | string | bytes | dateTime
deriving DecidableEq, Repr

namespace LiteralKind

/-- Every kind, in the order in which positions count. -/
def all : List LiteralKind := [null, bool, int, float, string, bytes, dateTime]

def text : LiteralKind → String
  | null => "Null"
  | bool => "Bool"
  | int => "Int"
  | float => "Float"
  | string => "String"
  | bytes => "Bytes"
  | dateTime => "DateTime"

end LiteralKind
end GraphClient
