import GraphClient.Engine.Basic
import GraphClient.Json.Printer
import GraphClient.Wire.Reading

/-!
Answers to queries, as a caller sees them.
-/
namespace GraphClient

structure Answer where
  rows : List Props
  requestId : Option String
  features : Option (List Value)
  plan : Option Value
  planHash : Option String

namespace Answer

/-- An engine that names no request is taken to answer the one that was asked. -/
def ofEnvelope (e : Envelope) (requested : Option String) : Answer :=
  ⟨e.rows, e.requestId <|> requested, e.features, e.plan, e.planHash⟩

def planNodes (a : Answer) : Except Failure (List Json) :=
  match a.plan.map Value.json with
  | none | some .null => .ok []
  | some (.array nodes) => .ok nodes
  | some (.object ms) => .ok [.object ms]
  | some other => .error (.wire .json ("plan must be an object or list when present, got " ++ other.text))

def rowsAs {α : Type} (a : Answer) (read : Wire.Reader α) : Except Failure (List α) :=
  a.rows.mapM fun row => (read row.toJson).mapError .ofFault

end Answer
end GraphClient
