import GraphClient.Json.Reader
import GraphClient.Wire.Reading

/-!
Formats: how the values of a type are written as documents and read back, from a document or from its text.
-/
namespace GraphClient.Wire

structure Format (α : Type) where
  /-- What is read of a document; members that it does not mention are passed over. -/
  outline : Json.Outline
  read : Reader α
  write : α → Json

namespace Format

variable {α : Type}

def whole (read : Reader α) (write : α → Json) : Format α := ⟨.whole, read, write⟩

def named (names : List String) (read : Reader α) (write : α → Json) : Format α := ⟨.named names, read, write⟩

def ofJson (f : Format α) (j : Json) : Except Failure α := (f.read j).mapError .ofFault

def ofText (f : Format α) (s : String) : Except Failure α :=
  match Json.ofText f.outline s with
  | some j => f.ofJson j
  | none => .error .malformedJson

end Format
end GraphClient.Wire
