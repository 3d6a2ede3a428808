/-!
Outlines of documents: what of a document is read, and what is passed over (`none`).
-/
namespace GraphClient.Json

inductive Outline
  | whole
  /-- A record: the members with these names are read, or the elements at their positions. -/
  | record (parts : List (String × Outline))
  | list (items : Outline)
  | map (values : Outline)

namespace Outline

def named (names : List String) : Outline := record (names.map (·, whole))

def element (o : Outline) (position : Nat) : Outline :=
  match o with
  | record parts => (parts[position]?.map Prod.snd).getD whole
  | list items => items
  | _ => whole

def member? (o : Outline) (name : String) : Option Outline :=
  match o with
  | record parts => parts.lookup name
  | map values => some values
  | _ => some whole

end Outline
end GraphClient.Json
