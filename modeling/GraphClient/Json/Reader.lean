import GraphClient.Json.Outline
import GraphClient.Json.Passage

/-!
From JSON text to a document. Members keep their order and their repetitions; members that an outline passes over are
left out. What is read nests at most 127 containers deep.
-/
namespace GraphClient.Json

open Text Scan

def nestingLimit : Nat := 127

def bracketed {α : Type} (opening closing : Char) (element : Nat → Scan α) : Scan (List α) := do
  char opening
  blank
  let xs ← (do
    let a ← element 0
    blank
    let rest ← manyFrom 1 fun i => do
      char ','
      blank
      let a ← element i
      blank
      pure a
    pure (a :: rest)) <|> pure []
  char closing
  pure xs

/-- A document in which containers nest at most `levels` deep, as far as the outline goes. -/
def document (levels : Nat) (o : Outline) : Scan Json := do
  match ← peek with
  | some '"' => .string <$> quoted
  | some 'n' => do word "null"; pure .null
  | some 't' => do word "true"; pure (.bool true)
  | some 'f' => do word "false"; pure (.bool false)
  | some '[' => match levels with
    | 0 => failure
    | levels + 1 => .array <$> bracketed '[' ']' fun i => document levels (o.element i)
  | some '\x7b' => match levels with
    | 0 => failure
    | levels + 1 => do
      let members ← bracketed '\x7b' '\x7d' fun _ => do
        let name ← quoted
        blank; char ':'; blank
        match o.member? name with
        | some part => do pure (some (name, ← document levels part))
        | none => do passOver; pure none
      pure (.object (members.filterMap id))
  | _ => do
    match (← numeral).value? with
    | some j => pure j
    | none => failure

def ofText (o : Outline) (s : String) : Option Json :=
  Scan.whole (do blank; let j ← document nestingLimit o; blank; pure j) s

end GraphClient.Json
