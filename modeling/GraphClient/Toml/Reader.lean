import GraphClient.Toml.Scalar

/-!
From TOML text to a document.
-/
namespace GraphClient.Toml

open Text Scan

def comment : Scan Unit := do
  char '#'
  discard (run isPlain)

def gap : Scan Unit :=
  discard (many (discard (run1 fun c => c == ' ' || c == '\t') <|> (do discard (Scan.optional comment); newline)))

/-- Gives values to the keys of an inline table, which nothing extends afterwards. -/
def inline (assignments : List ((List String × String) × Value)) : Option Value := do
  let ms ← assignments.foldlM (fun ms ((path, k), v) => Members.assign k v path ms) []
  pure (.table (Node.toMembers ms))

/-- A value in which containers nest at most `levels` deep. Inline tables stay on one line and end without a comma. -/
def value (levels : Nat) : Scan Value := do
  match ← peek with
  | some '[' => match levels with
    | 0 => failure
    | levels + 1 => do
      char '['
      let items ← (do
        let items ← sepBy1 (do gap; let v ← value levels; gap; pure v) (char ',')
        discard (Scan.optional (char ','))
        pure items) <|> pure []
      gap
      char ']'
      pure (.array items)
  | some '\x7b' => match levels with
    | 0 => failure
    | levels + 1 => do
      char '\x7b'
      let assignments ← sepBy1 (do
        let k ← key
        char '='
        blanks
        let v ← value levels
        blanks
        pure (k, v)) (char ',') <|> pure []
      blanks
      char '\x7d'
      match inline assignments with
      | some v => pure v
      | none => failure
  | _ => scalar

inductive Statement
  | assign (path : List String) (key : String) (v : Value)
  | table (path : List String) (key : String)
  | row (path : List String) (key : String)
  | nothing

def header : Scan Statement := do
  char '['
  let (path, k) ← key
  char ']'
  pure (.table path k)

def rowHeader : Scan Statement := do
  word "[["
  let (path, k) ← key
  word "]]"
  pure (.row path k)

def assignment : Scan Statement := do
  let (path, k) ← key
  char '='
  blanks
  pure (.assign path k (← value nestingLimit))

def line : Scan Statement := do
  blanks
  let s ← rowHeader <|> header <|> assignment <|> pure .nothing
  blanks
  discard (Scan.optional comment)
  pure s

/-- The lines of a document; a byte order mark in front does not count. -/
def lines : Scan (List Statement) := do
  discard (Scan.optional (char '\ufeff'))
  sepBy1 line newline

/-- A document that is being put together, and the path of the table that was opened last. -/
structure Assembly where
  members : Members
  opened : List String

def Assembly.take (a : Assembly) : Statement → Option Assembly
  | .assign path k v => do pure { a with members := ← a.members.within (Members.assign k v path) a.opened }
  | .table path k => do pure ⟨← a.members.within (Members.openTable k) path, path ++ [k]⟩
  | .row path k => do pure ⟨← a.members.within (Members.openRow k) path, path ++ [k]⟩
  | .nothing => some a

def ofText (s : String) : Option Value := do
  let statements ← Scan.whole lines s
  let a ← statements.foldlM Assembly.take ⟨[], []⟩
  pure (.table (Node.toMembers a.members))

end GraphClient.Toml
