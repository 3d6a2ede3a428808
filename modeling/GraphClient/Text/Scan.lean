/-!
Readers over a list of characters: each takes what it recognises off the front or fails.
-/
namespace GraphClient.Text

/-- Takes a value off the front of the text, or fails and takes nothing. -/
abbrev Scan := StateT (List Char) Option

namespace Scan

variable {α : Type}

def one (p : Char → Bool) : Scan Char
  | c :: rest => if p c then some (c, rest) else none
  | [] => none

def char (c : Char) : Scan Unit := discard (one (· == c))

def peek : Scan (Option Char) := fun s => some (s.head?, s)

def run (p : Char → Bool) : Scan (List Char) := fun s => some (s.span p)

def run1 (p : Char → Bool) : Scan (List Char) := do
  let cs ← run p
  if cs.isEmpty then failure else pure cs

def word (w : String) : Scan Unit := w.toList.forM char

/-- Takes values as long as it can and puts each before those found already. `p` is told how many there are, and a
reader that takes at least one character stops before the bound is used up. -/
def gather (p : Nat → Scan α) : (bound : List Char) → Nat → List α → List Char → List α × List Char
  | [], _, found, s => (found, s)
  | _ :: bound, i, found, s =>
    match p i s with
    | some (a, rest) => gather p bound (i + 1) (a :: found) rest
    | none => (found, s)

def manyFrom (first : Nat) (p : Nat → Scan α) : Scan (List α) := fun s =>
  let (found, rest) := gather p s first [] s
  some (found.reverse, rest)

def many (p : Scan α) : Scan (List α) := manyFrom 0 fun _ => p

def sepBy1 (p : Scan α) (sep : Scan Unit) : Scan (List α) := do
  let a ← p
  let rest ← many (do sep; p)
  pure (a :: rest)

def optional (p : Scan α) : Scan (Option α) := some <$> p <|> pure none

def whole (p : Scan α) (s : String) : Option α := do
  let (a, rest) ← p s.toList
  if rest.isEmpty then some a else none

end Scan
end GraphClient.Text
