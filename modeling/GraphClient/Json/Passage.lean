import GraphClient.Json.Lexeme

/-!
Passing over a value of which nothing is read. It has to have the right form; its numbers and texts need no values,
and its containers nest as deep as they like.
-/
namespace GraphClient.Json

open Text Scan

inductive Frame
  | items | members

/-- The containers that are still open, the innermost first, and whether a value comes next or what is behind one. -/
structure Passage where
  frames : List Frame
  awaits : Bool

namespace Passage

def name : Scan Unit := do
  skipQuoted
  blank
  char ':'
  blank

def enter (frames : List Frame) : Scan Passage := do
  match ← peek with
  | some '"' => do skipQuoted; pure ⟨frames, false⟩
  | some 'n' => do word "null"; pure ⟨frames, false⟩
  | some 't' => do word "true"; pure ⟨frames, false⟩
  | some 'f' => do word "false"; pure ⟨frames, false⟩
  | some '[' => do
    char '['
    blank
    (do char ']'; pure ⟨frames, false⟩) <|> pure ⟨.items :: frames, true⟩
  | some '\x7b' => do
    char '\x7b'
    blank
    (do char '\x7d'; pure ⟨frames, false⟩) <|> (do name; pure ⟨.members :: frames, true⟩)
  | _ => do discard numeral; pure ⟨frames, false⟩

def leave (inner : Frame) (outer : List Frame) : Scan Passage := do
  blank
  match inner, ← one fun _ => true with
  | .items, ']' | .members, '\x7d' => pure ⟨outer, false⟩
  | .items, ',' => do blank; pure ⟨.items :: outer, true⟩
  | .members, ',' => do blank; name; pure ⟨.members :: outer, true⟩
  | _, _ => failure

/-- Goes on until nothing is open. Every step takes a character, so there are no more steps than characters. -/
def finish : (bound : List Char) → Passage → List Char → Option (Unit × List Char)
  | _, ⟨[], false⟩, s => some ((), s)
  | [], _, _ => none
  | _ :: bound, ⟨frames, true⟩, s =>
    match enter frames s with
    | some (p, rest) => finish bound p rest
    | none => none
  | _ :: bound, ⟨inner :: outer, false⟩, s =>
    match leave inner outer s with
    | some (p, rest) => finish bound p rest
    | none => none

end Passage

def passOver : Scan Unit := fun s => Passage.finish s ⟨[], true⟩ s

end GraphClient.Json
