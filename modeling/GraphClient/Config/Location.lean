import GraphClient.Config.Reader

/-!
Where a configuration is read from: the place that the caller names, or else the one that the environment names, or
else the platform's own.
-/
namespace GraphClient.Config

inductive Content
  | missing
  | directory
  | file (bytes : List UInt8)

inductive Location
  | explicit | environment | platform
deriving DecidableEq, Repr

/-- Reads what lies at a place. A place where nothing lies says nothing; bytes are UTF-8. -/
def ofContent : Content → Except ConfigFault Config
  | .missing => .ok .empty
  | .directory => .error .unreadable
  | .file bytes =>
    match String.fromUTF8? ⟨bytes.toArray⟩ with
    | some s => ofText true s
    | none => .error .unreadable

/-- The place that counts is the first that is named, whatever lies there. -/
def resolve (explicit environment : Option Content) (platform : Content) : Location × Content :=
  match explicit, environment with
  | some c, _ => (.explicit, c)
  | none, some c => (.environment, c)
  | none, none => (.platform, platform)

def load (explicit environment : Option Content) (platform : Content) : Except ConfigFault (Location × Config) := do
  let (location, content) := resolve explicit environment platform
  pure (location, ← ofContent content)

end GraphClient.Config
