import GraphClient.Failure

/-!
Calls on a state. A call that fails leaves the state as it is at that point, so a caller may go on after a
failure and see what has been done.
-/
namespace GraphClient

/-- A call on a state of type `σ`: a value or a failure, and in both cases the state after it. -/
abbrev Action (σ α : Type) := ExceptT Failure (StateM σ) α

namespace Action

variable {σ τ α : Type}

def outcome (a : Action σ α) (s : σ) : Except Failure α × σ := StateT.run a.run s

def ofOutcome (f : σ → Except Failure α × σ) : Action σ α := ExceptT.mk (StateT.mk f)

def check (x : Except Failure α) : Action σ α := ofOutcome fun s => (x, s)

def refuse (cause : Misuse) : Action σ α := throw (.argument cause)

def conform (x : Except Violation α) : Action σ α := check (x.mapError .schema)

/-- Makes a call and goes on whatever its outcome; the outcome is the value. -/
def attempt (a : Action σ α) : Action σ (Except Failure α) := ofOutcome fun s =>
  let (r, s) := a.outcome s
  (.ok r, s)

def within (get : τ → σ) (put : τ → σ → τ) (a : Action σ α) : Action τ α := ofOutcome fun t =>
  let (r, s) := a.outcome (get t)
  (r, put t s)

def onFirst (a : Action σ α) : Action (σ × τ) α := a.within Prod.fst fun t s => (s, t.2)

def onSecond (a : Action τ α) : Action (σ × τ) α := a.within Prod.snd fun t s => (t.1, s)

end Action
end GraphClient
