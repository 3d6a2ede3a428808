import GraphClient.Proofs.Mirroring
import GraphClient.Query.Stream

/-!
The course of a stream over any cursor: rows as the cursor delivers them, then one stop, then nothing. Every use of a
stream keeps it on course.
-/
namespace GraphClient

namespace Engine

inductive CursorCall
  | next (cursor : Cursor) (outcome : Except Failure (Option Props))
  | close (cursor : Cursor) (outcome : Except Failure Unit)

namespace CursorCall

def cursor : CursorCall → Cursor
  | next c _ => c
  | close c _ => c

def isClose : CursorCall → Bool
  | next _ _ => false
  | close _ _ => true

def pulled? : CursorCall → Option (Except Failure (Option Props))
  | next _ outcome => some outcome
  | close _ _ => none

end CursorCall

def pulls (calls : List CursorCall) : List (Except Failure (Option Props)) := calls.filterMap CursorCall.pulled?

def row? : Except Failure (Option Props) → Option Props
  | .ok row => row
  | .error _ => none

structure Attended (σ : Type) where
  engine : σ
  calls : List CursorCall

namespace Attended

variable {σ : Type} [Engine σ]

instance : Engine (Attended σ) where
  answer call := (Engine.answer call).within Attended.engine fun a engine => { a with engine }
  nextRow c := .ofOutcome fun a =>
    let (outcome, engine) := (Engine.nextRow c).outcome a.engine
    (outcome, ⟨engine, a.calls ++ [.next c outcome]⟩)
  closeCursor c := .ofOutcome fun a =>
    let (outcome, engine) := (Engine.closeCursor c).outcome a.engine
    (outcome, ⟨engine, a.calls ++ [.close c outcome]⟩)

theorem nextRow_outcome {c : Cursor} {e e' : σ} {outcome : Except Failure (Option Props)} (calls : List CursorCall)
    (h : (Engine.nextRow c).outcome e = (outcome, e')) :
    (Engine.nextRow c).outcome (⟨e, calls⟩ : Attended σ) = (outcome, ⟨e', calls ++ [.next c outcome]⟩) :=
  congrArg (fun r => (r.1, (⟨r.2, calls ++ [.next c r.1]⟩ : Attended σ))) h

theorem closeCursor_outcome {c : Cursor} {e e' : σ} {outcome : Except Failure Unit} (calls : List CursorCall)
    (h : (Engine.closeCursor c).outcome e = (outcome, e')) :
    (Engine.closeCursor c).outcome (⟨e, calls⟩ : Attended σ) = (outcome, ⟨e', calls ++ [.close c outcome]⟩) :=
  congrArg (fun r => (r.1, (⟨r.2, calls ++ [.close c r.1]⟩ : Attended σ))) h

end Attended

section
variable {σ : Type} [Engine σ]

def advanced (c : Cursor) (e : σ) : Nat → σ
  | 0 => e
  | n + 1 => ((nextRow c).outcome (advanced c e n)).2

def delivery (c : Cursor) (e : σ) (n : Nat) : Except Failure (Option Props) := ((nextRow c).outcome (advanced c e n)).1

def deliveries (c : Cursor) (e : σ) (n : Nat) : List (Except Failure (Option Props)) :=
  (List.range n).map (delivery c e)

theorem deliveries_succ (c : Cursor) (e : σ) (n : Nat) :
    deliveries c e (n + 1) = deliveries c e n ++ [delivery c e n] := by
  rw [deliveries, List.range_succ, List.map_append]
  rfl

end
end Engine

namespace RowStream

open Engine (Attended Cursor CursorCall pulls)

inductive Use
  | next
  | close

inductive Item
  | pulled (outcome : Except Failure (Option Props))
  | closed (outcome : Except Failure Unit)

namespace Item

def row (r : Props) : Item := pulled (.ok (some r))

def row? : Item → Option Props
  | pulled outcome => Engine.row? outcome
  | closed _ => none

def failure? : Item → Option Failure
  | pulled (.error f) => some f
  | _ => none

def Quiet : Item → Prop
  | pulled outcome => outcome = .ok none
  | closed outcome => outcome = .ok ()

theorem Quiet.failure? {i : Item} (h : i.Quiet) : i.failure? = none := by
  cases i with
  | pulled outcome => cases h; rfl
  | closed _ => rfl

theorem Quiet.row? {i : Item} (h : i.Quiet) : i.row? = none := by
  cases i with
  | pulled outcome => cases h; rfl
  | closed _ => rfl

end Item

section
variable {τ : Type} [Engine τ]

def Use.play : Use → τ × RowStream → Item × (τ × RowStream)
  | next, s => let (outcome, s) := RowStream.next.outcome s; (.pulled outcome, s)
  | close, s => let (outcome, s) := RowStream.close.outcome s; (.closed outcome, s)

def play : List Use → τ × RowStream → List Item × (τ × RowStream)
  | [], s => ([], s)
  | u :: us, s =>
    let (item, s) := u.play s
    let (items, s) := play us s
    (item :: items, s)

theorem close_released (t : τ) (requestId : Option String) :
    close.outcome (t, ⟨none, requestId⟩) = (.ok (), (t, ⟨none, requestId⟩)) := rfl

theorem close_open (t : τ) (c : Cursor) (requestId : Option String) :
    close.outcome (t, ⟨some c, requestId⟩) =
      (((Engine.closeCursor c).outcome t).1, (((Engine.closeCursor c).outcome t).2, ⟨none, requestId⟩)) := rfl

theorem next_released (t : τ) (requestId : Option String) :
    next.outcome (t, ⟨none, requestId⟩) = (.ok none, (t, ⟨none, requestId⟩)) := rfl

theorem next_row {t t' : τ} {c : Cursor} {row : Props} (requestId : Option String)
    (pulled : (Engine.nextRow c).outcome t = (.ok (some row), t')) :
    next.outcome (t, ⟨some c, requestId⟩) = (.ok (some row), (t', ⟨some c, requestId⟩)) := by
  simp only [next, Action.outcome_bind, Action.outcome_get, Action.outcome_attempt, Action.outcome_onFirst, pulled,
    Action.outcome_pure]

/-- At the end of the rows a failure to close is the stream's. -/
theorem next_end {t t' : τ} {c : Cursor} (requestId : Option String)
    (pulled : (Engine.nextRow c).outcome t = (.ok none, t')) :
    next.outcome (t, ⟨some c, requestId⟩) =
      ((fun _ => none) <$> ((Engine.closeCursor c).outcome t').1,
        (((Engine.closeCursor c).outcome t').2, ⟨none, requestId⟩)) := by
  simp only [next, Action.outcome_bind, Action.outcome_get, Action.outcome_attempt, Action.outcome_onFirst, pulled,
    close_open, Action.outcome_pure]
  cases ((Engine.closeCursor c).outcome t').1 <;> rfl

/-- A failure to deliver is the stream's, however closing ends. -/
theorem next_failure {t t' : τ} {c : Cursor} {f : Failure} (requestId : Option String)
    (pulled : (Engine.nextRow c).outcome t = (.error f, t')) :
    next.outcome (t, ⟨some c, requestId⟩) =
      (.error f, (((Engine.closeCursor c).outcome t').2, ⟨none, requestId⟩)) := by
  simp only [next, Action.outcome_bind, Action.outcome_get, Action.outcome_attempt, Action.outcome_onFirst, pulled,
    Action.outcome_discard, close_open, map_ok, Action.outcome_throw]

end

/-- A use that stops a stream, and what it asks of the cursor. -/
inductive Stop (c : Cursor) : Item → List CursorCall → Prop
  | closed {r : Except Failure Unit} : Stop c (.closed r) [.close c r]
  | ended : Stop c (.pulled (.ok none)) [.next c (.ok none), .close c (.ok ())]
  | endFailed {f : Failure} : Stop c (.pulled (.error f)) [.next c (.ok none), .close c (.error f)]
  | failed {f : Failure} {r : Except Failure Unit} : Stop c (.pulled (.error f)) [.next c (.error f), .close c r]

def rowCalls (c : Cursor) (rows : List Props) : List CursorCall := rows.map fun r => .next c (.ok (some r))

/-- The course of a stream: rows while it holds its cursor, and behind its stop neither rows nor failures. -/
inductive Course (c : Cursor) : List Item → List CursorCall → Option Cursor → Prop
  | running (rows : List Props) : Course c (rows.map .row) (rowCalls c rows) (some c)
  | stopped (rows : List Props) {stop : Item} {calls : List CursorCall} {rest : List Item} : Stop c stop calls →
      (∀ i ∈ rest, i.Quiet) →
      Course c (rows.map .row ++ stop :: rest) (rowCalls c rows ++ calls) none

section
variable {σ : Type} [Engine σ] {c : Cursor} {e : σ} {items : List Item}

/-- Where a stream stands once it has given some items: its course so far, and the cursor as far as it was pulled. -/
structure Stands (c : Cursor) (e : σ) (items : List Item) (s : Attended σ × RowStream) : Prop where
  course : Course c items s.1.calls s.2.cursor
  delivered : pulls s.1.calls = Engine.deliveries c e (pulls s.1.calls).length
  position : s.2.cursor = some c → s.1.engine = Engine.advanced c e (pulls s.1.calls).length

theorem stands_opened (c : Cursor) (e : σ) (requestId : Option String) :
    Stands c e [] (⟨e, []⟩, ⟨some c, requestId⟩) where
  course := .running []
  delivered := rfl
  position _ := rfl

theorem delivered_pull {calls after : List CursorCall} (silent : pulls after = [])
    (delivered : pulls calls = Engine.deliveries c e (pulls calls).length) :
    let grown := calls ++ .next c (Engine.delivery c e (pulls calls).length) :: after
    (pulls grown).length = (pulls calls).length + 1 ∧ pulls grown = Engine.deliveries c e (pulls grown).length := by
  intro grown
  have split : pulls grown = pulls calls ++ [Engine.delivery c e (pulls calls).length] := by
    rw [pulls, List.filterMap_append, List.filterMap_cons, ← pulls, ← pulls, silent]
    rfl
  have longer : (pulls grown).length = (pulls calls).length + 1 := by
    rw [split, List.length_append, List.length_singleton]
  refine ⟨longer, ?_⟩
  rw [longer, Engine.deliveries_succ, split, ← delivered]

theorem use_released (u : Use) (a : Attended σ) (requestId : Option String) :
    (u.play (a, ⟨none, requestId⟩)).1.Quiet ∧ (u.play (a, ⟨none, requestId⟩)).2 = (a, ⟨none, requestId⟩) := by
  cases u with
  | next =>
      rw [Use.play, next_released]
      exact ⟨rfl, rfl⟩
  | close =>
      rw [Use.play, close_released]
      exact ⟨rfl, rfl⟩

theorem stands_stop {rows : List Props} {stop : Item} {more : List CursorCall} (engine : σ)
    (requestId : Option String) (stops : Stop c stop more)
    (delivered : pulls (rowCalls c rows ++ more) = Engine.deliveries c e (pulls (rowCalls c rows ++ more)).length) :
    Stands c e (rows.map .row ++ [stop]) (⟨engine, rowCalls c rows ++ more⟩, ⟨none, requestId⟩) where
  course := .stopped rows stops (by simp)
  delivered := delivered
  position := nofun

section
variable {rows : List Props} {engine : σ} {requestId : Option String}

theorem stands_close (h : Stands c e (rows.map .row) (⟨engine, rowCalls c rows⟩, ⟨some c, requestId⟩)) :
    let done := Use.close.play ((⟨engine, rowCalls c rows⟩ : Attended σ), ⟨some c, requestId⟩)
    Stands c e (rows.map .row ++ [done.1]) done.2 := by
  intro done
  cases closing : (Engine.closeCursor c).outcome engine with
  | mk r engine' =>
      have played : done =
          (.closed r, (⟨engine', rowCalls c rows ++ [.close c r]⟩, ⟨none, requestId⟩)) := by
        simp only [done, Use.play, close_open, Attended.closeCursor_outcome _ closing]
      have same : pulls (rowCalls c rows ++ [.close c r]) = pulls (rowCalls c rows) := by
        rw [pulls, List.filterMap_append]
        exact List.append_nil _
      rw [played]
      refine stands_stop engine' requestId .closed ?_
      rw [same]
      exact h.delivered

theorem stands_next (h : Stands c e (rows.map .row) (⟨engine, rowCalls c rows⟩, ⟨some c, requestId⟩)) :
    let done := Use.next.play ((⟨engine, rowCalls c rows⟩ : Attended σ), ⟨some c, requestId⟩)
    Stands c e (rows.map .row ++ [done.1]) done.2 := by
  intro done
  generalize count : (pulls (rowCalls c rows)).length = n
  have here : engine = Engine.advanced c e n := count ▸ h.position rfl
  have grows (after : List CursorCall) (silent : pulls after = []) := count ▸ delivered_pull silent h.delivered
  have pull := Attended.nextRow_outcome (rowCalls c rows)
    (show (Engine.nextRow c).outcome engine = (Engine.delivery c e n, Engine.advanced c e (n + 1)) by rw [here]; rfl)
  -- behind the last row and behind a failure the cursor is let go
  cases closing : (Engine.closeCursor c).outcome (Engine.advanced c e (n + 1)) with
  | mk r engine' =>
      have letGo (d : Except Failure (Option Props)) :
          (Engine.closeCursor c).outcome (⟨Engine.advanced c e (n + 1), rowCalls c rows ++ [.next c d]⟩ : Attended σ) =
            (r, ⟨engine', rowCalls c rows ++ [.next c d, .close c r]⟩) := by
        rw [Attended.closeCursor_outcome _ closing, List.append_assoc]
        rfl
      cases got : Engine.delivery c e n with
      | error f =>
          rw [got] at pull grows
          have played : done = (.pulled (.error f),
              (⟨engine', rowCalls c rows ++ [.next c (.error f), .close c r]⟩, ⟨none, requestId⟩)) := by
            simp only [done, Use.play, next_failure requestId pull, letGo]
          rw [played]
          exact stands_stop engine' requestId .failed (grows _ rfl).2
      | ok row =>
          rw [got] at pull grows
          cases row with
          | none =>
              have played : done = (.pulled ((fun _ => none) <$> r),
                  (⟨engine', rowCalls c rows ++ [.next c (.ok none), .close c r]⟩, ⟨none, requestId⟩)) := by
                simp only [done, Use.play, next_end requestId pull, letGo]
              rw [played]
              refine stands_stop engine' requestId ?_ (grows _ rfl).2
              cases r with
              | error f => exact .endFailed
              | ok _ => exact .ended
          | some row =>
              have played : done = (.row row,
                  (⟨Engine.advanced c e (n + 1), rowCalls c rows ++ [.next c (.ok (some row))]⟩,
                    ⟨some c, requestId⟩)) := by
                simp only [done, Use.play, next_row requestId pull]
                rfl
              obtain ⟨longer, delivered⟩ := grows [] rfl
              have course : Course c _ _ (some c) := .running (rows ++ [row])
              rw [List.map_append, rowCalls, List.map_append] at course
              rw [played]
              exact ⟨course, delivered, fun _ => by rw [longer]⟩

end

theorem Stands.use {s : Attended σ × RowStream} (u : Use) (h : Stands c e items s) :
    Stands c e (items ++ [(u.play s).1]) (u.play s).2 := by
  obtain ⟨⟨engine, calls⟩, ⟨cursor, requestId⟩⟩ := s
  obtain ⟨course, delivered, position⟩ := id h
  dsimp only at course
  cases course with
  | running rows =>
      cases u with
      | next => exact stands_next h
      | close => exact stands_close h
  | @stopped rows stop calls rest stops quiet =>
      -- a stopped stream stays as it is and gives nothing, so the quiet end grows by one
      obtain ⟨silent, same⟩ := use_released u (⟨engine, rowCalls c rows ++ calls⟩ : Attended σ) requestId
      rw [same, List.append_assoc]
      refine ⟨.stopped rows stops ?_, delivered, position⟩
      exact List.forall_mem_append.mpr ⟨quiet, List.forall_mem_singleton.mpr silent⟩

theorem Stands.play {s : Attended σ × RowStream} (us : List Use) (h : Stands c e items s) :
    Stands c e (items ++ (RowStream.play us s).1) (RowStream.play us s).2 := by
  induction us generalizing items s with
  | nil =>
      rw [RowStream.play, List.append_nil]
      exact h
  | cons u us ih =>
      have rest := ih (h.use u)
      rw [List.append_assoc] at rest
      exact rest

end

end RowStream
end GraphClient
