import GraphClient.Proofs.Stream.Course

/-!
The life of a stream. Whatever the order of calls, its cursor is let go once and is not asked for a row after that, and
its caller sees the rows, at most one failure, and nothing behind them.
-/
namespace GraphClient.RowStream

open Engine (Attended Cursor CursorCall pulls)

/-- The failures that calls on a cursor come to: those to deliver, and those to close behind the last row. -/
def reported : List CursorCall → List Failure
  | .next _ (.error f) :: rest => f :: reported rest
  | .next _ (.ok none) :: .close _ (.error f) :: rest => f :: reported rest
  | _ :: rest => reported rest
  | [] => []

section
variable {c : Cursor} {items : List Item} {calls : List CursorCall} {cursor : Option Cursor}

theorem pulls_append (first later : List CursorCall) : pulls (first ++ later) = pulls first ++ pulls later :=
  List.filterMap_append

theorem pulls_rowCalls (c : Cursor) (rows : List Props) : pulls (rowCalls c rows) = rows.map fun r => .ok (some r) := by
  simp [pulls, rowCalls, List.filterMap_map, CursorCall.pulled?, Function.comp_def]

theorem countP_rowCalls (c : Cursor) (rows : List Props) : (rowCalls c rows).countP CursorCall.isClose = 0 := by
  rw [List.countP_eq_zero]
  intro x member
  obtain ⟨r, -, rfl⟩ := List.mem_map.mp member
  exact nofun

theorem filterMap_row_rows (rows : List Props) : (rows.map Item.row).filterMap Item.row? = rows := by
  simp [List.filterMap_map, Item.row, Item.row?, Engine.row?, Function.comp_def]

theorem filterMap_failure_rows (rows : List Props) : (rows.map Item.row).filterMap Item.failure? = [] := by
  simp [Item.row, Item.failure?]

theorem reported_rowCalls (c : Cursor) (rows : List Props) (calls : List CursorCall) :
    reported (rowCalls c rows ++ calls) = reported calls := by
  induction rows with
  | nil => rfl
  | cons r rows ih => exact ih

theorem Stop.row? {stop : Item} (h : Stop c stop calls) : stop.row? = none ∧ (pulls calls).filterMap Engine.row? = [] := by
  cases h with
  | closed => exact ⟨rfl, rfl⟩
  | ended => exact ⟨rfl, rfl⟩
  | endFailed => exact ⟨rfl, rfl⟩
  | failed => exact ⟨rfl, rfl⟩

theorem Stop.failure? {stop : Item} (h : Stop c stop calls) : stop.failure?.toList = reported calls := by
  cases h with
  | closed => rfl
  | ended => rfl
  | endFailed => rfl
  | failed => rfl

theorem Stop.countP {stop : Item} (h : Stop c stop calls) : calls.countP CursorCall.isClose = 1 := by
  cases h <;> rfl

theorem Course.countP (h : Course c items calls cursor) :
    calls.countP CursorCall.isClose = if cursor.isSome then 0 else 1 := by
  cases h with
  | running rows => exact countP_rowCalls c rows
  | stopped rows stops _ =>
      rw [List.countP_append, countP_rowCalls, stops.countP]
      rfl

theorem Course.pairwise_calls (h : Course c items calls cursor) : calls.Pairwise fun x _ => x.isClose = false := by
  have early {rows : List Props} {x : CursorCall} (member : x ∈ rowCalls c rows) : x.isClose = false := by
    obtain ⟨r, -, rfl⟩ := List.mem_map.mp member
    rfl
  cases h with
  | running rows => exact List.pairwise_of_forall_mem_list fun x member _ _ => early member
  | stopped rows stops _ =>
      refine List.pairwise_append.mpr
        ⟨List.pairwise_of_forall_mem_list fun x member _ _ => early member, ?_, fun x member _ _ => early member⟩
      cases stops with
      | closed => exact List.pairwise_singleton _ _
      | ended => exact List.pairwise_pair.mpr rfl
      | endFailed => exact List.pairwise_pair.mpr rfl
      | failed => exact List.pairwise_pair.mpr rfl

theorem Course.cursors (h : Course c items calls cursor) : ∀ x ∈ calls, x.cursor = c := by
  have own (rows : List Props) : ∀ x ∈ rowCalls c rows, x.cursor = c := List.forall_mem_map.mpr fun _ _ => rfl
  cases h with
  | running rows => exact own rows
  | stopped rows stops _ =>
      refine List.forall_mem_append.mpr ⟨own rows, ?_⟩
      cases stops <;> simp [CursorCall.cursor]

theorem Course.pairwise_items (h : Course c items calls cursor) :
    items.Pairwise fun x y => x.row? = none → y.Quiet := by
  have row {rows : List Props} {x : Item} (member : x ∈ rows.map Item.row) : x.row? ≠ none := by
    obtain ⟨r, -, rfl⟩ := List.mem_map.mp member
    exact nofun
  cases h with
  | running rows => exact List.pairwise_of_forall_mem_list fun x member _ _ none => absurd none (row member)
  | stopped rows stops quiet =>
      refine List.pairwise_append.mpr ⟨?_, ?_, fun x member _ _ none => absurd none (row member)⟩
      · exact List.pairwise_of_forall_mem_list fun x member _ _ none => absurd none (row member)
      · exact List.pairwise_cons.mpr ⟨fun y member _ => quiet y member,
          List.pairwise_of_forall_mem_list fun _ _ y member _ => quiet y member⟩

theorem Course.rows (h : Course c items calls cursor) :
    items.filterMap Item.row? = (pulls calls).filterMap Engine.row? := by
  have delivered (rows : List Props) : (pulls (rowCalls c rows)).filterMap Engine.row? = rows := by
    simp [pulls_rowCalls, List.filterMap_map, Engine.row?, Function.comp_def]
  cases h with
  | running rows => rw [filterMap_row_rows, delivered]
  | @stopped rows stop calls rest stops quiet =>
      have after : rest.filterMap Item.row? = [] := List.filterMap_eq_nil_iff.mpr fun i member => (quiet i member).row?
      rw [List.filterMap_append, List.filterMap_cons, stops.row?.1, after, filterMap_row_rows, pulls_append,
        List.filterMap_append, stops.row?.2, delivered]

theorem Course.failures (h : Course c items calls cursor) : items.filterMap Item.failure? = reported calls := by
  cases h with
  | running rows =>
      have none := reported_rowCalls c rows []
      rw [List.append_nil] at none
      rw [filterMap_failure_rows, none]
      rfl
  | @stopped rows stop calls rest stops quiet =>
      have after : rest.filterMap Item.failure? = [] :=
        List.filterMap_eq_nil_iff.mpr fun i member => (quiet i member).failure?
      rw [List.filterMap_append, filterMap_failure_rows, List.nil_append, reported_rowCalls, ← stops.failure?,
        List.filterMap_cons, after]
      cases stop.failure? <;> rfl

theorem Course.one_failure (h : Course c items calls cursor) : (items.filterMap Item.failure?).length ≤ 1 := by
  rw [h.failures]
  cases h with
  | running rows =>
      rw [← List.append_nil (rowCalls c rows), reported_rowCalls]
      exact Nat.zero_le 1
  | @stopped rows stop calls rest stops quiet =>
      rw [reported_rowCalls, ← stops.failure?]
      exact Option.length_toList_le

end

/-! Watching a cursor changes nothing that the caller of a stream sees. -/

section
open GraphClient.Action (Mirrors)

variable {σ : Type} [Engine σ]

theorem close_mirrors : Mirrors (Prod.map (Attended.engine (σ := σ)) id) close close := by
  refine .get_bind fun s => ?_
  rw [Prod.map_snd, id]
  cases s.2.cursor with
  | none => exact .pure ()
  | some c => exact fun _ => rfl

theorem next_mirrors : Mirrors (Prod.map (Attended.engine (σ := σ)) id) next next := by
  refine .get_bind fun s => ?_
  rw [Prod.map_snd, id]
  cases s.2.cursor with
  | none => exact .pure none
  | some c =>
      have pull : Mirrors (Prod.map (Attended.engine (σ := σ)) (id (α := RowStream))) (Engine.nextRow c).onFirst
          (Engine.nextRow c).onFirst := fun _ => rfl
      refine pull.attempt.bind fun outcome => ?_
      match outcome with
      | .ok (some row) => exact .pure (some row)
      | .ok none => exact close_mirrors.bind fun _ => .pure none
      | .error f => exact close_mirrors.attempt.discard.bind fun _ => fun _ => rfl

theorem play_attended (uses : List Use) (s : Attended σ × RowStream) :
    (play uses (s.1.engine, s.2)).1 = (play uses s).1 := by
  induction uses generalizing s with
  | nil => rfl
  | cons u uses ih =>
      have first : u.play (s.1.engine, s.2) = ((u.play s).1, ((u.play s).2.1.engine, (u.play s).2.2)) := by
        cases u with
        | next => exact congrArg (fun r => (Item.pulled r.1, r.2)) (next_mirrors s)
        | close => exact congrArg (fun r => (Item.closed r.1, r.2)) (close_mirrors s)
      rw [play, first]
      exact congrArg (List.cons (u.play s).1) (ih (u.play s).2)

/-- What holds of a stream that has given some items, and then is dropped. -/
structure LifeCycle (c : Cursor) (e : σ) (items : List Item) (s : Attended σ × RowStream) : Prop where
  released_once : s.1.calls.countP CursorCall.isClose ≤ 1 ∧ (drop s.1 s.2).calls.countP CursorCall.isClose = 1
  released_last : s.1.calls <+: (drop s.1 s.2).calls ∧ (drop s.1 s.2).calls.Pairwise fun x _ => x.isClose = false
  own : ∀ x ∈ (drop s.1 s.2).calls, x.cursor = c
  rows : items.filterMap Item.row? = (Engine.deliveries c e (pulls s.1.calls).length).filterMap Engine.row?
  quiet : items.Pairwise fun x y => x.row? = none → y.Quiet
  /-- There is one failure at most: that of a pull, or that of closing behind the last row. -/
  failures : items.filterMap Item.failure? = reported s.1.calls ∧ (items.filterMap Item.failure?).length ≤ 1
  course : Course c items s.1.calls s.2.cursor

theorem Stands.lifeCycle {c : Cursor} {e : σ} {items : List Item} {s : Attended σ × RowStream}
    (h : Stands c e items s) : LifeCycle c e items s := by
  -- dropping a stream is closing it once more, which leaves it stopped
  have dropped := (h.use .close).course
  have stopped : (Use.close.play s).2.2.cursor = none := by
    obtain ⟨a, ⟨cursor, requestId⟩⟩ := s
    cases cursor <;> rfl
  have kept : s.1.calls <+: (drop s.1 s.2).calls := by
    obtain ⟨a, ⟨cursor, requestId⟩⟩ := s
    cases cursor with
    | none => exact List.prefix_rfl
    | some c => exact List.prefix_append _ _
  rw [stopped] at dropped
  have once : s.1.calls.countP CursorCall.isClose ≤ 1 := by
    rw [h.course.countP]
    split <;> decide
  exact {
    released_once := ⟨once, dropped.countP⟩
    released_last := ⟨kept, dropped.pairwise_calls⟩
    own := dropped.cursors
    rows := h.course.rows.trans (congrArg _ h.delivered)
    quiet := h.course.pairwise_items
    failures := ⟨h.course.failures, h.course.one_failure⟩
    course := h.course }

/-- Whatever a cursor answers, and in whatever order its stream is pulled and closed before it is dropped, the stream
has the life that is due. -/
theorem play_lifeCycle (c : Cursor) (e : σ) (requestId : Option String) (uses : List Use) :
    let given := (play uses (e, ⟨some c, requestId⟩)).1
    let after := (play uses ((⟨e, []⟩ : Attended σ), ⟨some c, requestId⟩)).2
    LifeCycle c e given after := by
  intro given after
  have same : given = _ := play_attended uses (⟨e, []⟩, ⟨some c, requestId⟩)
  rw [same]
  exact ((stands_opened c e requestId).play uses).lifeCycle

end
end GraphClient.RowStream
