import GraphClient.Proofs.Creation.References

/-!
A draft over its whole life: any calls on it, and between them anything that happens to its handle. The engine hears of it
once at most, as it is first executed on an open handle, and then of all that has been added to it.
-/
namespace GraphClient.Creation.Draft

open Engine (Exchange Observed)
open GraphClient.Action (Mirrors)
open Database (unwatched)

inductive Use
  | fill (c : Call)
  | script
  | execute

namespace Use

abbrev Reply : Use → Type
  | fill c => c.Reply
  | script => Fragment
  | execute => Summary

def run {σ : Type} [Engine σ] : (u : Use) → Action (Database σ × Draft) u.Reply
  | fill c => c.run.onSecond
  | script => do pure (← get).2.fragment
  | execute => Database.create

def added : (u : Use) → Except Failure u.Reply → Fragment
  | fill c, result => ⟨(c.placed result).map Prod.fst, c.linked result⟩
  | script, _ => .empty
  | execute, _ => .empty

end Use

/-- A call on a draft: the handle and the draft as it has found them and as it leaves them, its result, and what it has
asked of the engine. -/
structure Turn (σ : Type) where
  call : Use
  found : Database σ × Draft
  result : Except Failure call.Reply
  asked : List Exchange
  left : Database σ × Draft

def Turn.Executes {σ : Type} (t : Turn σ) : Prop := t.call = .execute ∧ t.found.1.closed = false

def Turn.added {σ : Type} (t : Turn σ) : Fragment := t.call.added t.result

def gathered {σ : Type} (history : List (Turn σ)) : Fragment :=
  ⟨history.flatMap fun t => t.added.nodes, history.flatMap fun t => t.added.edges⟩

/-- What a call comes to on a draft that holds a script and waits, on a handle that is closed or not. -/
inductive Early (script : Fragment) : (closed : Bool) → (u : Use) → Except Failure u.Reply → List Exchange → Prop
  | filled {closed : Bool} {c : Call} {result : Except Failure c.Reply} : Early script closed (.fill c) result []
  | shown {closed : Bool} : Early script closed .script (.ok script) []
  | refused : Early script true .execute (.error .closed) []
  | executed {reply : Except Failure Summary} : Early script false .execute reply [⟨.create script, reply⟩]

/-- What a call comes to on a draft that has been executed. -/
inductive Late : (u : Use) → Except Failure u.Reply → Prop
  | filled {c : Call} : Late (.fill c) (.error (.argument .executed))
  | shown : Late .script (.ok .empty)
  | executed : Late .execute (.error (.argument .executed))

theorem Early.asks_once {script : Fragment} {closed : Bool} {u : Use} {result : Except Failure u.Reply}
    {asked : List Exchange} (h : Early script closed u result asked) : asked.length ≤ 1 := by
  cases h <;> simp

namespace Turn

variable {σ : Type}

structure Waits (t : Turn σ) : Prop where
  early : Early t.found.2.fragment t.found.1.closed t.call t.result t.asked
  silent : t.asked = []
  opened : t.left.2.isSealed = false
  nodes : t.left.2.fragment.nodes = t.found.2.fragment.nodes ++ t.added.nodes
  edges : t.left.2.fragment.edges = t.found.2.fragment.edges ++ t.added.edges
  execution : t.call = .execute → t.found.1.closed = true ∧ t.left = t.found

structure Spends (t : Turn σ) : Prop where
  early : Early t.found.2.fragment t.found.1.closed t.call t.result t.asked
  executes : t.Executes
  shut : t.left.2.isSealed = true
  empty : t.left.2.fragment = .empty

structure TooLate (t : Turn σ) : Prop where
  late : Late t.call t.result
  silent : t.asked = []
  unchanged : t.left = t.found

theorem Waits.not_executes {t : Turn σ} (h : t.Waits) : ¬ t.Executes := by
  rintro ⟨execution, opened⟩
  rw [(h.execution execution).1] at opened
  cases opened

end Turn

section
variable {σ : Type} [Engine σ]

def turn (u : Use) (s : Database σ × Draft) : Turn σ :=
  -- the call is made on the engine as it is; that it is watched only tells what it is asked
  let watched := u.run.outcome (s.1.observed, s.2)
  let done := u.run.outcome s
  ⟨u, s, done.1, watched.2.1.engine.exchanges, done.2⟩

def turns : Database σ × Draft → List ((Database σ → Database σ) × Use) → List (Turn σ)
  | _, [] => []
  | s, (meanwhile, u) :: calls =>
    let t := turn u (meanwhile s.1, s.2)
    t :: turns t.left calls

theorem Call.run_sealed {d : Draft} (shut : d.isSealed = true) (c : Call) :
    c.run.outcome d = (.error (.argument .executed), d) := by
  have refused := requireOpen_sealed shut
  cases c with
  | node labels props aliasName =>
      have checked : (checkNode labels props).outcome d = (.error (.argument .executed), d) :=
        Action.outcome_bind_error refused _
      exact Action.outcome_bind_error checked _
  | edge source edgeType target props => exact Action.outcome_bind_error refused _

theorem Change.isSealed {d d' : Draft} {c : Call} {result : Except Failure c.Reply} (h : Change d c result d') :
    d'.isSealed = d.isSealed := by
  cases h <;> rfl

theorem create_mirrors : Mirrors (Prod.map (unwatched (σ := σ)) id) Database.create Database.create :=
  (Mirrors.onSecond _).bind fun _ => Database.requireOpen_mirrors.onFirst.bind fun _ => .get_bind fun _ =>
    have shut : Mirrors (Prod.map (unwatched (σ := σ)) id) (modify _) (modify _) := fun _ => rfl
    shut.bind fun _ => (Database.send_mirrors _).onFirst

theorem Use.run_mirrors (u : Use) : Mirrors (Prod.map (unwatched (σ := σ)) id) u.run u.run := by
  cases u with
  | fill c => exact .onSecond _
  | script => exact .get_bind fun _ => .pure _
  | execute => exact create_mirrors

variable {s : Database σ × Draft}

theorem turn_eq {u : Use} {result : Except Failure u.Reply} {db : Database (Observed σ)} {d : Draft}
    (outcome : u.run.outcome (s.1.observed, s.2) = (result, (db, d))) :
    turn u s = ⟨u, s, result, db.engine.exchanges, (db.unwatched, d)⟩ := by
  have same : u.run.outcome s = (result, (db.unwatched, d)) := by
    have mirrored := u.run_mirrors (s.1.observed, s.2)
    rw [outcome] at mirrored
    exact mirrored
  rw [turn, outcome, same]

theorem turn_fill (c : Call) : turn (.fill c) s = ⟨.fill c, s, (c.run.outcome s.2).1, [], (s.1, (c.run.outcome s.2).2)⟩ :=
  turn_eq (u := .fill c) (Action.outcome_onSecond c.run (s.1.observed, s.2))

theorem turn_script : turn .script s = ⟨.script, s, .ok s.2.fragment, [], s⟩ := rfl

theorem turn_execute_sealed (shut : s.2.isSealed = true) :
    turn .execute s = ⟨.execute, s, .error (.argument .executed), [], s⟩ := by
  have outcome := Database.create_outcome s.1.observed s.2
  rw [if_pos shut] at outcome
  exact turn_eq (u := .execute) outcome

theorem turn_execute_closed (opened : s.2.isSealed = false) (shut : s.1.closed = true) :
    turn .execute s = ⟨.execute, s, .error .closed, [], s⟩ := by
  have shut : s.1.observed.closed = true := shut
  have outcome := Database.create_outcome s.1.observed s.2
  rw [if_neg (by simp [opened]), if_pos shut] at outcome
  exact turn_eq (u := .execute) outcome

theorem turn_execute_opened (opened : s.2.isSealed = false) (handle : s.1.closed = false) :
    let answered := (Engine.answer (.create s.2.fragment)).outcome s.1.engine
    turn .execute s = ⟨.execute, s, answered.1, [⟨.create s.2.fragment, answered.1⟩],
      ({ s.1 with engine := answered.2 }, s.2.spent)⟩ := by
  have handle : s.1.observed.closed = false := handle
  have outcome := Database.create_outcome s.1.observed s.2
  rw [if_neg (by simp [opened]), if_neg (by simp [handle]), Database.send_outcome handle] at outcome
  exact turn_eq (u := .execute) outcome

theorem turn_waiting (opened : s.2.isSealed = false) (u : Use) : (turn u s).Waits ∨ (turn u s).Spends := by
  cases u with
  | fill c =>
      have change := c.run_change s.2
      rw [turn_fill]
      exact .inl ⟨.filled, rfl, change.isSealed.trans opened, change.nodes, change.edges, nofun⟩
  | script =>
      rw [turn_script]
      exact .inl ⟨.shown, rfl, opened, (List.append_nil _).symm, (List.append_nil _).symm, nofun⟩
  | execute =>
      cases handle : s.1.closed with
      | true =>
          rw [turn_execute_closed opened handle]
          refine .inl ⟨?_, rfl, opened, (List.append_nil _).symm, (List.append_nil _).symm, fun _ => ⟨handle, rfl⟩⟩
          rw [handle]
          exact .refused
      | false =>
          rw [turn_execute_opened opened handle]
          refine .inr ⟨?_, ⟨rfl, handle⟩, rfl, rfl⟩
          rw [handle]
          exact .executed

theorem turn_sealed (shut : s.2.isSealed = true) (empty : s.2.fragment = .empty) (u : Use) : (turn u s).TooLate := by
  cases u with
  | fill c =>
      rw [turn_fill, c.run_sealed shut]
      exact ⟨.filled, rfl, rfl⟩
  | script =>
      rw [turn_script, empty]
      exact ⟨.shown, rfl, rfl⟩
  | execute =>
      rw [turn_execute_sealed shut]
      exact ⟨.executed, rfl, rfl⟩

end

/-- Where a draft stands behind the calls made on it so far. -/
inductive Stands {σ : Type} (earlier : List (Turn σ)) (d : Draft) : Prop
  | waiting : (∀ t ∈ earlier, ¬ t.Executes) → d.isSealed = false → d.fragment = gathered earlier → Stands earlier d
  | spent : (∃ t ∈ earlier, t.Executes) → d.isSealed = true → d.fragment = .empty → Stands earlier d

section
variable {σ : Type} [Engine σ] {past : List (Turn σ)} {s : Database σ × Draft}

theorem Stands.turn (h : Stands past s.2) (u : Use) : Stands (past ++ [turn u s]) (turn u s).left.2 := by
  cases h with
  | waiting quiet opened held =>
      rcases turn_waiting opened u with waits | spends
      · have behind : ∀ t ∈ past ++ [Draft.turn u s], ¬ t.Executes :=
          List.forall_mem_append.mpr ⟨quiet, List.forall_mem_singleton.mpr waits.not_executes⟩
        have same : (Draft.turn u s).found = s := rfl
        refine .waiting behind waits.opened ?_
        have nodes := waits.nodes
        have edges := waits.edges
        rw [same, held] at nodes edges
        simp only [gathered, List.flatMap_append, List.flatMap_singleton] at nodes edges ⊢
        rw [← nodes, ← edges]
      · exact .spent ⟨_, List.mem_append_right _ (List.mem_singleton_self _), spends.executes⟩ spends.shut spends.empty
  | spent before shut empty =>
      obtain ⟨t, member, executes⟩ := before
      rw [(turn_sealed shut empty u).unchanged]
      exact .spent ⟨t, List.mem_append_left _ member, executes⟩ shut empty

theorem Stands.turn_asks (h : Stands past s.2) (u : Use) :
    (Draft.turn u s).asked.length + s.2.isSealed.toNat ≤ (Draft.turn u s).left.2.isSealed.toNat := by
  cases h with
  | waiting _ opened _ =>
      rcases turn_waiting opened u with waits | spends
      · simp [waits.silent, opened]
      · simpa [opened, spends.shut] using spends.early.asks_once
  | spent _ shut empty =>
      have late := turn_sealed shut empty u
      rw [late.unchanged, late.silent, List.length_nil, Nat.zero_add]
      exact Nat.le_refl _

theorem turns_ask_once (h : Stands past s.2) (calls : List ((Database σ → Database σ) × Use)) :
    ((turns s calls).flatMap Turn.asked).length + s.2.isSealed.toNat ≤ 1 := by
  -- a sealed draft counts for the question that has been asked about it
  induction calls generalizing past s with
  | nil => simpa [turns] using s.2.isSealed.toNat_le
  | cons call calls ih =>
      obtain ⟨meanwhile, u⟩ := call
      have behind : Stands past (meanwhile s.1, s.2).2 := h
      have now : _ + s.2.isSealed.toNat ≤ _ := behind.turn_asks u
      have later := ih (behind.turn u)
      rw [turns, List.flatMap_cons, List.length_append]
      omega

theorem turns_stand {earlier later : List (Turn σ)} {t : Turn σ} {calls : List ((Database σ → Database σ) × Use)}
    (h : Stands past s.2) (split : turns s calls = earlier ++ t :: later) :
    ∃ u found, t = turn u found ∧ Stands (past ++ earlier) found.2 := by
  -- each call moves from those to come to those of the past
  induction calls generalizing past s earlier with
  | nil => simp [turns] at split
  | cons call calls ih =>
      obtain ⟨meanwhile, u⟩ := call
      have behind : Stands past (meanwhile s.1, s.2).2 := h
      rw [turns] at split
      cases earlier with
      | nil =>
          obtain ⟨rfl, -⟩ := List.cons.inj split
          exact ⟨u, _, rfl, by rwa [List.append_nil]⟩
      | cons first earlier =>
          obtain ⟨rfl, rest⟩ := List.cons.inj split
          obtain ⟨v, found, same, stands⟩ := ih (behind.turn u) rest
          rw [List.append_assoc] at stands
          exact ⟨v, found, same, stands⟩

end

/-- What holds of all calls made on a draft and its handle. -/
structure SingleUse {σ : Type} [Engine σ] (history : List (Turn σ)) : Prop where
  asksOnce : (history.flatMap Turn.asked).length ≤ 1
  /-- Up to the first execution on an open handle, and with that one, a call acts on all that those before it have added,
  which is also what the draft shows if it is looked at instead. -/
  before : ∀ earlier t later, history = earlier ++ t :: later → (∀ u ∈ earlier, ¬ u.Executes) →
    Early (gathered earlier) t.found.1.closed t.call t.result t.asked ∧
      Use.script.run.outcome t.found = (.ok (gathered earlier), t.found)
  afterwards : ∀ earlier t later, history = earlier ++ t :: later → (∃ u ∈ earlier, u.Executes) → t.TooLate
  closed : ∀ t ∈ history, t.call = .execute → t.found.1.closed = true → t.asked = [] ∧ t.left = t.found

theorem singleUse_of_stands {σ : Type} [Engine σ] {history : List (Turn σ)}
    (asksOnce : (history.flatMap Turn.asked).length ≤ 1)
    (stands : ∀ earlier t later, history = earlier ++ t :: later → ∃ u s, t = turn u s ∧ Stands earlier s.2) :
    SingleUse history where
  asksOnce := asksOnce
  before := by
    intro earlier t later split quiet
    obtain ⟨u, s, rfl, waiting⟩ := stands earlier t later split
    cases waiting with
    | waiting _ opened held =>
        have early : Early s.2.fragment s.1.closed u (turn u s).result (turn u s).asked :=
          (turn_waiting opened u).elim (·.early) (·.early)
        have shown : Use.script.run.outcome s = (.ok s.2.fragment, s) := rfl
        rw [held] at early shown
        exact ⟨early, shown⟩
    | spent before _ _ =>
        obtain ⟨v, member, executes⟩ := before
        exact absurd executes (quiet v member)
  afterwards := by
    intro earlier t later split executed
    obtain ⟨u, s, rfl, spent⟩ := stands earlier t later split
    cases spent with
    | waiting quiet _ _ =>
        obtain ⟨v, member, executes⟩ := executed
        exact absurd executes (quiet v member)
    | spent _ shut empty => exact turn_sealed shut empty u
  closed := by
    intro t member execution shut
    obtain ⟨earlier, later, split⟩ := List.append_of_mem member
    obtain ⟨u, s, rfl, standing⟩ := stands earlier t later split
    cases standing with
    | waiting _ opened _ =>
        rcases turn_waiting opened u with waits | spends
        · exact ⟨waits.silent, (waits.execution execution).2⟩
        · exact absurd (shut.symm.trans spends.executes.2) nofun
    | spent _ sealed empty =>
        have late := turn_sealed sealed empty u
        exact ⟨late.silent, late.unchanged⟩

/-- Whatever is called on a draft and whatever else happens to its handle, it is used once. -/
theorem turns_singleUse {σ : Type} [Engine σ] (db : Database σ) (schema : Option Schema)
    (calls : List ((Database σ → Database σ) × Use)) : SingleUse (turns (db, new schema) calls) := by
  have fresh : Stands ([] : List (Turn σ)) (new schema) := .waiting (List.forall_mem_nil _) rfl rfl
  refine singleUse_of_stands (turns_ask_once (s := (db, new schema)) fresh calls) ?_
  intro earlier t later split
  exact turns_stand (s := (db, new schema)) fresh split

end GraphClient.Creation.Draft
