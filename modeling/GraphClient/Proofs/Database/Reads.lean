import GraphClient.Engine.Scripted
import GraphClient.Proofs.Database.Calls
import GraphClient.Proofs.Query.Variables

/-!
Direct reads and the names they hand to the engine. A read is refused on the spot, or it asks one question; labels and
names go out trimmed, while the edge types of neighbours and walks are checked trimmed and go out as they are given.
-/
namespace GraphClient

theorem Action.forM_discard_check {σ α β : Type} (f : α → Except Failure β) (l : List α) (s : σ) :
    ∃ x, (l.forM fun v => discard (Action.check (f v)) : Action σ PUnit).outcome s = (x, s) ∧
      ((∃ e, x = .error e) ↔ ∃ v ∈ l, ∃ e, f v = .error e) := by
  induction l with
  | nil => exact ⟨.ok ⟨⟩, rfl, by simp⟩
  | cons v l ih =>
      obtain ⟨x, rest, fails⟩ := ih
      have first : (discard (Action.check (f v)) : Action σ PUnit).outcome s = ((fun _ => ()) <$> f v, s) :=
        Action.outcome_discard _ s
      rw [List.forM_eq_forM, List.forM_cons]
      cases here : f v with
      | error e =>
          rw [here] at first
          exact ⟨.error e, Action.outcome_bind_error first _, by simp [here]⟩
      | ok a =>
          rw [here] at first
          exact ⟨x, (Action.outcome_bind_ok first _).trans rest, by simpa [here] using fails⟩

namespace Database

inductive Read
  | intern (name : String)
  | neighbors (node : UInt64) (expansion : Expansion)
  | walk (start : UInt64) (depth : UInt32) (how : Walk)
  | countNodes (label : String)
  | countEdges (edgeType : String)
  | listNodes (label : String)

namespace Read

def call : Read → Database.Call
  | intern name => .intern name
  | neighbors node expansion => .neighbors node expansion
  | walk start depth how => .walk start depth how
  | countNodes label => .countNodes label
  | countEdges edgeType => .countEdges edgeType
  | listNodes label => .listNodes label

def question : Read → Engine.Call
  | intern name => .intern name
  | neighbors node expansion => .neighbors node expansion
  | walk start depth how => .walk start depth how
  | countNodes label => .countNodes label
  | countEdges edgeType => .countEdges edgeType
  | listNodes label => .listNodes label

def mapNames (f : String → String) : Read → Read
  | intern name => intern (f name)
  | neighbors node expansion => neighbors node { expansion with edgeType := expansion.edgeType.map f }
  | walk start depth how => walk start depth { how with edgeTypes := how.edgeTypes.map (·.map f) }
  | countNodes label => countNodes (f label)
  | countEdges edgeType => countEdges (f edgeType)
  | listNodes label => listNodes (f label)

def trimmed (r : Read) : Read := r.mapNames Text.trim

def edgeTypes : Read → List String
  | neighbors _ expansion => expansion.edgeType.toList
  | walk _ _ how => how.edgeTypes.getD []
  | intern _ | countNodes _ | countEdges _ | listNodes _ => []

def names : Read → List String
  | intern name | countNodes name | countEdges name | listNodes name => [name]
  | r => r.edgeTypes

def limit? : Read → Option Nat
  | walk _ _ how => how.limit
  | _ => none

theorem names_mapNames (f : String → String) (r : Read) : (r.mapNames f).names = r.names.map f := by
  cases r with
  | neighbors node expansion => cases h : expansion.edgeType <;> simp [mapNames, names, edgeTypes, h]
  | walk start depth how => cases h : how.edgeTypes <;> simp [mapNames, names, edgeTypes, h]
  | _ => rfl

/-- What the engine is asked: edge types that narrow a read down go out as they are given. -/
def sent : Read → Engine.Call
  | neighbors node expansion => .neighbors node expansion
  | walk start depth how => .walk start depth how
  | r => r.trimmed.question

theorem map_trim_eq_self_iff {l : List String} : l.map Text.trim = l ↔ ∀ t ∈ l, Text.trim t = t := by
  conv => lhs; rhs; rw [← List.map_id l]
  exact List.map_inj_left

theorem sent_eq_trimmed_iff (r : Read) : r.sent = r.trimmed.question ↔ ∀ t ∈ r.edgeTypes, Text.trim t = t := by
  cases r with
  | neighbors node expansion =>
      obtain ⟨direction, edgeType, distinct⟩ := expansion
      cases edgeType <;> simp [sent, trimmed, mapNames, question, edgeTypes, eq_comm]
  | walk start depth how =>
      obtain ⟨direction, edgeTypes, limit⟩ := how
      cases edgeTypes with
      | none => simp [sent, trimmed, mapNames, question, Read.edgeTypes]
      | some types =>
          simp only [sent, trimmed, mapNames, question, Read.edgeTypes, Option.map_some, Option.getD_some,
            Engine.Call.walk.injEq, Walk.mk.injEq, Option.some.injEq, true_and, and_true]
          exact eq_comm.trans map_trim_eq_self_iff
  | _ => exact iff_of_true rfl (by simp [edgeTypes])

/-- A read that no engine hears of: the handle is closed, a name shows nothing, or a limit lets nothing through. -/
def Refused {σ : Type} (db : Database σ) (r : Read) : Prop :=
  db.closed = true ∨ (∃ t ∈ r.names, Text.isBlank t = true) ∨ r.limit? = some 0

end Read

open Engine (Observed)

def Puts {σ α : Type} (a : Action (Database (Observed σ)) α) (db : Database (Observed σ)) (refused : Prop)
    (question : Engine.Call) : Prop :=
  refused ∧ (∃ f, a.outcome db = (.error f, db)) ∨
    ¬ refused ∧ ∃ reply, (a.outcome db).2.engine.exchanges = db.engine.exchanges ++ [⟨question, reply⟩]

namespace Puts

variable {σ α β : Type} {db : Database (Observed σ)} {question : Engine.Call}

theorem send [Engine σ] : Puts (Database.send question) db (db.closed = true) question := by
  cases shut : db.closed with
  | true => exact .inl ⟨rfl, _, Action.outcome_bind_error (requireOpen_closed shut) _⟩
  | false =>
      refine .inr ⟨Bool.false_ne_true, ((Engine.answer question).outcome db.engine).1, ?_⟩
      rw [Database.send, Action.outcome_bind_ok (requireOpen_opened shut)]
      rfl

theorem reads_bind {a : Action (Database (Observed σ)) β} {f : β → Action (Database (Observed σ)) α}
    {x : Except Failure β} {refused fails : Prop} (reads : a.outcome db = (x, db)) (when : (∃ e, x = .error e) ↔ fails)
    (rest : ∀ v, x = .ok v → Puts (f v) db refused question) : Puts (a >>= f) db (refused ∨ fails) question := by
  cases x with
  | error e =>
      have failed : fails := when.mp ⟨e, rfl⟩
      exact .inl ⟨.inr failed, e, Action.outcome_bind_error reads f⟩
  | ok v =>
      have passed : ¬ fails := fun failed => nomatch when.mpr failed
      have later := rest v rfl
      rw [Puts, Action.outcome_bind_ok reads, or_iff_left passed]
      exact later

theorem trimmed_bind {what text : String} {f : String → Action (Database (Observed σ)) α}
    (question : String → Engine.Call) (rest : ∀ name, Puts (f name) db (db.closed = true) (question name)) :
    Puts (Action.check (trimmed what text) >>= f) db (db.closed = true ∨ Text.isBlank text = true)
      (question (Text.trim text)) := by
  refine reads_bind (Action.outcome_check _ db) ?_ fun name passed => ?_
  · rw [trimmed_eq, ← nonBlank_eq_error_iff what]
    cases nonBlank what text <;> simp
  · rw [trimmed_eq] at passed
    obtain ⟨_, _, rfl⟩ := map_eq_ok.mp passed
    exact rest (Text.trim text)

theorem of_iff {a : Action (Database (Observed σ)) α} {p q : Prop} (h : Puts a db p question) (same : p ↔ q) :
    Puts a db q question :=
  propext same ▸ h

end Puts

section
variable {σ : Type} [Engine σ] (db : Database (Observed σ))

theorem neighbors_puts (node : UInt64) (expansion : Expansion) : Puts (neighbors node expansion) db
    (db.closed = true ∨ ∃ t ∈ expansion.edgeType, Text.isBlank t = true) (.neighbors node expansion) := by
  unfold neighbors
  cases expansion.edgeType with
  | none => exact Puts.send.of_iff (by simp)
  | some t =>
      refine .reads_bind (Action.outcome_discard _ db) ?_ fun _ _ => .send
      rw [Action.outcome_check]
      cases checked : nonBlank "edge_type" t <;> simp [← nonBlank_eq_error_iff "edge_type", checked]

theorem walk_puts (start : UInt64) (depth : UInt32) (how : Walk) : Puts (Database.walk start depth how) db
    ((db.closed = true ∨ how.limit = some 0) ∨ ∃ t ∈ how.edgeTypes.getD [], Text.isBlank t = true)
    (.walk start depth how) := by
  obtain ⟨x, reads, fails⟩ := Action.forM_discard_check (nonBlank "edge_types entry") (how.edgeTypes.getD []) db
  simp only [nonBlank_eq_error_iff] at fails
  refine .reads_bind reads fails fun _ _ => ?_
  by_cases none : how.limit = some 0
  · exact .inl ⟨.inr none, .argument (.notPositive "max_results"), by simp [none, Action.outcome_bind]⟩
  · simp only [if_neg none]
    exact Puts.send.of_iff (or_iff_left none).symm

theorem Read.run_puts (r : Read) : Puts r.call.run db (r.Refused db) r.sent := by
  cases r with
  | neighbors node expansion =>
      exact (neighbors_puts db node expansion).of_iff (by simp [Refused, names, edgeTypes, limit?])
  | walk start depth how => exact (walk_puts db start depth how).of_iff (or_right_comm.trans or_assoc)
  | intern name =>
      have asked : Puts (Database.intern name) db _ _ := .trimmed_bind .intern fun _ => .send
      exact asked.of_iff (by simp [Refused, names, limit?])
  | countNodes label =>
      have asked : Puts (Database.countNodes label) db _ _ := .trimmed_bind .countNodes fun _ => .send
      exact asked.of_iff (by simp [Refused, names, limit?])
  | countEdges edgeType =>
      have asked : Puts (Database.countEdges edgeType) db _ _ := .trimmed_bind .countEdges fun _ => .send
      exact asked.of_iff (by simp [Refused, names, limit?])
  | listNodes label =>
      have asked : Puts (Database.listNodes label) db _ _ := .trimmed_bind .listNodes fun _ => .send
      exact asked.of_iff (by simp [Refused, names, limit?])

end

namespace Read

variable {σ : Type} [Engine σ]

/-- A read fails and asks nothing, or it asks one question, in which every name is trimmed and all else is as given. -/
def SendsTrimmed (db : Database σ) (r : Read) : Prop :=
  let done := r.call.run.outcome db.observed
  let asked := done.2.engine.exchanges.map (·.call)
  (∃ f, done.1 = .error f) ∧ asked = [] ∨ asked = [r.trimmed.question] ∧ ∀ t ∈ r.trimmed.names, Text.Trimmed t

/-- Names go out trimmed exactly where the read is refused, or the edge types it is narrowed down to have no white space
at their ends to begin with. -/
theorem sendsTrimmed_iff (db : Database σ) (r : Read) :
    r.SendsTrimmed db ↔ r.Refused db ∨ ∀ t ∈ r.edgeTypes, Text.trim t = t := by
  rw [← sent_eq_trimmed_iff, SendsTrimmed]
  rcases r.run_puts db.observed with ⟨refused, f, failed⟩ | ⟨passed, reply, asked⟩
  · rw [failed]
    exact iff_of_true (.inl ⟨⟨f, rfl⟩, rfl⟩) (.inl refused)
  · have shown : ∀ t ∈ r.trimmed.names, Text.Trimmed t := by
      rw [trimmed, names_mapNames, List.forall_mem_map]
      intro t member
      exact Text.trimmed_trim (eq_false_of_ne_true fun blank => passed (.inr (.inl ⟨t, member, blank⟩)))
    have one : (r.call.run.outcome db.observed).2.engine.exchanges.map (·.call) = [r.sent] := by
      rw [asked]
      rfl
    rw [one]
    constructor
    · rintro (⟨_, none⟩ | ⟨same, _⟩)
      · cases none
      · exact .inr (List.singleton_inj.mp same)
    · rintro (refused | same)
      · exact absurd refused passed
      · exact .inr ⟨congrArg ([·]) same, shown⟩

theorem padded_edge_type_goes_out : ¬ ∀ (db : Database Engine.Scripted) (r : Read), r.SendsTrimmed db := by
  intro all
  have asked : ((neighbors 1 ⟨.outgoing, some " KNOWS ", true⟩).call.run.outcome
      (new Engine.Scripted.empty).observed).2.engine.exchanges.map (·.call) =
        [.neighbors 1 ⟨.outgoing, some " KNOWS ", true⟩] := rfl
  have padded : Text.trim " KNOWS " ≠ " KNOWS " := by decide
  rcases all (new Engine.Scripted.empty) (neighbors 1 ⟨.outgoing, some " KNOWS ", true⟩) with ⟨_, none⟩ | ⟨same, _⟩
  · rw [asked] at none
    cases none
  · rw [asked] at same
    exact padded (by simpa [trimmed, mapNames, question, eq_comm] using same)

end Read
end Database
end GraphClient
