import GraphClient.Record

/-!
JSON documents. A `Json` keeps members as they were written; a `Value` is a document in normal form: members
sorted and without repetition, integers of 64 bits, floats finite. `normalize_eq_self` says that a
document in normal form is its own normal form.
-/
namespace GraphClient

inductive Json
  | null
  | bool (b : Bool)
  | integer (n : Int)
  | float (x : Float)
  | string (s : String)
  | array (items : List Json)
  | object (members : List (String × Json))
deriving Inhabited

namespace Json

mutual

def depth : Json → Nat
  | .array xs => depthItems xs + 1
  | .object ms => depthMembers ms + 1
  | _ => 0

def depthItems : List Json → Nat
  | [] => 0
  | x :: xs => max x.depth (depthItems xs)

def depthMembers : List (String × Json) → Nat
  | [] => 0
  | (_, x) :: ms => max x.depth (depthMembers ms)

end

def ofFloat (x : Float) : Json := if x.isFinite then .float x else .null

/-- An integer as a document, as long as 64 bits hold it with or without a sign. -/
def ofInt (n : Int) : Json :=
  if -0x8000000000000000 ≤ n ∧ n < 0x10000000000000000 then .integer n else ofFloat (Float.ofInt n)

/-- The value of a member; the first of its name. -/
def get? (j : Json) (name : String) : Option Json :=
  match j with
  | .object ms => ms.lookup name
  | _ => none

mutual

/-- The document with sorted members, the last of a name in place of the others, and numbers that are held exactly. -/
def normalize : Json → Json
  | .integer n => ofInt n
  | .float x => ofFloat x
  | .array xs => .array (normalizeItems xs)
  | .object ms => .object (Entries.collect (normalizeMembers ms))
  | j => j

def normalizeItems : List Json → List Json
  | [] => []
  | x :: xs => x.normalize :: normalizeItems xs

def normalizeMembers : List (String × Json) → List (String × Json)
  | [] => []
  | (n, x) :: ms => (n, x.normalize) :: normalizeMembers ms

end

mutual

/-- The normal form, said without `normalize`. -/
def WellFormed : Json → Prop
  | .integer n => -0x8000000000000000 ≤ n ∧ n < 0x10000000000000000
  | .float x => x.isFinite = true
  | .array xs => ItemsWellFormed xs
  | .object ms => Entries.Sorted ms ∧ MembersWellFormed ms
  | _ => True

def ItemsWellFormed : List Json → Prop
  | [] => True
  | x :: xs => x.WellFormed ∧ ItemsWellFormed xs

def MembersWellFormed : List (String × Json) → Prop
  | [] => True
  | (_, x) :: ms => x.WellFormed ∧ MembersWellFormed ms

end

theorem membersWellFormed_iff {ms : List (String × Json)} :
    MembersWellFormed ms ↔ ∀ m ∈ ms, m.2.WellFormed := by
  induction ms with
  | nil => simp [MembersWellFormed]
  | cons m ms ih => obtain ⟨n, x⟩ := m; simp [MembersWellFormed, ih]

theorem ofFloat_wellFormed (x : Float) : (ofFloat x).WellFormed := by
  unfold ofFloat; split <;> simp_all [WellFormed]

mutual

theorem normalize_wellFormed : (j : Json) → j.normalize.WellFormed
  | .integer n => by
    simp only [normalize, ofInt]; split
    · simpa [WellFormed]
    · exact ofFloat_wellFormed _
  | .float x => ofFloat_wellFormed x
  | .array xs => by simpa [normalize, WellFormed] using normalizeItems_wellFormed xs
  | .object ms => by
    refine ⟨Entries.sorted_collect _, membersWellFormed_iff.2 fun m hm => ?_⟩
    exact membersWellFormed_iff.1 (normalizeMembers_wellFormed ms) m (Entries.mem_collect hm)
  | .null | .bool _ | .string _ => by simp [normalize, WellFormed]

theorem normalizeItems_wellFormed : (xs : List Json) → ItemsWellFormed (normalizeItems xs)
  | [] => trivial
  | x :: xs => ⟨normalize_wellFormed x, normalizeItems_wellFormed xs⟩

theorem normalizeMembers_wellFormed : (ms : List (String × Json)) → MembersWellFormed (normalizeMembers ms)
  | [] => trivial
  | (_, x) :: ms => ⟨normalize_wellFormed x, normalizeMembers_wellFormed ms⟩

end

mutual

theorem normalize_eq_self : {j : Json} → j.WellFormed → j.normalize = j
  | .integer n, h => if_pos h
  | .float x, h => if_pos h
  | .array xs, h => congrArg Json.array (normalizeItems_eq_self h)
  | .object ms, h => by
    simp only [normalize, normalizeMembers_eq_self h.2, Entries.collect_eq_self h.1]
  | .null, _ | .bool _, _ | .string _, _ => rfl

theorem normalizeItems_eq_self : {xs : List Json} → ItemsWellFormed xs → normalizeItems xs = xs
  | [], _ => rfl
  | _ :: _, h => by rw [normalizeItems, normalize_eq_self h.1, normalizeItems_eq_self h.2]

theorem normalizeMembers_eq_self : {ms : List (String × Json)} → MembersWellFormed ms → normalizeMembers ms = ms
  | [], _ => rfl
  | (_, _) :: _, h => by rw [normalizeMembers, normalize_eq_self h.1, normalizeMembers_eq_self h.2]

end

end Json

/-- A document in normal form, which is what properties and rows hold. -/
structure Value where
  json : Json
  wellFormed : json.WellFormed

namespace Value

def null : Value := ⟨.null, trivial⟩

instance : Inhabited Value := ⟨null⟩

def ofJson (j : Json) : Value := ⟨j.normalize, j.normalize_wellFormed⟩

@[ext] theorem ext {v w : Value} (h : v.json = w.json) : v = w := by
  cases v; cases w; simp_all

theorem ofJson_json (v : Value) : ofJson v.json = v := ext (Json.normalize_eq_self v.wellFormed)

end Value

abbrev Props := Record Value

namespace Props

def toJson (p : Props) : Json := .object (p.entries.map fun (n, v) => (n, v.json))

end Props
end GraphClient
