import GraphClient.Proofs.Outcome
import GraphClient.Wire.Format

/-!
When a reading succeeds. Where a part stands counts for the fault alone: a reading that succeeds has seen the values of
its parts and nothing else.
-/
namespace GraphClient.Wire

variable {α β : Type}

namespace Reading

@[simp] theorem pure_eq_done {a b : α} : (pure a : Reading α) = done b ↔ a = b := by
  constructor
  · rintro ⟨⟩
    rfl
  · exact congrArg done

@[simp] theorem seq_eq_done {f : Reading (α → β)} {x : Reading α} {b : β} :
    f <*> x = done b ↔ ∃ g, f = done g ∧ ∃ a, x = done a ∧ g a = b := by
  change both f x = done b ↔ _
  cases f with
  | done g => cases x <;> simp [both]
  | failed p e =>
      cases x with
      | done a => simp [both]
      | failed q d =>
          simp only [both]
          split <;> simp

@[simp] theorem map_eq_done {f : α → β} {x : Reading α} {b : β} : f <$> x = done b ↔ ∃ a, x = done a ∧ f a = b := by
  refine (seq_eq_done (f := done f)).trans ⟨?_, fun h => ⟨f, rfl, h⟩⟩
  rintro ⟨_, ⟨⟩, h⟩
  exact h

theorem seqLeft_eq_done {x : Reading α} {y : Reading β} {a : α} : x <* y = done a ↔ x = done a ∧ ∃ b, y = done b := by
  refine (seq_eq_done (f := Function.const β <$> x)).trans ⟨?_, ?_⟩
  · rintro ⟨g, left, b, right, rfl⟩
    obtain ⟨a, kept, rfl⟩ := map_eq_done.mp left
    exact ⟨kept, b, right⟩
  · rintro ⟨kept, b, right⟩
    exact ⟨Function.const β a, map_eq_done.mpr ⟨a, kept, rfl⟩, b, right, rfl⟩

theorem result_eq_ok {x : Reading α} {a : α} : x.result = .ok a ↔ x = done a := by
  cases x <;> simp [result]

@[simp] theorem here_eq_done {place : Nat} {x : Except Fault α} {a : α} : here place x = done a ↔ x = .ok a := by
  cases x <;> simp [here]

end Reading

namespace Parts

def valuesOf (names : List String) (ms : List (String × Json)) : List Json :=
  (ms.filter fun m => names.contains m.1).map Prod.snd

@[simp] theorem valuesOf_nil (names : List String) : valuesOf names [] = [] := rfl

@[simp] theorem valuesOf_cons (names : List String) (m : String × Json) (ms : List (String × Json)) :
    valuesOf names (m :: ms) = if m.1 ∈ names then m.2 :: valuesOf names ms else valuesOf names ms := by
  by_cases named : m.1 ∈ names <;> simp [valuesOf, named]

@[simp] theorem valuesOf_append (names : List String) (ms ns : List (String × Json)) :
    valuesOf names (ms ++ ns) = valuesOf names ms ++ valuesOf names ns := by
  rw [valuesOf, List.filter_append, List.map_append]
  rfl

theorem valuesOf_eq_nil {names : List String} {ms : List (String × Json)} (fresh : ∀ m ∈ ms, m.1 ∉ names) :
    valuesOf names ms = [] := by
  induction ms with
  | nil => rfl
  | cons m ms ih =>
      obtain ⟨first, rest⟩ := List.forall_mem_cons.mp fresh
      rw [valuesOf_cons, if_neg first, ih rest]

theorem map_snd_occurrences (names : List String) (ms : List (String × Json)) :
    (occurrences names ms).map Prod.snd = valuesOf names ms := by
  -- the members behind the first are counted from one on, so the count starts anywhere
  have shifted : ∀ k, (((ms.zipIdx k).filter fun m => names.contains m.1.1).map fun m => m.1.2) = valuesOf names ms := by
    induction ms with
    | nil => exact fun _ => rfl
    | cons m ms ih =>
        intro k
        rw [List.zipIdx_cons, valuesOf, List.filter_cons, List.filter_cons]
        by_cases named : names.contains m.1 = true
        · rw [if_pos named, if_pos named, List.map_cons, ih]
          rfl
        · rw [if_neg named, if_neg named, ih]
          rfl
  rw [occurrences, List.map_map]
  exact shifted 0

def values (p : Parts) (position : Nat) (names : List String) : List Json :=
  match p with
  | members ms => valuesOf names ms
  | elements xs => xs[position]?.toList

@[simp] theorem values_members (ms : List (String × Json)) (position : Nat) (names : List String) :
    (members ms).values position names = valuesOf names ms := rfl

/-- A part is read if it is there once, or not at all where something stands for it. -/
theorem slot_eq_done {p : Parts} {position : Nat} {name : String} {others : List String} {absent : Option α}
    {read : Reader α} {a : α} : p.slot position name others absent read = .done a ↔
      p.values position (name :: others) = [] ∧ absent = some a ∨
        ∃ v, p.values position (name :: others) = [v] ∧ read v = .ok a := by
  cases p with
  | members ms =>
      rw [values, ← map_snd_occurrences]
      unfold slot
      dsimp only
      match occurrences (name :: others) ms with
      | [] => cases absent <;> simp
      | [(i, v)] => simp [Reading.here_eq_done]
      | (i, v) :: (j, _) :: _ => cases h : read v <;> simp [h]
  | elements xs =>
      unfold slot values
      dsimp only
      cases xs[position]? with
      | none => cases absent <;> simp
      | some v => simp [Reading.here_eq_done]

@[simp] theorem required_eq_done {p : Parts} {position : Nat} {name : String} {read : Reader α} {a : α} :
    p.required position name read = .done a ↔ ∃ v, p.values position [name] = [v] ∧ read v = .ok a := by
  simp [required, slot_eq_done]

@[simp] theorem defaulting_eq_done {p : Parts} {position : Nat} {name : String} {absent : α} {read : Reader α} {a : α} :
    p.defaulting position name absent read = .done a ↔
      p.values position [name] = [] ∧ absent = a ∨ ∃ v, p.values position [name] = [v] ∧ read v = .ok a := by
  simp [defaulting, slot_eq_done]

/-- Room for `n` parts: only elements are counted. -/
def Fits (n : Nat) : Parts → Prop
  | members _ => True
  | elements xs => xs.length ≤ n

@[simp] theorem fits_members (n : Nat) (ms : List (String × Json)) : (members ms).Fits n := trivial

theorem read_eq_ok {p : Parts} {size : Nat} {parts : Parts → Reading α} {a : α} :
    p.read size parts = .ok a ↔ parts p = .done a ∧ p.Fits size := by
  rw [read, Reading.result_eq_ok, Reading.seqLeft_eq_done]
  refine and_congr_right fun _ => ?_
  cases p with
  | members ms => simp [atMost, Fits]
  | elements xs =>
      simp only [atMost, Fits, ← Nat.not_lt]
      split <;> simp [*]

theorem read_members_eq_ok {ms : List (String × Json)} {size : Nat} {parts : Parts → Reading α} {a : α} :
    (members ms).read size parts = .ok a ↔ parts (members ms) = .done a := by
  rw [read_eq_ok, and_iff_left (fits_members size ms)]

end Parts

theorem list_written {read : Reader α} {write : α → Json} {l : List α} (each : ∀ a ∈ l, read (write a) = .ok a) :
    list read (.array (l.map write)) = .ok l := by
  have exact : ∀ a ∈ l, ∀ b, read (write a) = .ok b ↔ True ∧ id a = b := by
    intro a ha b
    simp [each a ha]
  exact (mapM_map_eq_ok_iff exact l).mpr ⟨by simp, List.map_id l⟩

theorem optional_eq_map {read : Reader α} {j : Json} (h : j ≠ .null) : optional read j = some <$> read j := by
  cases j with
  | null => exact absurd rfl h
  | _ => rfl

theorem record_object {wanted : String} {size : Nat} {parts : Parts → Reading α} {ms : List (String × Json)} {a : α} :
    record wanted size parts (.object ms) = .ok a ↔ parts (.members ms) = .done a := Parts.read_members_eq_ok

/-- A variant as an object: its name and a document that stands for nothing. -/
theorem choice_object_eq_ok {place : Place} {variants : List (String × α)} {ms : List (String × Json)} {a : α} :
    choice place variants (.object ms) = .ok a ↔
      ∃ m, ms = [m] ∧ variant variants m.1 = .ok a ∧ (m.2 = .null ∨ m.2 = .object [] ∧ place = .inside) := by
  match ms with
  | [] => simp [choice]
  | _ :: _ :: _ => simp [choice]
  | [(name, v)] =>
      simp only [choice, bind_eq_ok]
      constructor
      · rintro ⟨_, named, empty⟩
        refine ⟨(name, v), rfl, ?_⟩
        split at empty
        · cases empty
          exact ⟨named, .inl rfl⟩
        · cases empty
          exact ⟨named, .inr ⟨rfl, rfl⟩⟩
        · cases empty
      · rintro ⟨_, ⟨⟩, named, rfl | ⟨rfl, rfl⟩⟩
        · exact ⟨a, named, rfl⟩
        · exact ⟨a, named, rfl⟩

theorem pair_eq_ok {x : Except Fault α} {q : β} {y : α × β} : (do pure (← x, q)) = .ok y ↔ x = .ok y.1 ∧ q = y.2 := by
  cases x <;> simp [pure, Except.pure, Prod.ext_iff]

/-- Among members the tag stands anywhere, but only once. -/
theorem tagged_object_eq_ok {place : Place} {tag : String} {variants : List (String × α)} {ms : List (String × Json)}
    {y : α × Parts} : tagged place tag variants (.object ms) = .ok y ↔
      (∃ v, Parts.valuesOf [tag] ms = [v] ∧ tagOf place variants v = .ok y.1) ∧
        .members (ms.filter (·.1 != tag)) = y.2 := by
  have seen := Parts.map_snd_occurrences [tag] ms
  unfold tagged
  dsimp only
  match h : Parts.occurrences [tag] ms with
  | [] => simp [← seen, h]
  | [(_, v)] =>
      dsimp only
      rw [pair_eq_ok]
      simp [← seen, h]
  | (_, v) :: _ :: _ => simp [← seen, h, bind_eq_ok]

theorem tagged_head {place : Place} {tag name : String} {variants : List (String × α)} {rest : List (String × Json)}
    {a : α} (fresh : ∀ m ∈ rest, m.1 ≠ tag) (known : variant variants name = .ok a) :
    tagged place tag variants (.object ((tag, .string name) :: rest)) = .ok (a, .members rest) := by
  have others : rest.filter (fun m => m.1 != tag) = rest := by
    rw [List.filter_eq_self]
    intro m hm
    exact bne_iff_ne.mpr (fresh m hm)
  have alone : Parts.valuesOf [tag] ((tag, .string name) :: rest) = [.string name] := by
    rw [Parts.valuesOf_cons, if_pos List.mem_cons_self, Parts.valuesOf_eq_nil]
    intro m hm named
    exact fresh m hm (List.mem_singleton.mp named)
  refine tagged_object_eq_ok.mpr ⟨⟨.string name, alone, known⟩, ?_⟩
  simp [others]

theorem tagged_array_eq_ok {place : Place} {tag : String} {variants : List (String × α)} {xs : List Json}
    {y : α × Parts} : tagged place tag variants (.array xs) = .ok y ↔
      ∃ v rest, xs = v :: rest ∧ tagOf place variants v = .ok y.1 ∧ .elements rest = y.2 := by
  cases xs with
  | nil => simp [tagged]
  | cons v rest =>
      unfold tagged
      dsimp only
      rw [pair_eq_ok]
      simp

theorem mem_of_variant {variants : List (String × α)} {name : String} {a : α} (known : variant variants name = .ok a) :
    (name, a) ∈ variants := by
  unfold variant at known
  split at known
  · rename_i found
    cases known
    obtain ⟨before, after, rfl, _⟩ := List.lookup_eq_some_iff.mp found
    simp
  · cases known

theorem mem_of_tagOf {place : Place} {variants : List (String × α)} {j : Json} {a : α}
    (known : tagOf place variants j = .ok a) : ∃ name, (name, a) ∈ variants := by
  unfold tagOf at known
  split at known
  · exact ⟨_, mem_of_variant known⟩
  · split at known
    · rename_i v found
      cases known
      split at found
      · exact ⟨v.1, List.mem_of_getElem? found⟩
      · cases found
    · cases known
    · cases known
  · cases known

theorem mem_of_tagged {place : Place} {tag : String} {variants : List (String × α)} {j : Json} {y : α × Parts}
    (taken : tagged place tag variants j = .ok y) : ∃ name, (name, y.1) ∈ variants := by
  cases j with
  | object ms =>
      obtain ⟨⟨_, _, known⟩, _⟩ := tagged_object_eq_ok.mp taken
      exact mem_of_tagOf known
  | array xs =>
      obtain ⟨_, _, _, known, _⟩ := tagged_array_eq_ok.mp taken
      exact mem_of_tagOf known
  | _ => cases taken

/-! Formats. -/

namespace Format

def encode (f : Format α) (a : α) : Value := .ofJson (f.write a)

def decode (f : Format α) (v : Value) : Except Failure α := f.ofJson v.json

theorem decode_eq_ok {f : Format α} {v : Value} {a : α} : f.decode v = .ok a ↔ f.read v.json = .ok a := mapError_eq_ok

end Format
end GraphClient.Wire
