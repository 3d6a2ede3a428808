import Mathlib.Data.List.Sort
import Mathlib.Data.String.Basic
import GraphClient.Json.Basic

/-!
Documents of which the normal form loses nothing. In those no name has two members and no number is out of range, so
that bringing them into normal form only sorts the members.
-/
namespace GraphClient

namespace Entries

variable {α : Type}

theorem place_perm {name : String} {a : α} {l : List (String × α)} (fresh : name ∉ names l) :
    (place name a l).Perm ((name, a) :: l) := by
  induction l with
  | nil => exact .refl _
  | cons head rest ih =>
      obtain ⟨n, b⟩ := head
      rw [names, List.map_cons, List.mem_cons, not_or] at fresh
      simp only [place]
      split
      · exact .refl _
      · split
        · exact ((ih fresh.2).cons (n, b)).trans (.swap (name, a) (n, b) rest)
        · rename_i nlt ngt
          exact absurd (String.le_antisymm (String.not_lt.mp ngt) (String.not_lt.mp nlt)) fresh.1

theorem collect_perm {l : List (String × α)} (distinct : (names l).Nodup) : (collect l).Perm l := by
  -- entries are placed among those that came before, so the induction is over every accumulator
  suffices ∀ acc, (names (acc ++ l)).Nodup → (l.foldl (fun acc e => place e.1 e.2 acc) acc).Perm (acc ++ l) from
    this [] distinct
  clear distinct
  induction l with
  | nil => simp
  | cons head rest ih =>
      intro acc distinct
      have moved : (head :: (acc ++ rest)).Perm (acc ++ head :: rest) := List.perm_middle.symm
      have apart := ((moved.map Prod.fst).nodup_iff.mpr distinct)
      rw [List.map_cons, List.nodup_cons] at apart
      have fresh : head.1 ∉ names acc := fun member => apart.1 (by simp [List.map_append, member])
      have placed : (place head.1 head.2 acc ++ rest).Perm (head :: (acc ++ rest)) := (place_perm fresh).append_right rest
      have distinct' : (names (place head.1 head.2 acc ++ rest)).Nodup :=
        ((placed.trans moved).map Prod.fst).nodup_iff.mpr distinct
      exact (ih _ distinct').trans (placed.trans moved)

theorem eq_of_sorted_of_perm {l k : List (String × α)} (hl : Sorted l) (hk : Sorted k) (same : l.Perm k) : l = k := by
  have antisymm : ∀ e f : String × α, e ∈ l → f ∈ k → e.1 < f.1 → f.1 < e.1 → e = f := by
    intro e f _ _ less greater
    exact absurd (String.lt_trans less greater) (String.lt_irrefl _)
  exact same.eq_of_pairwise antisymm (List.pairwise_map.mp hl) (List.pairwise_map.mp hk)

/-- The order in which entries come does not count, as long as their names are distinct. -/
theorem collect_eq_of_perm {l k : List (String × α)} (same : l.Perm k) (distinct : (names l).Nodup) :
    collect l = collect k := by
  have distinct' : (names k).Nodup := (same.map Prod.fst).nodup_iff.mp distinct
  refine eq_of_sorted_of_perm (sorted_collect l) (sorted_collect k) ?_
  exact (collect_perm distinct).trans (same.trans (collect_perm distinct').symm)

end Entries

namespace Json

theorem perm_map_nil_iff {α β : Type} {l : List β} {k : List α} {f : α → β} (h : l.Perm (k.map f)) :
    l = [] ↔ k = [] := by
  rw [← List.length_eq_zero_iff, ← List.length_eq_zero_iff, h.length_eq, List.length_map]

theorem perm_map_singleton_iff {α β : Type} {l : List β} {k : List α} {f : α → β} {b : β} (h : l.Perm (k.map f)) :
    l = [b] ↔ ∃ a, k = [a] ∧ f a = b := by
  rw [← List.map_eq_singleton_iff]
  constructor
  · rintro rfl
    exact List.perm_singleton.mp h.symm
  · intro single
    rw [single] at h
    exact List.perm_singleton.mp h

@[elab_as_elim]
theorem induction_parts {motive : Json → Prop} (null : motive .null) (bool : ∀ b, motive (.bool b))
    (integer : ∀ n, motive (.integer n)) (float : ∀ x, motive (.float x)) (string : ∀ s, motive (.string s))
    (array : ∀ xs, (∀ x ∈ xs, motive x) → motive (.array xs))
    (object : ∀ ms : List (String × Json), (∀ m ∈ ms, motive m.2) → motive (.object ms)) (j : Json) : motive j :=
  @Json.rec motive (fun xs => ∀ x ∈ xs, motive x) (fun ms => ∀ m ∈ ms, motive m.2) (fun m => motive m.2)
    null bool integer float string array object
    (by simp) (fun _ _ first rest => by simpa using ⟨first, rest⟩)
    (by simp) (fun _ _ first rest => List.forall_mem_cons.mpr ⟨first, rest⟩) (fun _ _ h => h) j

inductive Faithful : Json → Prop
  | null : Faithful .null
  | bool {b} : Faithful (.bool b)
  | integer {n : Int} : -0x8000000000000000 ≤ n → n < 0x10000000000000000 → Faithful (.integer n)
  | float {x : Float} : x.isFinite = true → Faithful (.float x)
  | string {s} : Faithful (.string s)
  | array {xs} : (∀ x ∈ xs, Faithful x) → Faithful (.array xs)
  | object {ms : List (String × Json)} : (Entries.names ms).Nodup → (∀ m ∈ ms, Faithful m.2) → Faithful (.object ms)

attribute [simp] Faithful.null Faithful.bool Faithful.string

theorem array_map_faithful {α : Type} {write : α → Json} {l : List α} (each : ∀ a ∈ l, (write a).Faithful) :
    (array (l.map write)).Faithful := .array (List.forall_mem_map.mpr each)

theorem object_entries_faithful {α : Type} {write : α → Json} {r : Record α}
    (each : ∀ e ∈ r.entries, (write e.2).Faithful) : (object (r.entries.map fun e => (e.1, write e.2))).Faithful := by
  refine .object ?_ (List.forall_mem_map.mpr each)
  have names : Entries.names (r.entries.map fun e => (e.1, write e.2)) = Entries.names r.entries := by simp
  rw [names]
  exact r.sorted.imp fun less => String.ne_of_lt less

theorem itemsWellFormed_iff {xs : List Json} : ItemsWellFormed xs ↔ ∀ x ∈ xs, x.WellFormed := by
  induction xs with
  | nil => simp [ItemsWellFormed]
  | cons x xs ih => simp [ItemsWellFormed, ih]

theorem WellFormed.faithful {j : Json} (h : j.WellFormed) : j.Faithful := by
  induction j using induction_parts with
  | null => exact .null
  | bool b => exact .bool
  | integer n => exact .integer h.1 h.2
  | float x => exact .float h
  | string s => exact .string
  | array xs ih => exact .array fun x hx => ih x hx (itemsWellFormed_iff.mp h x hx)
  | object ms ih =>
      refine .object (h.1.imp fun less => String.ne_of_lt less) fun m hm => ih m hm ?_
      exact membersWellFormed_iff.mp h.2 m hm

theorem ofFloat_faithful (x : Float) : (ofFloat x).Faithful := (ofFloat_wellFormed x).faithful

def normalizeMember (m : String × Json) : String × Json := (m.1, m.2.normalize)

theorem normalizeItems_eq (xs : List Json) : normalizeItems xs = xs.map normalize := by
  induction xs with
  | nil => rfl
  | cons x xs ih => rw [normalizeItems, ih, List.map_cons]

theorem normalizeMembers_eq (ms : List (String × Json)) : normalizeMembers ms = ms.map normalizeMember := by
  induction ms with
  | nil => rfl
  | cons m ms ih => rw [normalizeMembers, ih, List.map_cons, normalizeMember]

theorem names_map_normalizeMember (ms : List (String × Json)) :
    Entries.names (ms.map normalizeMember) = Entries.names ms := by
  rw [Entries.names, List.map_map]
  rfl

theorem collect_normalizeMembers_perm {ms : List (String × Json)} (distinct : (Entries.names ms).Nodup) :
    (Entries.collect (normalizeMembers ms)).Perm (ms.map normalizeMember) := by
  rw [normalizeMembers_eq]
  exact Entries.collect_perm ((names_map_normalizeMember ms).symm ▸ distinct)

/-- Only the normal forms of containers differ from what is written. -/
theorem Faithful.normalize_cases {j : Json} (h : j.Faithful) :
    j.normalize = j ∨ (∃ xs, j = .array xs ∧ ∀ x ∈ xs, x.Faithful) ∨
      ∃ ms, j = .object ms ∧ (Entries.names ms).Nodup ∧ ∀ m ∈ ms, m.2.Faithful := by
  cases h with
  | integer low high => exact .inl (if_pos ⟨low, high⟩)
  | float finite => exact .inl (if_pos finite)
  | array items => exact .inr (.inl ⟨_, rfl, items⟩)
  | object distinct members => exact .inr (.inr ⟨_, rfl, distinct, members⟩)
  | _ => exact .inl rfl

theorem Faithful.normalize_eq_null_iff {j : Json} (h : j.Faithful) : j.normalize = .null ↔ j = .null := by
  rcases h.normalize_cases with same | ⟨xs, rfl, _⟩ | ⟨ms, rfl, _⟩
  · rw [same]
  · simp [normalize]
  · simp [normalize]

theorem Faithful.normalize_eq_empty_iff {j : Json} (h : j.Faithful) : j.normalize = .object [] ↔ j = .object [] := by
  rcases h.normalize_cases with same | ⟨xs, rfl, _⟩ | ⟨ms, rfl, distinct, _⟩
  · rw [same]
  · simp [normalize]
  · rw [normalize, Json.object.injEq, Json.object.injEq, perm_map_nil_iff (collect_normalizeMembers_perm distinct)]

theorem depth_array_le_iff {xs : List Json} {d : Nat} : (array xs).depth ≤ d + 1 ↔ ∀ x ∈ xs, x.depth ≤ d := by
  have items : depthItems xs ≤ d ↔ ∀ x ∈ xs, x.depth ≤ d := by
    induction xs with
    | nil => simp [depthItems]
    | cons x xs ih => simp [depthItems, ih]
  rw [depth, Nat.add_le_add_iff_right, items]

theorem depth_object_le_iff {ms : List (String × Json)} {d : Nat} :
    (object ms).depth ≤ d + 1 ↔ ∀ m ∈ ms, m.2.depth ≤ d := by
  have members : depthMembers ms ≤ d ↔ ∀ m ∈ ms, m.2.depth ≤ d := by
    induction ms with
    | nil => simp [depthMembers]
    | cons m ms ih => simp [depthMembers, ih]
  rw [depth, Nat.add_le_add_iff_right, members]

theorem Faithful.depth_normalize {j : Json} (h : j.Faithful) : j.normalize.depth = j.depth := by
  induction j using induction_parts with
  | array xs ih =>
      cases h with
      | array items =>
          -- a depth is known by its upper bounds, and those speak of the members in any order
          refine eq_of_forall_ge_iff fun d => ?_
          cases d with
          | zero => simp [normalize, depth]
          | succ d =>
              rw [normalize, depth_array_le_iff, depth_array_le_iff, normalizeItems_eq, List.forall_mem_map]
              exact forall₂_congr fun x hx => by rw [ih x hx (items x hx)]
  | object ms ih =>
      cases h with
      | object distinct members =>
          refine eq_of_forall_ge_iff fun d => ?_
          cases d with
          | zero => simp [normalize, depth]
          | succ d =>
              have sorted := collect_normalizeMembers_perm distinct
              rw [normalize, depth_object_le_iff, depth_object_le_iff]
              simp only [sorted.mem_iff, List.forall_mem_map]
              exact forall₂_congr fun m hm => by rw [normalizeMember, ih m hm (members m hm)]
  | _ =>
      rcases h.normalize_cases with same | ⟨_, ⟨⟩, _⟩ | ⟨_, ⟨⟩, _⟩
      rw [same]

end Json
end GraphClient
