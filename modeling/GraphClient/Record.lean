/-!
Finite maps from names, kept in increasing order of the names. `Record.ofList` lets the last entry of a
name count, and `Record.ofList_entries` says that it gives a map back from its own entries.
-/
namespace GraphClient

namespace Entries

variable {α : Type}

abbrev names (l : List (String × α)) : List String := l.map Prod.fst

abbrev Sorted (l : List (String × α)) : Prop := (names l).Pairwise (· < ·)

/-- Puts an entry where its name belongs and in place of an older entry of that name. -/
def place (name : String) (a : α) : List (String × α) → List (String × α)
  | [] => [(name, a)]
  | (n, b) :: rest =>
    if name < n then (name, a) :: (n, b) :: rest
    else if n < name then (n, b) :: place name a rest
    else (name, a) :: rest

/-- Sorts entries by name; of several entries of one name the last counts. -/
def collect (l : List (String × α)) : List (String × α) := l.foldl (fun acc e => place e.1 e.2 acc) []

theorem mem_place {name : String} {a : α} {l : List (String × α)} {e : String × α}
    (h : e ∈ place name a l) : e = (name, a) ∨ e ∈ l := by
  induction l with
  | nil => simpa [place] using h
  | cons head rest ih =>
    simp only [place] at h
    split at h
    · simpa using h
    · split at h
      · rcases List.mem_cons.1 h with rfl | h
        · simp
        · rcases ih h with rfl | h <;> simp [*]
      · rcases List.mem_cons.1 h with rfl | h <;> simp [*]

theorem sorted_place {name : String} {a : α} {l : List (String × α)} (h : Sorted l) :
    Sorted (place name a l) := by
  induction l with
  | nil => exact List.pairwise_singleton _ _
  | cons head rest ih =>
    obtain ⟨n, b⟩ := head
    simp only [Sorted, names, List.map_cons, List.pairwise_cons] at h ih ⊢
    simp only [place]
    split
    · rename_i lt
      simp only [List.map_cons, List.pairwise_cons, List.mem_cons]
      refine ⟨fun m hm => ?_, h⟩
      rcases hm with rfl | hm
      · exact lt
      · exact String.lt_trans lt (h.1 m hm)
    · split
      · rename_i gt
        simp only [List.map_cons, List.pairwise_cons]
        refine ⟨?_, ih h.2⟩
        intro m hm
        obtain ⟨e, he, rfl⟩ := List.mem_map.1 hm
        rcases mem_place he with rfl | he
        · exact gt
        · exact h.1 _ (List.mem_map.2 ⟨e, he, rfl⟩)
      · rename_i nlt ngt
        have same : name = n := String.le_antisymm (String.not_lt.1 ngt) (String.not_lt.1 nlt)
        subst same
        simpa using h

private theorem collect_aux (l acc : List (String × α)) :
    (Sorted acc → Sorted (l.foldl (fun acc e => place e.1 e.2 acc) acc)) ∧
      ∀ e ∈ l.foldl (fun acc e => place e.1 e.2 acc) acc, e ∈ acc ∨ e ∈ l := by
  induction l generalizing acc with
  | nil => simp
  | cons head rest ih =>
    refine ⟨fun h => (ih _).1 (sorted_place h), fun e he => ?_⟩
    rcases (ih _).2 e he with h | h
    · rcases mem_place h with rfl | h <;> simp [*]
    · simp [h]

theorem sorted_collect (l : List (String × α)) : Sorted (collect l) := (collect_aux l []).1 .nil

theorem mem_collect {l : List (String × α)} {e : String × α} (h : e ∈ collect l) : e ∈ l := by
  simpa using (collect_aux l []).2 e h

theorem place_last {name : String} {a : α} {l : List (String × α)} (h : ∀ n ∈ names l, n < name) :
    place name a l = l ++ [(name, a)] := by
  induction l with
  | nil => rfl
  | cons head rest ih =>
    obtain ⟨n, b⟩ := head
    simp only [names, List.map_cons, List.mem_cons, forall_eq_or_imp] at h
    have nlt : ¬ name < n := fun lt => String.lt_irrefl _ (String.lt_trans lt h.1)
    simp [place, nlt, h.1, ih h.2]

theorem collect_eq_self {l : List (String × α)} (h : Sorted l) : collect l = l := by
  suffices ∀ acc, Sorted (acc ++ l) → l.foldl (fun acc e => place e.1 e.2 acc) acc = acc ++ l by
    simpa [collect] using this [] (by simpa using h)
  clear h
  induction l with
  | nil => simp
  | cons head rest ih =>
    intro acc h
    have last : ∀ n ∈ names acc, n < head.1 := by
      intro n hn
      simp only [Sorted, names, List.map_append, List.map_cons, List.pairwise_append] at h
      exact h.2.2 n hn _ (by simp)
    rw [List.foldl_cons, place_last last, ih _ (by simpa using h)]
    simp

end Entries

/-- A finite map from names, in increasing order of the names. -/
structure Record (α : Type) where
  entries : List (String × α)
  sorted : Entries.Sorted entries

namespace Record

variable {α β : Type}

instance [BEq α] : BEq (Record α) := ⟨fun a b => a.entries == b.entries⟩

def empty : Record α := ⟨[], .nil⟩

instance : Inhabited (Record α) := ⟨empty⟩

def ofList (l : List (String × α)) : Record α := ⟨Entries.collect l, Entries.sorted_collect l⟩

def insert (r : Record α) (name : String) (a : α) : Record α :=
  ⟨Entries.place name a r.entries, Entries.sorted_place r.sorted⟩

def get? (r : Record α) (name : String) : Option α := r.entries.lookup name

def contains (r : Record α) (name : String) : Bool := (r.get? name).isSome

theorem get?_eq_none_iff {r : Record α} {name : String} : r.get? name = none ↔ r.contains name = false := by
  simp [contains]

def names (r : Record α) : List String := Entries.names r.entries

@[ext] theorem ext {r s : Record α} (h : r.entries = s.entries) : r = s := by
  cases r; cases s; simp_all

theorem ofList_entries (r : Record α) : ofList r.entries = r := ext (Entries.collect_eq_self r.sorted)

end Record

abbrev NameSet := Record Unit

namespace NameSet

def ofList (l : List String) : NameSet := Record.ofList (l.map (·, ()))

end NameSet
end GraphClient
