import GraphClient.Proofs.Json.Faithful
import GraphClient.Proofs.Wire.Readings

/-!
Readers that do not see whether a document is in normal form. They combine as readers do, so that a document may be
looked at as it was written, whatever its normal form does to the order of its members.
-/
namespace GraphClient.Wire

variable {α β : Type}

/-- A document and its normal form read the same, as long as the normal form loses nothing. -/
def Steady (read : Reader α) : Prop := ∀ j : Json, j.Faithful → ∀ a, read j.normalize = .ok a ↔ read j = .ok a

namespace Parts

def normalize : Parts → Parts
  | members ms => members (Entries.collect (Json.normalizeMembers ms))
  | elements xs => elements (Json.normalizeItems xs)

inductive Faithful : Parts → Prop
  | members {ms : List (String × Json)} : (Entries.names ms).Nodup → (∀ m ∈ ms, m.2.Faithful) → Faithful (.members ms)
  | elements {xs : List Json} : (∀ x ∈ xs, x.Faithful) → Faithful (.elements xs)

def Steady (parts : Parts → Reading α) : Prop :=
  ∀ p : Parts, p.Faithful → ∀ a, parts p.normalize = .done a ↔ parts p = .done a

theorem valuesOf_map_normalizeMember (names : List String) (ms : List (String × Json)) :
    valuesOf names (ms.map Json.normalizeMember) = (valuesOf names ms).map Json.normalize := by
  rw [valuesOf, valuesOf, List.filter_map, List.map_map, List.map_map]
  rfl

theorem valuesOf_normalize_perm (names : List String) {ms : List (String × Json)}
    (distinct : (Entries.names ms).Nodup) : (valuesOf names (Entries.collect (Json.normalizeMembers ms))).Perm
      ((valuesOf names ms).map Json.normalize) := by
  rw [← valuesOf_map_normalizeMember]
  exact ((Json.collect_normalizeMembers_perm distinct).filter _).map _

theorem values_normalize_perm {p : Parts} (h : p.Faithful) (position : Nat) (names : List String) :
    (p.normalize.values position names).Perm ((p.values position names).map Json.normalize) := by
  cases h with
  | members distinct _ => exact valuesOf_normalize_perm names distinct
  | elements _ =>
      rw [normalize, values, values, Json.normalizeItems_eq, List.getElem?_map, Option.toList_map]

theorem faithful_of_mem_valuesOf (names : List String) {ms : List (String × Json)} (each : ∀ m ∈ ms, m.2.Faithful) :
    ∀ v ∈ valuesOf names ms, v.Faithful := by
  intro v member
  obtain ⟨m, found, rfl⟩ := List.mem_map.mp member
  exact each m (List.mem_of_mem_filter found)

theorem Faithful.values {p : Parts} (h : p.Faithful) {position : Nat} {names : List String} {v : Json}
    (member : v ∈ p.values position names) : v.Faithful := by
  cases h with
  | members _ each => exact faithful_of_mem_valuesOf _ each v member
  | elements each => exact each v (List.mem_of_getElem? (Option.mem_toList.mp member))

theorem exists_read_normalize_iff {read : Reader α} (steady : Wire.Steady read) {l k : List Json} {a : α}
    (same : l.Perm (k.map Json.normalize)) (faithful : ∀ v ∈ k, v.Faithful) :
    (∃ v, l = [v] ∧ read v = .ok a) ↔ ∃ v, k = [v] ∧ read v = .ok a := by
  constructor
  · rintro ⟨_, single, done⟩
    obtain ⟨v, rfl, rfl⟩ := (Json.perm_map_singleton_iff same).mp single
    exact ⟨v, rfl, (steady v (faithful v List.mem_cons_self) a).mp done⟩
  · rintro ⟨v, rfl, done⟩
    exact ⟨_, (Json.perm_map_singleton_iff same).mpr ⟨v, rfl, rfl⟩, (steady v (faithful v List.mem_cons_self) a).mpr done⟩

theorem Faithful.filter {ms : List (String × Json)} (distinct : (Entries.names ms).Nodup)
    (each : ∀ m ∈ ms, m.2.Faithful) (keep : String → Bool) : (Parts.members (ms.filter fun m => keep m.1)).Faithful :=
  .members ((List.filter_sublist.map _).nodup distinct) fun m hm => each m (List.mem_of_mem_filter hm)

theorem Faithful.of_tagged {place : Place} {tag : String} {variants : List (String × α)} {j : Json} {y : α × Parts}
    (faithful : j.Faithful) (taken : tagged place tag variants j = .ok y) : y.2.Faithful := by
  cases faithful with
  | object distinct each =>
      rw [← (tagged_object_eq_ok.mp taken).2]
      exact Faithful.filter distinct each fun n => n != tag
  | array each =>
      obtain ⟨v, rest, rfl, _, same⟩ := tagged_array_eq_ok.mp taken
      rw [← same]
      exact .elements (List.forall_mem_cons.mp each).2
  | _ => cases taken

/-- Taking members out before sorting comes to the same as taking them out afterwards. -/
theorem normalize_filter {ms : List (String × Json)} (distinct : (Entries.names ms).Nodup) (keep : String → Bool) :
    normalize (members (ms.filter fun m => keep m.1)) =
      members ((Entries.collect (Json.normalizeMembers ms)).filter fun m => keep m.1) := by
  have kept : (Entries.names (ms.filter fun m => keep m.1)).Nodup := (List.filter_sublist.map _).nodup distinct
  have sorted : Entries.Sorted ((Entries.collect (Json.normalizeMembers ms)).filter fun m => keep m.1) :=
    (Entries.sorted_collect _).sublist (List.filter_sublist.map _)
  have same := (Json.collect_normalizeMembers_perm distinct).filter fun m => keep m.1
  rw [List.filter_map] at same
  refine congrArg members (Entries.eq_of_sorted_of_perm (Entries.sorted_collect _) sorted ?_)
  exact (Json.collect_normalizeMembers_perm kept).trans same.symm

namespace Steady

theorem pure (a : α) : Steady fun _ => (Pure.pure a : Reading α) := fun _ _ _ => Iff.rfl

theorem map {x : Parts → Reading α} (f : α → β) (h : Steady x) : Steady fun p => f <$> x p := by
  intro p faithful b
  simp only [Reading.map_eq_done, h p faithful]

theorem seq {f : Parts → Reading (α → β)} {x : Parts → Reading α} (hf : Steady f) (hx : Steady x) :
    Steady fun p => f p <*> x p := by
  intro p faithful b
  simp only [Reading.seq_eq_done, hf p faithful, hx p faithful]

variable {read : Reader α} (steady : Wire.Steady read) (position : Nat) (name : String)
include steady

theorem slot (others : List String) (absent : Option α) :
    Steady fun p => p.slot position name others absent read := by
  intro p faithful a
  have same := values_normalize_perm faithful position (name :: others)
  simp only [slot_eq_done, exists_read_normalize_iff steady same fun v => faithful.values, Json.perm_map_nil_iff same]

theorem required : Steady fun p => p.required position name read := slot steady position name [] none

theorem defaulting (absent : α) : Steady fun p => p.defaulting position name absent read :=
  slot steady position name [] (some absent)

end Steady

theorem fits_normalize {p : Parts} {n : Nat} : p.normalize.Fits n ↔ p.Fits n := by
  cases p with
  | members ms => exact Iff.rfl
  | elements xs => rw [normalize, Fits, Fits, Json.normalizeItems_eq, List.length_map]

theorem Steady.read {parts : Parts → Reading α} (h : Steady parts) (size : Nat) {p : Parts} (faithful : p.Faithful)
    (a : α) : p.normalize.read size parts = .ok a ↔ p.read size parts = .ok a := by
  rw [read_eq_ok, read_eq_ok, h p faithful, fits_normalize]

end Parts

/-! Readers of single documents. -/

namespace Steady

/-- A normal form is a container if the document is one, and otherwise it is the document. -/
theorem of_scalars {read : Reader α} (array : ∀ xs a, read (.array xs) ≠ .ok a)
    (object : ∀ ms a, read (.object ms) ≠ .ok a) : Steady read := by
  intro j faithful a
  rcases faithful.normalize_cases with same | ⟨xs, rfl, _⟩ | ⟨ms, rfl, _⟩
  · rw [same]
  · simp [Json.normalize, array]
  · simp [Json.normalize, object]

theorem bool : Steady Wire.bool := of_scalars (fun _ _ => nofun) (fun _ _ => nofun)

theorem text : Steady Wire.text := of_scalars (fun _ _ => nofun) (fun _ _ => nofun)

theorem uint32 : Steady Wire.uint32 := of_scalars (fun _ _ => nofun) (fun _ _ => nofun)

theorem uint64 : Steady Wire.uint64 := of_scalars (fun _ _ => nofun) (fun _ _ => nofun)

theorem size : Steady Wire.size := of_scalars (fun _ _ => nofun) (fun _ _ => nofun)

theorem value : Steady Wire.value := by
  intro j _ v
  have same : Value.ofJson j.normalize = Value.ofJson j := Value.ofJson_json (.ofJson j)
  rw [Wire.value, Wire.value, same]

theorem functor {read : Reader α} (h : Steady read) (f : α → β) : Steady fun j => f <$> read j := by
  intro j faithful b
  simp only [map_eq_ok, h j faithful]

theorem optional {read : Reader α} (h : Steady read) : Steady (Wire.optional read) := by
  have cases_null : ∀ (j : Json) (o : Option α),
      Wire.optional read j = .ok o ↔ j = .null ∧ none = o ∨ j ≠ .null ∧ ∃ a, read j = .ok a ∧ some a = o := by
    intro j o
    cases j <;> simp [Wire.optional, map_eq_ok]
  intro j faithful o
  simp only [cases_null, ne_eq, faithful.normalize_eq_null_iff, h j faithful]

theorem mapM {read : Reader α} (h : Steady read) {xs : List Json} (faithful : ∀ x ∈ xs, x.Faithful) (as : List α) :
    (Json.normalizeItems xs).mapM read = .ok as ↔ xs.mapM read = .ok as := by
  rw [Json.normalizeItems_eq]
  exact mapM_map_congr (fun x hx => h x (faithful x hx)) as

theorem list {read : Reader α} (h : Steady read) : Steady (Wire.list read) := by
  intro j faithful as
  rcases faithful.normalize_cases with same | ⟨xs, rfl, each⟩ | ⟨ms, rfl, _⟩
  · rw [same]
  · exact h.mapM each as
  · exact Iff.rfl

theorem record {parts : Parts → Reading α} (h : Parts.Steady parts) (wanted : String) (size : Nat) :
    Steady (Wire.record wanted size parts) := by
  intro j faithful a
  rcases faithful.normalize_cases with same | ⟨xs, rfl, each⟩ | ⟨ms, rfl, distinct, each⟩
  · rw [same]
  · exact h.read size (.elements each) a
  · exact h.read size (.members distinct each) a

theorem tagOf (place : Place) (variants : List (String × α)) : Steady (Wire.tagOf place variants) :=
  of_scalars (fun _ _ => nofun) (fun _ _ => nofun)

theorem choice (place : Place) (variants : List (String × α)) : Steady (Wire.choice place variants) := by
  intro j faithful a
  rcases faithful.normalize_cases with same | ⟨xs, rfl, _⟩ | ⟨ms, rfl, distinct, members⟩
  · rw [same]
  · exact Iff.rfl
  · have sorted := Json.collect_normalizeMembers_perm distinct
    simp only [Json.normalize, choice_object_eq_ok]
    constructor
    · rintro ⟨_, single, named, nothing⟩
      obtain ⟨m, rfl, rfl⟩ := (Json.perm_map_singleton_iff sorted).mp single
      have inner := members m List.mem_cons_self
      rw [Json.normalizeMember, inner.normalize_eq_null_iff, inner.normalize_eq_empty_iff] at nothing
      exact ⟨m, rfl, named, nothing⟩
    · rintro ⟨m, rfl, named, nothing⟩
      have inner := members m List.mem_cons_self
      rw [← inner.normalize_eq_null_iff, ← inner.normalize_eq_empty_iff] at nothing
      exact ⟨Json.normalizeMember m, rfl, named, nothing⟩

theorem tagged_normalize {place : Place} {tag : String} {variants : List (String × α)} {j : Json}
    (faithful : j.Faithful) {y : α × Parts} : Wire.tagged place tag variants j.normalize = .ok y ↔
      ∃ p, Wire.tagged place tag variants j = .ok (y.1, p) ∧ p.normalize = y.2 := by
  cases faithful with
  | array items =>
      -- the tag is the first element, and elements keep their order
      rename_i xs
      match xs with
      | [] => exact iff_of_false nofun (by rintro ⟨_, ⟨⟩, _⟩)
      | v :: xs =>
          obtain ⟨first, _⟩ := List.forall_mem_cons.mp items
          simp [Json.normalize, Json.normalizeItems, tagged_array_eq_ok, tagOf place variants v first, Parts.normalize]
  | object distinct members =>
      have same := Parts.valuesOf_normalize_perm [tag] distinct
      simp only [Json.normalize, tagged_object_eq_ok, and_assoc, exists_and_left, exists_eq_left',
        Parts.exists_read_normalize_iff (tagOf place variants) same (Parts.faithful_of_mem_valuesOf [tag] members),
        Parts.normalize_filter distinct (· != tag)]
  | integer low high =>
      rw [Json.normalize, Json.ofInt, if_pos ⟨low, high⟩]
      exact iff_of_false nofun (by rintro ⟨_, ⟨⟩, _⟩)
  | float finite =>
      rw [Json.normalize, Json.ofFloat, if_pos finite]
      exact iff_of_false nofun (by rintro ⟨_, ⟨⟩, _⟩)
  | null | bool | string => exact iff_of_false nofun (by rintro ⟨_, ⟨⟩, _⟩)

theorem tagged (rest : α → Parts → Except Fault β) {variants : List (String × α)}
    (each : ∀ v ∈ variants, ∀ p : Parts, p.Faithful → ∀ b, rest v.2 p.normalize = .ok b ↔ rest v.2 p = .ok b)
    (place : Place) (tag : String) :
    Steady fun j => Wire.tagged place tag variants j >>= fun y => rest y.1 y.2 := by
  intro j faithful b
  simp only [bind_eq_ok, Prod.exists, tagged_normalize faithful]
  constructor
  · rintro ⟨k, _, ⟨p, taken, rfl⟩, done⟩
    obtain ⟨name, member⟩ := mem_of_tagged taken
    exact ⟨k, p, taken, (each _ member p (.of_tagged faithful taken) b).mp done⟩
  · rintro ⟨k, p, taken, done⟩
    obtain ⟨name, member⟩ := mem_of_tagged taken
    exact ⟨k, _, ⟨p, taken, rfl⟩, (each _ member p (.of_tagged faithful taken) b).mpr done⟩

theorem map {read : Reader α} (h : Steady read) : Steady (Wire.map read) := by
  intro j faithful r
  rcases faithful.normalize_cases with same | ⟨xs, rfl, _⟩ | ⟨ms, rfl, distinct, members⟩
  · rw [same]
  · exact Iff.rfl
  · have sorted := Json.collect_normalizeMembers_perm distinct
    let entry (m : String × Json) : Except Fault (String × α) := (m.1, ·) <$> read m.2
    have named : ∀ l, ms.mapM entry = .ok l → (Entries.names l).Nodup := by
      intro l done
      have same : Entries.names l = Entries.names ms := by
        refine map_eq_of_mapM_eq_ok (fun m _ e done => ?_) done
        obtain ⟨_, _, rfl⟩ := map_eq_ok.mp done
        rfl
      exact same ▸ distinct
    -- members are read where they stand, and sorting comes last
    have each := mapM_map_congr (f := entry) (g := Json.normalizeMember) (l := ms) fun m hm e => by
      simp only [entry, Json.normalizeMember, map_eq_ok, h m.2 (members m hm)]
    change Record.ofList <$> (Entries.collect (Json.normalizeMembers ms)).mapM entry = .ok r ↔
      Record.ofList <$> ms.mapM entry = .ok r
    simp only [map_eq_ok]
    constructor
    · rintro ⟨l, done, rfl⟩
      obtain ⟨k, done, same⟩ := mapM_perm sorted.symm done
      have done := (each k).mp done
      exact ⟨k, done, Record.ext (Entries.collect_eq_of_perm same (named k done))⟩
    · rintro ⟨l, done, rfl⟩
      obtain ⟨k, read, same⟩ := mapM_perm sorted ((each l).mpr done)
      exact ⟨k, read, Record.ext (Entries.collect_eq_of_perm same.symm (named l done)).symm⟩

theorem props : Steady Wire.props := .map .value

end Steady

/-! What a reader gives. -/

def Yields (P : α → Prop) (read : Reader α) : Prop := ∀ j : Json, j.Faithful → ∀ a, read j = .ok a → P a

namespace Yields

variable {P : α → Prop} {read : Reader α} (h : Yields P read)
include h

theorem list : Yields (fun as => ∀ a ∈ as, P a) (Wire.list read) := by
  intro j faithful as done
  cases faithful with
  | array each =>
      exact forall_of_mapM_eq_ok (fun x hx => h x (each x hx)) done
  | _ => cases done

theorem required {p : Parts} (faithful : p.Faithful) {position : Nat} {name : String} {a : α}
    (done : p.required position name read = .done a) : P a := by
  obtain ⟨v, only, seen⟩ := Parts.required_eq_done.mp done
  exact h v (faithful.values (only ▸ List.mem_singleton_self v)) a seen

end Yields

end GraphClient.Wire
