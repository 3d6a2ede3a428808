import GraphClient.Proofs.Outcome
import GraphClient.Proofs.Text.Trimming
import GraphClient.Query.Builder

/-!
The variables of a builder: what declaring one does to the list, and what the names that are taken have in common.
-/
namespace GraphClient

theorem nonBlank_eq_ok_iff {what text name : String} :
    nonBlank what text = .ok name ↔ name = text ∧ Text.isBlank text = false := by
  unfold nonBlank
  by_cases blank : Text.isBlank text = true
  · simp [blank]
  · simp [blank, eq_comm]

theorem nonBlank_eq_error_iff (what text : String) :
    (∃ f, nonBlank what text = .error f) ↔ Text.isBlank text = true := by
  unfold nonBlank
  by_cases blank : Text.isBlank text = true
  · simp [blank]
  · simp [blank]

theorem trimmed_eq (what text : String) : trimmed what text = (fun _ => Text.trim text) <$> nonBlank what text := by
  unfold trimmed nonBlank
  by_cases blank : Text.isBlank text = true
  · rw [if_pos blank]
    rfl
  · rw [if_neg blank]
    rfl

theorem trimmed_eq_ok {what text id : String} (h : trimmed what text = .ok id) : Text.Trimmed id := by
  rw [trimmed_eq] at h
  obtain ⟨name, passed, rfl⟩ := map_eq_ok.mp h
  exact Text.trimmed_trim (nonBlank_eq_ok_iff.mp passed).2

theorem isBlank_autoName (i : Nat) : Text.isBlank (autoName i) = false := by
  have letter : ∀ k < 26, Text.isWhite (Char.ofNat (97 + k)) = false := by decide
  have shown := letter (i % 26) (Nat.mod_lt i (by omega))
  unfold autoName Text.isBlank
  split <;> simp [shown]

section
variable (name : String) (label : Option String) (vars : List Variable)

/-- A label that is there stays; otherwise the new one is taken. -/
theorem find?_declare_self : (declare name label vars).find? (·.name == name) =
    some ⟨name, ((vars.find? (·.name == name)).bind (·.label)).or label⟩ := by
  induction vars with
  | nil => simp [declare]
  | cons v vars ih =>
      by_cases here : v.name = name
      · simp [declare, here]
      · simpa [declare, here] using ih

theorem find?_declare_of_ne {x : String} (other : x ≠ name) :
    (declare name label vars).find? (·.name == x) = vars.find? (·.name == x) := by
  induction vars with
  | nil => simp [declare, Ne.symm other]
  | cons v vars ih =>
      by_cases here : v.name = name
      · simp [declare, here, Ne.symm other]
      · simp [declare, here, List.find?_cons, ih]

theorem names_declare : (declare name label vars).map (·.name) =
    if name ∈ vars.map (·.name) then vars.map (·.name) else vars.map (·.name) ++ [name] := by
  induction vars with
  | nil => simp [declare]
  | cons v vars ih =>
      by_cases here : v.name = name
      · simp [declare, here]
      · have apart : name ≠ v.name := Ne.symm here
        simp only [declare, if_neg here, List.map_cons, ih, List.mem_cons, apart, false_or]
        split <;> rfl

theorem nodup_names_declare (h : (vars.map (·.name)).Nodup) : ((declare name label vars).map (·.name)).Nodup := by
  rw [names_declare]
  split
  · exact h
  · rename_i new
    rw [List.nodup_append]
    refine ⟨h, by simp, fun a ha b hb => ?_⟩
    rw [List.mem_singleton.mp hb]
    rintro rfl
    exact new ha

theorem mem_names_declare {x : String} :
    x ∈ (declare name label vars).map (·.name) ↔ x ∈ vars.map (·.name) ∨ x = name := by
  rw [names_declare]
  split
  · rename_i old
    exact ⟨.inl, fun h => h.elim id fun same => same ▸ old⟩
  · simp

theorem mem_labels_declare {v : Variable} (h : v ∈ declare name label vars) {l : String} (labelled : l ∈ v.label) :
    l ∈ label ∨ ∃ u ∈ vars, l ∈ u.label := by
  induction vars with
  | nil =>
      rw [declare, List.mem_singleton] at h
      subst h
      exact .inl labelled
  | cons u vars ih =>
      by_cases here : u.name = name
      · rw [declare, if_pos here] at h
        rcases List.mem_cons.mp h with rfl | later
        · cases own : u.label with
          | some m => exact .inr ⟨u, List.mem_cons_self, by simpa [own] using labelled⟩
          | none => exact .inl (by simpa [own] using labelled)
        · exact .inr ⟨v, List.mem_cons_of_mem u later, labelled⟩
      · rw [declare, if_neg here] at h
        rcases List.mem_cons.mp h with rfl | later
        · exact .inr ⟨v, List.mem_cons_self, labelled⟩
        · exact (ih later).imp_right fun ⟨w, hw, found⟩ => ⟨w, List.mem_cons_of_mem u hw, found⟩

end

theorem find?_of_nodup {vars : List Variable} (distinct : (vars.map (·.name)).Nodup) {v : Variable} (member : v ∈ vars) :
    vars.find? (·.name == v.name) = some v := by
  induction vars with
  | nil => cases member
  | cons u vars ih =>
      obtain ⟨apart, distinct⟩ := List.nodup_cons.mp distinct
      rcases List.mem_cons.mp member with rfl | later
      · exact List.find?_cons_of_pos (beq_self_eq_true _)
      · have other : u.name ≠ v.name := by
          intro same
          exact apart (List.mem_map.mpr ⟨v, later, same.symm⟩)
        rw [List.find?_cons_of_neg (by simpa using other)]
        exact ih distinct later

namespace Builder

def Declares (b : Builder) (name : String) : Prop := name ∈ b.vars.map (·.name)

theorem declares_iff_find? {b : Builder} {name : String} : b.Declares name ↔ ∃ v, b.find? name = some v ∧ v.name = name := by
  constructor
  · intro declared
    obtain ⟨v, member, same⟩ := List.mem_map.mp declared
    cases found : b.find? name with
    | none =>
        have := List.find?_eq_none.mp found v member
        simp [same] at this
    | some u =>
        have matching := List.find?_some found
        exact ⟨u, rfl, by simpa using matching⟩
  · rintro ⟨v, found, rfl⟩
    exact List.mem_map.mpr ⟨v, List.mem_of_find?_eq_some found, rfl⟩

theorem declares_of_label {b : Builder} {name label : String} (h : b.label? name = some label) : b.Declares name := by
  obtain ⟨v, found, _⟩ := Option.bind_eq_some_iff.mp h
  have matching := List.find?_some found
  exact declares_iff_find?.mpr ⟨v, found, by simpa using matching⟩

end Builder
end GraphClient
