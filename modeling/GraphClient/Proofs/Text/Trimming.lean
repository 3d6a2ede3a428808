import GraphClient.Text.Blank

/-!
Trimming takes white space off both ends and nothing else, so that a text with something to show keeps it. Trimming the
start takes it off the front alone.
-/
namespace GraphClient.Text

/-- A text that shows something and has no white space at either end. -/
structure Trimmed (s : String) : Prop where
  notBlank : isBlank s = false
  first : ∀ c ∈ s.toList.head?, isWhite c = false
  last : ∀ c ∈ s.toList.getLast?, isWhite c = false

theorem all_dropWhile {α : Type} (p : α → Bool) (l : List α) : (l.dropWhile p).all p = l.all p := by
  induction l with
  | nil => rfl
  | cons a l ih =>
      by_cases h : p a = true
      · simp [h, ih]
      · simp [h]

theorem head?_dropWhile {α : Type} {p : α → Bool} {l : List α} {a : α} (h : a ∈ (l.dropWhile p).head?) :
    p a = false := by
  have first := List.head?_dropWhile_not p l
  rw [Option.mem_def.mp h] at first
  exact first

/-- A text without the white space in front of it. -/
structure TrimsStart (s rest : String) : Prop where
  front : ∃ blanks, isBlank blanks = true ∧ s = blanks ++ rest
  first : ∀ c ∈ rest.toList.head?, isWhite c = false

theorem dropWhile_eq_self {α : Type} {p : α → Bool} {l : List α} (first : ∀ a ∈ l.head?, p a = false) :
    l.dropWhile p = l := by
  cases l with
  | nil => rfl
  | cons a l => exact List.dropWhile_cons_of_neg (Bool.eq_false_iff.mp (first a rfl))

theorem trimStart_append {blanks : String} (blank : isBlank blanks = true) (s : String) :
    trimStart (blanks ++ s) = trimStart s := by
  rw [trimStart, String.toList_append, List.dropWhile_append_of_pos (List.all_eq_true.mp blank), trimStart]

theorem trimStart_eq_iff {s rest : String} : trimStart s = rest ↔ TrimsStart s rest := by
  constructor
  · rintro rfl
    refine ⟨⟨String.ofList (s.toList.takeWhile isWhite), ?_, ?_⟩, fun c first => ?_⟩
    · rw [isBlank, String.toList_ofList, List.all_takeWhile]
    · rw [trimStart, ← String.ofList_append, List.takeWhile_append_dropWhile, String.ofList_toList]
    · rw [trimStart, String.toList_ofList] at first
      exact head?_dropWhile first
  · rintro ⟨⟨blanks, blank, rfl⟩, first⟩
    rw [trimStart_append blank, trimStart, dropWhile_eq_self first, String.ofList_toList]

theorem trimsStart_trimStart (s : String) : TrimsStart s (trimStart s) := trimStart_eq_iff.mp rfl

theorem trimStart_eq_self_iff {s : String} : trimStart s = s ↔ ∀ c ∈ s.toList.head?, isWhite c = false := by
  refine trimStart_eq_iff.trans ⟨TrimsStart.first, fun first => ⟨⟨"", rfl, ?_⟩, first⟩⟩
  exact String.empty_append.symm

theorem trimStart_trimStart (s : String) : trimStart (trimStart s) = trimStart s :=
  trimStart_eq_self_iff.mpr (trimsStart_trimStart s).first

theorem isBlank_trim (s : String) : isBlank (trim s) = isBlank s := by
  simp only [isBlank, trim, String.toList_ofList, List.all_reverse, all_dropWhile]

theorem trimmed_trim {s : String} (h : isBlank s = false) : Trimmed (trim s) := by
  refine ⟨by rw [isBlank_trim, h], fun c first => ?_, fun c last => ?_⟩
  · simp only [trim, String.toList_ofList] at first
    -- what is left is the front of the text without its first blanks, so it starts like it
    have front : ((s.toList.dropWhile isWhite).reverse.dropWhile isWhite).reverse <+: s.toList.dropWhile isWhite := by
      rw [← List.reverse_suffix, List.reverse_reverse]
      exact List.dropWhile_suffix isWhite
    obtain ⟨rest, same⟩ := front
    apply head?_dropWhile (l := s.toList)
    rw [← same, List.head?_append, Option.mem_def.mp first]
    rfl
  · simp only [trim, String.toList_ofList, List.getLast?_reverse] at last
    exact head?_dropWhile last

end GraphClient.Text
