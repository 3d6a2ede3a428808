import GraphClient.Proofs.Predicate.Meaning

/-!
The normal form of predicates: every group has at least two arguments, and no group is an argument of a group of its
own mode. Joining keeps the second half exactly, and collapsing brings about the first.
-/
namespace GraphClient.Predicate

def EveryGroup (P : Mode → List Predicate → Prop) (p : Predicate) : Prop :=
  ∀ (m : Mode) (args : List Predicate), m.group args ∈ p.parts → P m args

def Filled : Predicate → Prop := EveryGroup fun _ args => args ≠ []

def Wide : Predicate → Prop := EveryGroup fun _ args => 2 ≤ args.length

def Flat : Predicate → Prop := EveryGroup fun m args => ∀ inner, m.group inner ∉ args

def Normal (p : Predicate) : Prop := p.Wide ∧ p.Flat

/-- No group of two or more has an argument that collapses to a group of the same mode. -/
def FlatWritten : Predicate → Prop :=
  EveryGroup fun m args => 2 ≤ args.length → ∀ a ∈ args, ∀ inner, a.collapse ≠ m.group inner

section
variable {P : Mode → List Predicate → Prop}

theorem everyGroup_leaf {c : Comparison} : (leaf c).EveryGroup P := by
  intro m args part
  cases m <;> cases List.mem_singleton.mp part

theorem everyGroup_negate {p : Predicate} : (negate p).EveryGroup P ↔ p.EveryGroup P := by
  constructor
  · exact fun h m args part => h m args (List.mem_cons_of_mem _ part)
  · intro h m args part
    rcases List.mem_cons.mp part with same | deeper
    · cases m <;> cases same
    · exact h m args deeper

theorem everyGroup_group {m : Mode} {args : List Predicate} :
    (m.group args).EveryGroup P ↔ P m args ∧ ∀ a ∈ args, a.EveryGroup P := by
  constructor
  · intro h
    refine ⟨h m args (self_mem_parts _), fun a ha n inner part => h n inner ?_⟩
    rw [parts_group]
    exact List.mem_cons_of_mem _ (List.mem_flatMap.mpr ⟨a, ha, part⟩)
  · rintro ⟨top, below⟩ n inner part
    rw [parts_group] at part
    rcases List.mem_cons.mp part with same | deeper
    · obtain ⟨rfl, rfl⟩ := Mode.group_inj.mp same
      exact top
    · obtain ⟨a, ha, part⟩ := List.mem_flatMap.mp deeper
      exact below a ha n inner part

end

theorem flat_group_iff {m : Mode} {args : List Predicate} :
    (m.group args).Flat ↔ (∀ inner, m.group inner ∉ args) ∧ ∀ a ∈ args, a.Flat := everyGroup_group

theorem flatWritten_singleton_iff {m : Mode} {a : Predicate} : (m.group [a]).FlatWritten ↔ a.FlatWritten := by
  refine everyGroup_group.trans ⟨fun h => h.2 a List.mem_cons_self, fun h => ⟨by simp, ?_⟩⟩
  intro b hb
  rw [List.mem_singleton.mp hb]
  exact h

theorem Wide.filled {p : Predicate} (h : p.Wide) : p.Filled := by
  rintro m args part rfl
  exact absurd (h m [] part) (by simp)

/-! Collapsing. -/

theorem wide_collapsed {m : Mode} {ps : List Predicate} (some : ps ≠ []) (wide : ∀ p ∈ ps, p.Wide) :
    (m.collapsed ps).Wide := by
  match ps with
  | [p] => exact wide p (List.mem_singleton_self p)
  | p :: q :: rest => exact everyGroup_group.mpr ⟨by simp, wide⟩

theorem Filled.wide_collapse {p : Predicate} (h : p.Filled) : p.collapse.Wide := by
  induction p using induction_groups with
  | leaf c => exact everyGroup_leaf
  | group m args ih =>
      obtain ⟨some, filled⟩ := everyGroup_group.mp h
      rw [collapse_group]
      refine wide_collapsed (by simpa using some) fun q hq => ?_
      obtain ⟨a, ha, rfl⟩ := List.mem_map.mp hq
      exact ih a ha (filled a ha)
  | negate p ih => exact everyGroup_negate.mpr (ih (everyGroup_negate.mp h))

theorem Wide.collapse_eq_self {p : Predicate} (h : p.Wide) : p.collapse = p := by
  induction p using induction_groups with
  | leaf c => rfl
  | group m args ih =>
      obtain ⟨two, wide⟩ := everyGroup_group.mp h
      have same : args.map collapse = args :=
        (List.map_congr_left fun a ha => ih a ha (wide a ha)).trans (List.map_id' args)
      rw [collapse_group, same, Mode.collapsed_of_two_le two]
  | negate p ih => rw [collapse_negate, ih (everyGroup_negate.mp h)]

/-- Collapsing gives a flat predicate exactly when nothing that was written collapses into a group of its own mode. -/
theorem Filled.flat_collapse_iff {p : Predicate} (h : p.Filled) : p.collapse.Flat ↔ p.FlatWritten := by
  induction p using induction_groups with
  | leaf c => exact ⟨fun _ => everyGroup_leaf, fun _ => everyGroup_leaf⟩
  | group m args ih =>
      obtain ⟨some, filled⟩ := everyGroup_group.mp h
      rw [collapse_group]
      match args with
      | [a] => exact (ih a List.mem_cons_self (filled a List.mem_cons_self)).trans flatWritten_singleton_iff.symm
      | a :: b :: rest =>
          rw [Mode.collapsed_of_two_le (by simp), flat_group_iff]
          refine Iff.trans (and_congr ?_ ?_) everyGroup_group.symm
          · constructor
            · intro none _ c hc inner same
              exact none inner (List.mem_map.mpr ⟨c, hc, same⟩)
            · intro none inner hm
              obtain ⟨c, hc, same⟩ := List.mem_map.mp hm
              exact none (by simp) c hc inner same
          · rw [List.forall_mem_map]
            exact forall_congr' fun c => forall_congr' fun hc => ih c hc (filled c hc)
  | negate p ih => exact everyGroup_negate.trans ((ih (everyGroup_negate.mp h)).trans everyGroup_negate.symm)

/-! Joining. -/

theorem Wide.operands {p : Predicate} (h : p.Wide) (m : Mode) :
    m.operands p ≠ [] ∧ ∀ q ∈ m.operands p, q.Wide := by
  rcases m.operands_cases p with whole | single
  · rw [whole] at h
    obtain ⟨two, wide⟩ := everyGroup_group.mp h
    exact ⟨List.ne_nil_of_length_pos (by omega), wide⟩
  · rw [single.1]
    exact ⟨List.cons_ne_nil p [], by simpa using h⟩

theorem Wide.join {p q : Predicate} (hp : p.Wide) (hq : q.Wide) (m : Mode) : (m.join p q).Wide := by
  obtain ⟨someLeft, left⟩ := hp.operands m
  obtain ⟨someRight, right⟩ := hq.operands m
  rw [Mode.join_eq]
  refine everyGroup_group.mpr ⟨?_, fun r hr => ?_⟩
  · have := List.length_pos_iff.mpr someLeft
    have := List.length_pos_iff.mpr someRight
    rw [List.length_append]
    omega
  · rcases List.mem_append.mp hr with hr | hr
    · exact left r hr
    · exact right r hr

theorem flat_operands_iff {m : Mode} {p : Predicate} :
    ((∀ inner, m.group inner ∉ m.operands p) ∧ ∀ q ∈ m.operands p, q.Flat) ↔ p.Flat := by
  rcases m.operands_cases p with whole | single
  · conv => rhs; rw [whole]
    exact flat_group_iff.symm
  · rw [single.1]
    have other : ∀ inner, m.group inner ∉ [p] := by
      intro inner member
      exact single.2 inner (List.mem_singleton.mp member).symm
    simp [other]

theorem flat_join_iff {m : Mode} {p q : Predicate} : (m.join p q).Flat ↔ p.Flat ∧ q.Flat := by
  rw [Mode.join_eq, flat_group_iff, ← flat_operands_iff (m := m) (p := p), ← flat_operands_iff (m := m) (p := q)]
  simp only [List.mem_append, not_or, or_imp, forall_and]
  exact and_and_and_comm

end GraphClient.Predicate
