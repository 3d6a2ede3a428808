import Mathlib.Data.List.Nodup
import Mathlib.Data.List.Perm.Subperm
import GraphClient.Proofs.Query.History

/-!
Automatic names. The search for the next one ends, since no two numbers share a name and only finitely many names are
taken. A target without a name of its own therefore always comes to a new variable, and a builder gives no automatic
name out twice.
-/
namespace GraphClient

/-! A number can be read off its name: the letter tells it modulo 26, and what stands behind the letter how often 26
goes into it. -/

theorem head?_autoName (i : Nat) : (autoName i).toList.head? = some (Char.ofNat (97 + i % 26)) := by
  unfold autoName
  split <;> simp

theorem ofDigitChars_tail_autoName (i : Nat) : Nat.ofDigitChars 10 (autoName i).toList.tail 0 = i / 26 := by
  by_cases single : i < 26
  · have none : i / 26 = 0 := Nat.div_eq_of_lt single
    simp [autoName, single, none]
  · simp [autoName, single]

theorem toNat_letter : ∀ k < 26, (Char.ofNat (97 + k)).toNat = 97 + k := by
  decide

theorem autoName_injective : Function.Injective autoName := by
  intro i j same
  have letters : Char.ofNat (97 + i % 26) = Char.ofNat (97 + j % 26) := by
    rw [← Option.some.injEq, ← head?_autoName, ← head?_autoName, same]
  have remainders : 97 + i % 26 = 97 + j % 26 := by
    rw [← toNat_letter _ (Nat.mod_lt i (by decide)), ← toNat_letter _ (Nat.mod_lt j (by decide)), letters]
  have quotients : i / 26 = j / 26 := by
    rw [← ofDigitChars_tail_autoName, ← ofDigitChars_tail_autoName, same]
  omega

theorem declare_of_not_mem {name : String} (label : Option String) {vars : List Variable}
    (new : name ∉ vars.map (·.name)) : declare name label vars = vars ++ [⟨name, label⟩] := by
  induction vars with
  | nil => rfl
  | cons v vars ih =>
      rw [List.map_cons, List.mem_cons, not_or] at new
      rw [declare, if_neg (Ne.symm new.1), ih new.2, List.cons_append]

namespace Builder

/-- The search from a number on, turn by turn: the name it comes to, and the number behind it. -/
inductive Seeks (b : Builder) : Nat → String → Nat → Prop
  | free {i : Nat} : ¬ b.Declares (autoName i) → Seeks b i (autoName i) (i + 1)
  | taken {i next : Nat} {name : String} : b.Declares (autoName i) → Seeks b (i + 1) name next → Seeks b i name next

variable (b : Builder)

/-- Among one number more than there are variables, one has a free name. -/
theorem exists_free (i : Nat) : ∃ j ∈ List.range' i (b.vars.length + 1), ¬ b.Declares (autoName j) := by
  by_contra none
  have inside : (List.range' i (b.vars.length + 1)).map autoName ⊆ b.vars.map (·.name) := by
    intro name member
    obtain ⟨j, within, rfl⟩ := List.mem_map.mp member
    by_contra free
    exact none ⟨j, within, free⟩
  have distinct : ((List.range' i (b.vars.length + 1)).map autoName).Nodup :=
    (List.nodup_range' 1).map autoName_injective
  have fits := (distinct.subperm inside).length_le
  rw [List.length_map, List.length_map, List.length_range'] at fits
  omega

theorem isNone_find?_iff (name : String) : (b.find? name).isNone = true ↔ ¬ b.Declares name := by
  rw [declares_iff_find?, Option.isNone_iff_eq_none]
  constructor
  · rintro none ⟨v, found, _⟩
    rw [none] at found
    cases found
  · intro undeclared
    cases found : b.find? name with
    | none => rfl
    | some v => exact absurd ⟨v, found, by simpa using List.find?_some found⟩ undeclared

theorem freshNumber_first :
    (b.counter ≤ b.freshNumber ∧ b.freshNumber ≤ b.counter + b.vars.length) ∧
    ¬ b.Declares (autoName b.freshNumber) ∧ ∀ j, b.counter ≤ j → j < b.freshNumber → b.Declares (autoName j) := by
  unfold freshNumber
  cases found : (List.range' b.counter (b.vars.length + 1)).find? fun i => (b.find? (autoName i)).isNone with
  | none =>
      obtain ⟨j, within, free⟩ := b.exists_free b.counter
      exact absurd ((b.isNone_find?_iff _).mpr free) (List.find?_eq_none.mp found j within)
  | some n =>
      obtain ⟨free, within, earlier⟩ := List.find?_range'_eq_some.mp found
      rw [List.mem_range'_1] at within
      refine ⟨⟨within.1, Nat.lt_succ_iff.mp within.2⟩, (b.isNone_find?_iff _).mp free, ?_⟩
      intro j counted before
      have occupied := earlier j counted before
      rw [Bool.not_eq_true', ← Bool.not_eq_true, b.isNone_find?_iff, not_not] at occupied
      exact occupied

variable {b} in
theorem seeks_of_first {n : Nat} (free : ¬ b.Declares (autoName n)) {turns i : Nat} (reached : i + turns = n)
    (earlier : ∀ j, i ≤ j → j < n → b.Declares (autoName j)) : b.Seeks i (autoName n) (n + 1) := by
  induction turns generalizing i with
  | zero =>
      rw [Nat.add_zero] at reached
      rw [reached]
      exact .free free
  | succ turns ih =>
      apply Seeks.taken (earlier i (Nat.le_refl i) (by omega))
      apply ih (by omega)
      intro j later before
      exact earlier j (by omega) before

theorem seeks_freshNumber : b.Seeks b.counter (autoName b.freshNumber) (b.freshNumber + 1) := by
  obtain ⟨⟨low, _⟩, free, earlier⟩ := b.freshNumber_first
  exact seeks_of_first free (Nat.add_sub_cancel' low) earlier

structure Gains (b : Builder) (name label : String) (d : Builder) : Prop where
  fresh : ¬ b.Declares name
  vars : d.vars = b.vars ++ [⟨name, some label⟩]
  current : d.current = some name

variable {b} {d : Builder} {label : String}

theorem gains_of_declare (vars : d.vars = declare (autoName b.freshNumber) (some label) b.vars)
    (current : d.current = some (autoName b.freshNumber)) : b.Gains (autoName b.freshNumber) label d where
  fresh := b.freshNumber_first.2.1
  vars := vars.trans (declare_of_not_mem _ b.freshNumber_first.2.1)
  current := current

theorem matchTarget_gains (made : (matchTarget (.label label)).outcome b = (.ok (), d)) :
    b.Gains (autoName b.freshNumber) label d := by
  obtain ⟨_, _, ⟨counter, rfl⟩, rfl⟩ := (b.matchTarget_oneEdit (.label label)).edit made
  exact gains_of_declare rfl rfl

theorem traverse_gains {edgeType : Option String} (made : (traverse edgeType (.label label)).outcome b = (.ok (), d)) :
    b.Gains (autoName b.freshNumber) label d := by
  obtain ⟨_, _, ⟨source, counter, rfl⟩, rfl⟩ := (b.traverse_oneEdit edgeType (.label label)).edit made
  exact gains_of_declare rfl rfl

variable (b label) in
theorem nodes_outcome : (nodes label).outcome b =
    (do matchTarget (.label label); pure (autoName b.freshNumber) : Action Builder String).outcome b := by
  simp only [nodes, matchTarget, resolve, freshName, Action.outcome_bind, Action.outcome_check]
  cases nonBlank "label" label <;> rfl

theorem nodes_gains {name : String} (made : (nodes label).outcome b = (.ok name, d)) : b.Gains name label d := by
  rw [nodes_outcome, Action.outcome_bind] at made
  cases here : (matchTarget (.label label)).outcome b with
  | mk r c =>
      rw [here] at made
      cases r with
      | error f => cases made
      | ok _ =>
          cases made
          exact matchTarget_gains here

theorem resolve_label_passes (shown : Text.isBlank label = false) : (resolve (.label label)).outcome b =
    (.ok (autoName b.freshNumber, some label), { b with counter := b.freshNumber + 1 }) := by
  have passed : nonBlank "label" label = .ok label := nonBlank_eq_ok_iff.mpr ⟨rfl, shown⟩
  simp only [resolve, freshName, Action.outcome_bind, Action.outcome_check, passed]
  rfl

theorem matchTarget_passes (shown : Text.isBlank label = false) :
    ∃ d, (matchTarget (.label label)).outcome b = (.ok (), d) :=
  ⟨(Edit.declare (autoName b.freshNumber) (some label) (b.freshNumber + 1)).apply b,
    Action.outcome_bind_ok (resolve_label_passes shown) _⟩

theorem nodes_passes (shown : Text.isBlank label = false) : ∃ name d, (nodes label).outcome b = (.ok name, d) := by
  obtain ⟨d, made⟩ := matchTarget_passes (b := b) shown
  refine ⟨autoName b.freshNumber, d, ?_⟩
  rw [nodes_outcome, Action.outcome_bind_ok made, Action.outcome_pure]

theorem traverse_passes {edgeType : Option String} (placed : b.current ≠ none)
    (typed : ∀ t ∈ edgeType, Text.isBlank t = false) (shown : Text.isBlank label = false) :
    ∃ d, (traverse edgeType (.label label)).outcome b = (.ok (), d) := by
  obtain ⟨source, current⟩ := Option.ne_none_iff_exists'.mp placed
  have types : edgeType.mapM (nonBlank "edge type") = .ok edgeType := by
    cases edgeType with
    | none => rfl
    | some t => exact map_eq_ok.mpr ⟨t, nonBlank_eq_ok_iff.mpr ⟨rfl, typed t rfl⟩, rfl⟩
  refine ⟨(Edit.follow source edgeType (autoName b.freshNumber) (some label) (b.freshNumber + 1)).apply b, ?_⟩
  simp only [traverse, Action.outcome_bind, Action.outcome_get, current, mapM_check, types, resolve_label_passes shown]
  rfl

/-! Names given out over a run. -/

/-- The name that a target has been given, read off where it has led to; one with its own name is given none. -/
def issuedTo (d : Builder) : Target → List String
  | .label _ => d.current.toList
  | .variable _ _ => []

def targetsIssued (b : Builder) : List Target → List String
  | [] => []
  | target :: targets => (matchTarget target).ifMade b fun _ d => d.issuedTo target ++ targetsIssued d targets

def Call.issued (b : Builder) : Call → List String
  | nodes label _ => (Builder.nodes label).ifMade b fun name _ => [name]
  | matchTarget target => (Builder.matchTarget target).ifMade b fun _ d => d.issuedTo target
  | matchAll targets => b.targetsIssued targets
  | traverse edgeType target => (Builder.traverse edgeType target).ifMade b fun _ d => d.issuedTo target
  | direction _ | inScope _ _ | whereVar _ _ | distinct | request _ | select _ => []

def issued (b : Builder) : List Call → List String
  | [] => []
  | c :: cs => c.issued b ++ (b.step c).issued cs

/-- Names are given out on the way from one builder to the other: all different, free before and taken afterwards. -/
structure Issues (b : Builder) (names : List String) (d : Builder) : Prop where
  distinct : names.Nodup
  fresh : ∀ x ∈ names, ¬ b.Declares x
  taken : ∀ x ∈ names, d.Declares x
  kept : ∀ x, b.Declares x → d.Declares x

namespace Issues

theorem quiet (kept : ∀ x, b.Declares x → d.Declares x) : b.Issues [] d := by
  constructor
  · exact List.nodup_nil
  · simp
  · simp
  · exact kept

theorem append {c : Builder} {first later : List String} (h : b.Issues first c) (k : c.Issues later d) :
    b.Issues (first ++ later) d := by
  constructor
  · rw [List.nodup_append]
    refine ⟨h.distinct, k.distinct, ?_⟩
    rintro x old _ new rfl
    exact k.fresh x new (h.taken x old)
  · intro x member
    rcases List.mem_append.mp member with old | new
    · exact h.fresh x old
    · intro declared
      exact k.fresh x new (h.kept x declared)
  · intro x member
    rcases List.mem_append.mp member with old | new
    · exact k.kept x (h.taken x old)
    · exact k.taken x new
  · intro x declared
    exact k.kept x (h.kept x declared)

end Issues

theorem Gains.issues {name : String} (h : b.Gains name label d) : b.Issues [name] d := by
  have names : d.vars.map (·.name) = b.vars.map (·.name) ++ [name] := by rw [h.vars, List.map_append]; rfl
  constructor
  · exact List.nodup_singleton name
  · exact List.forall_mem_singleton.mpr h.fresh
  · intro x member
    rw [Declares, names]
    exact List.mem_append_right _ member
  · intro x declared
    rw [Declares, names]
    exact List.mem_append_left _ declared

theorem Gains.issuedTo {name : String} (h : b.Gains name label d) : d.issuedTo (.label label) = [name] := by
  rw [Builder.issuedTo, h.current]
  rfl

theorem issues_of_oneEdit {α : Type} {a : Action Builder α} {goes : α → Edit → Prop} (h : OneEdit b a goes)
    (target : Target)
    (gains : ∀ label v d, target = .label label → a.outcome b = (.ok v, d) → ∃ name, b.Gains name label d) :
    b.Issues (a.ifMade b fun _ d => d.issuedTo target) (a.outcome b).2 := by
  cases h with
  | failed failed =>
      rw [Action.ifMade, failed]
      exact .quiet fun _ => id
  | @made v e made _ _ =>
      rw [Action.ifMade, made]
      rcases target with label | ⟨_, _⟩
      · obtain ⟨name, gained⟩ := gains label v _ rfl made
        change b.Issues ((e.apply b).issuedTo (.label label)) (e.apply b)
        rw [gained.issuedTo]
        exact gained.issues
      · -- a target with a name of its own is given none
        exact .quiet fun _ => e.declares_apply

variable (b)

theorem matchTarget_issues (target : Target) : b.Issues ((matchTarget target).ifMade b fun _ d => d.issuedTo target)
    ((matchTarget target).outcome b).2 := by
  apply issues_of_oneEdit (b.matchTarget_oneEdit target)
  rintro label _ d rfl made
  exact ⟨_, matchTarget_gains made⟩

theorem traverse_issues (edgeType : Option String) (target : Target) :
    b.Issues ((traverse edgeType target).ifMade b fun _ d => d.issuedTo target)
      ((traverse edgeType target).outcome b).2 := by
  apply issues_of_oneEdit (b.traverse_oneEdit edgeType target)
  rintro label _ d rfl made
  exact ⟨_, traverse_gains made⟩

theorem matchAll_issues (targets : List Target) :
    b.Issues (b.targetsIssued targets) ((matchAll targets).outcome b).2 := by
  rw [b.matchAll_leaves targets]
  induction targets generalizing b with
  | nil => exact .quiet fun _ => id
  | cons target targets ih =>
      have first := b.matchTarget_issues target
      rw [targetsIssued, List.forM_eq_forM, List.forM_cons, Action.outcome_bind]
      rw [Action.ifMade] at first ⊢
      cases here : (matchTarget target).outcome b with
      | mk r d =>
          rw [here] at first
          cases r with
          | error f => exact first
          | ok _ => exact first.append (ih d)

theorem nodes_issues (label : String) (body : List ScopeCall) :
    b.Issues ((Call.nodes label body).issued b) (b.step (.nodes label body)) := by
  rw [step, Call.run, Call.issued, Action.ifMade, Action.outcome_bind]
  cases here : (nodes label).outcome b with
  | mk r d =>
      cases b.nodes_oneEdit label with
      | failed failed =>
          rw [failed] at here
          cases here
          exact .quiet fun _ => id
      | made made _ _ =>
          rw [made] at here
          cases here
          have gained := nodes_gains made
          have declared := gained.issues.taken _ List.mem_cons_self
          have referred := ScopeCall.runAll_refers body declared
          exact gained.issues.append (.quiet fun _ => referred.declares)

theorem step_quiet (c : Call) : b.Issues [] (b.step c) := by
  obtain ⟨es, edited, _⟩ := (b.step_changes c).edited
  exact .quiet fun _ => edited.declares

theorem step_issues (c : Call) : b.Issues (c.issued b) (b.step c) := by
  cases c with
  | nodes label body => exact b.nodes_issues label body
  | matchTarget target => exact b.matchTarget_issues target
  | matchAll targets => exact b.matchAll_issues targets
  | traverse edgeType target => exact b.traverse_issues edgeType target
  | direction _ | inScope _ _ | whereVar _ _ | distinct | request _ | select _ => exact b.step_quiet _

theorem after_issues (calls : List Call) : b.Issues (b.issued calls) (b.after calls) := by
  induction calls generalizing b with
  | nil => exact .quiet fun _ => id
  | cons c calls ih => exact (b.step_issues c).append (ih (b.step c))

structure NamesAfresh (b : Builder) : Prop where
  search : ∃ name next, b.Seeks b.counter name next ∧ next ≤ b.counter + b.vars.length + 1 ∧ ¬ b.Declares name ∧
    freshName.outcome b = (.ok name, { b with counter := next })
  nodes : ∀ label name d, (nodes label).outcome b = (.ok name, d) → b.Gains name label d
  matchTarget : ∀ label d, (matchTarget (.label label)).outcome b = (.ok (), d) → ∃ name, b.Gains name label d
  traverse : ∀ edgeType label d, (traverse edgeType (.label label)).outcome b = (.ok (), d) →
    ∃ name, b.Gains name label d
  accepted : ∀ label, Text.isBlank label = false →
    (∃ name d, (Builder.nodes label).outcome b = (.ok name, d)) ∧
    (∃ d, (Builder.matchTarget (.label label)).outcome b = (.ok (), d)) ∧
    ∀ edgeType, (∀ t ∈ edgeType, Text.isBlank t = false) → b.current ≠ none →
      ∃ d, (Builder.traverse edgeType (.label label)).outcome b = (.ok (), d)

theorem namesAfresh : b.NamesAfresh where
  search := by
    obtain ⟨⟨_, near⟩, free, _⟩ := b.freshNumber_first
    exact ⟨_, _, b.seeks_freshNumber, Nat.succ_le_succ near, free, rfl⟩
  nodes _ _ _ := nodes_gains
  matchTarget _ _ made := ⟨_, matchTarget_gains made⟩
  traverse _ _ _ made := ⟨_, traverse_gains made⟩
  accepted _ shown := by
    refine ⟨nodes_passes shown, matchTarget_passes shown, ?_⟩
    intro edgeType typed placed
    exact traverse_passes placed typed shown

/-- Numbers have names of their own, so that the search for a free one ends in every state. What it finds goes to a new
variable, and whatever calls are made, no name is given out twice. -/
theorem autoNames_fresh : Function.Injective autoName ∧
    ∀ b : Builder, b.NamesAfresh ∧ ∀ calls, b.Issues (b.issued calls) (b.after calls) :=
  ⟨autoName_injective, fun b => ⟨b.namesAfresh, b.after_issues⟩⟩

example : (new none).issued [.matchTarget (.variable "b" none), .nodes "User" [.fail .closed],
      .matchAll [.label "Post", .variable "d" none, .label " "], .traverse none (.label "User")] =
    ["a", "c", "e"] := by decide +kernel

end Builder
end GraphClient
