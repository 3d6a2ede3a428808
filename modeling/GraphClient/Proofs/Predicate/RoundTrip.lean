import GraphClient.Proofs.Predicate.Reading

/-!
Predicates are read back as they were written, as long as every group has an argument and every float a number. The
tree that is written is looked at first, and only then whether it is a predicate.
-/
namespace GraphClient

open Wire

def Mode.connective : Mode → Connective
  | all => .all
  | any => .any

namespace Predicate

theorem toJsonItems_eq (ps : List Predicate) : toJsonItems ps = ps.map toJson := by
  induction ps with
  | nil => rfl
  | cons p ps ih => rw [toJsonItems, ih, List.map_cons]

theorem toJson_group (m : Mode) (args : List Predicate) : (m.group args).toJson =
    .object [("op", .string m.connective.text), ("args", .array (args.map toJson))] := by
  cases m <;> rw [Mode.group, toJson, toJsonItems_eq] <;> rfl

mutual

def written : Predicate → Written
  | leaf c => .leaf c
  | all args => .join .all (writtenItems args)
  | any args => .join .any (writtenItems args)
  | negate arg => .join .negate [written arg]

def writtenItems : List Predicate → List Written
  | [] => []
  | p :: ps => written p :: writtenItems ps

end

theorem writtenItems_eq (ps : List Predicate) : writtenItems ps = ps.map written := by
  induction ps with
  | nil => rfl
  | cons p ps ih => rw [writtenItems, ih, List.map_cons]

theorem written_group (m : Mode) (args : List Predicate) :
    (m.group args).written = .join m.connective (args.map written) := by
  cases m <;> rw [Mode.group, written, writtenItems_eq] <;> rfl

/-! The tree and the predicate. -/

namespace Written

theorem predicates_eq (ws : List Written) : predicates ws = ws.mapM predicate := by
  induction ws with
  | nil => rfl
  | cons w ws ih => rw [predicates, ih, List.mapM_cons]

theorem predicate_join (m : Mode) (args : List Written) (some : args ≠ []) :
    (join m.connective args).predicate = m.group <$> args.mapM predicate := by
  rw [← predicates_eq]
  cases args with
  | nil => exact absurd rfl some
  | cons w ws => cases m <;> rfl

@[elab_as_elim]
theorem induction_joins {motive : Written → Prop} (leaf : ∀ c, motive (.leaf c))
    (join : ∀ how args, (∀ w ∈ args, motive w) → motive (.join how args)) (w : Written) : motive w :=
  @Written.rec motive (fun args => ∀ w ∈ args, motive w) leaf join (by simp)
    (fun _ _ first rest => List.forall_mem_cons.mpr ⟨first, rest⟩) w

end Written

theorem written_of_predicate {w : Written} {p : Predicate} (meant : w.predicate = .ok p) : p.written = w := by
  induction w using Written.induction_joins generalizing p with
  | leaf c =>
      cases meant
      rfl
  | join how args ih =>
      -- both groups mean the same tree; a negation is a list that must have one element
      have groups : ∀ m : Mode, (Written.join m.connective args).predicate = .ok p →
          p.written = .join m.connective args := by
        intro m meant
        cases args with
        | nil => cases m <;> cases meant
        | cons w ws =>
            rw [Written.predicate_join m _ (List.cons_ne_nil w ws)] at meant
            obtain ⟨ps, each, rfl⟩ := map_eq_ok.mp meant
            rw [written_group, map_eq_of_mapM_eq_ok (fun w hw q => ih w hw) each, List.map_id']
      cases how with
      | all => exact groups .all meant
      | any => exact groups .any meant
      | negate =>
          match args with
          | [] => cases meant
          | [w] =>
              obtain ⟨q, inner, rfl⟩ := map_eq_ok.mp meant
              rw [written, ih w List.mem_cons_self inner]
          | _ :: _ :: _ => cases meant

theorem predicate_written (p q : Predicate) : p.written.predicate = .ok q ↔ p.Filled ∧ p = q := by
  induction p using induction_groups generalizing q with
  | leaf c => simp [written, Written.predicate, Filled, everyGroup_leaf, eq_comm]
  | group m args ih =>
      rw [written_group]
      by_cases none : args = []
      · subst none
        have empty : ¬ (m.group []).Filled := fun filled => (everyGroup_group.mp filled).1 rfl
        cases m <;> simp [Mode.connective, Written.predicate, empty]
      · rw [Written.predicate_join m _ (by simpa using none), map_eq_ok]
        simp only [mapM_map_eq_ok_iff (f := id) ih, Filled, everyGroup_group]
        simp [none]
  | negate p ih =>
      simp only [written, Written.predicate, map_eq_ok, ih, Filled, everyGroup_negate]
      simp

/-! Nodes. -/

theorem variant_every (k : PredicateKind) :
    variant (PredicateKind.every.map fun k => (k.text, k)) k.text = .ok k := by
  cases k with
  | join how => cases how <;> rfl
  | compare op => cases op <;> rfl
  | _ => rfl

namespace Written

theorem readWithin_node (levels : Nat) (place : Place) (k : PredicateKind) {rest : List (String × Json)}
    (fresh : ∀ m ∈ rest, m.1 ≠ "op") : readWithin (levels + 1) place (.object (("op", .string k.text) :: rest)) =
      ofKind (readWithin levels .inside) (.members rest) k := by
  change (tagged place "op" _ _ >>= fun y => ofKind (readWithin levels .inside) y.2 y.1) = _
  rw [tagged_head fresh (variant_every k)]
  rfl

def members (c : Comparison) : List (String × Json) :=
  [("var", .string c.var), ("prop", .string c.prop)] ++ c.test.operands

theorem comparison_members {test : Parts → Reading Test} {c : Comparison} {w : Written}
    (operands : ∀ t, test (.members (members c)) = .done t ↔ c.test.Finite ∧ c.test = t) :
    comparison test (.members (members c)) = .done w ↔ c.test.Finite ∧ .leaf c = w := by
  have var : Parts.valuesOf ["var"] (members c) = [.string c.var] := by
    cases h : c.test <;> simp [members, Test.operands, h]
  have prop : Parts.valuesOf ["prop"] (members c) = [.string c.prop] := by
    cases h : c.test <;> simp [members, Test.operands, h]
  simp only [comparison, Reading.seq_eq_done, Reading.map_eq_done, Parts.required_eq_done, Parts.values_members, var, prop,
    operands]
  simp [Wire.text]

theorem readBounds_written (a b : Bool) (bounds : Bool × Bool) :
    readBounds (.array [.bool a, .bool b]) = .ok bounds ↔ (a, b) = bounds := by
  simp [readBounds, Wire.bool, pure, Except.pure]

theorem ofKind_members (arg : Reader Written) (c : Comparison) (w : Written) :
    ofKind arg (.members (members c)) c.test.kind = .ok w ↔ c.test.Finite ∧ .leaf c = w := by
  obtain ⟨var, prop, test⟩ := c
  have literal := Literal.read_toJson .inside
  cases test with
  | compare op value =>
      refine Parts.read_members_eq_ok.trans (comparison_members fun t => ?_)
      simp [members, Test.operands, literal]
  | between low high a b =>
      refine Parts.read_members_eq_ok.trans (comparison_members fun t => ?_)
      simp [members, Test.operands, literal, readBounds_written]
  | oneOf values =>
      have listed : ∀ ls, Wire.list (Literal.read .inside) (.array (values.map Literal.toJson)) = .ok ls ↔
          (∀ l ∈ values, l.Finite) ∧ values.map id = ls := mapM_map_eq_ok_iff fun l _ => literal l
      refine Parts.read_members_eq_ok.trans (comparison_members fun t => ?_)
      simp [members, Test.operands, listed]
  | present | isNull | isNotNull =>
      refine Parts.read_members_eq_ok.trans (comparison_members fun t => ?_)
      simp

theorem members_fresh (c : Comparison) : ∀ m ∈ members c, m.1 ≠ "op" := by
  cases h : c.test <;> simp [members, Test.operands, h]

end Written

theorem toJson_leaf (c : Comparison) :
    (leaf c).toJson = .object (("op", .string c.test.kind.text) :: Written.members c) := by
  rw [toJson, Written.members]
  rfl

def joinToJson (how : Connective) (args : List Predicate) : Json :=
  .object [("op", .string how.text), ("args", .array (args.map toJson))]

theorem depth_of_joinToJson {how : Connective} {args : List Predicate} {levels : Nat}
    (enough : (joinToJson how args).depth ≤ levels + 1) : ∀ a ∈ args, a.toJson.depth ≤ levels := by
  intro a ha
  have inside : (Json.array (args.map toJson)).depth ≤ levels := Json.depth_object_le_iff.mp enough ("args", _) (by simp)
  cases levels with
  | zero => simp [Json.depth] at inside
  | succ levels => exact (Json.depth_array_le_iff.mp inside _ (List.mem_map_of_mem ha)).trans (Nat.le_succ levels)

theorem readWithin_joinToJson (how : Connective) (args : List Predicate) (levels : Nat) (place : Place) (w : Written)
    (each : ∀ a ∈ args, ∀ w, Written.readWithin levels .inside a.toJson = .ok w ↔ a.Finite ∧ a.written = w) :
    Written.readWithin (levels + 1) place (joinToJson how args) = .ok w ↔
      (∀ a ∈ args, a.Finite) ∧ .join how (args.map written) = w := by
  have listed : ∀ ws, Wire.list (Written.readWithin levels .inside) (.array (args.map toJson)) = .ok ws ↔
      (∀ a ∈ args, a.Finite) ∧ args.map written = ws := mapM_map_eq_ok_iff each
  have fresh : ∀ m ∈ [("args", Json.array (args.map toJson))], m.1 ≠ "op" := by simp
  change Written.readWithin (levels + 1) place (.object (("op", .string (PredicateKind.join how).text) :: _)) = _ ↔ _
  rw [Written.readWithin_node levels place _ fresh, Written.ofKind, Parts.read_members_eq_ok]
  simp [listed]

/-- With levels for all of it, a predicate is read as the tree that is written for it. -/
theorem readWithin_toJson {p : Predicate} {levels : Nat} (enough : p.toJson.depth ≤ levels) (place : Place) (w : Written) :
    Written.readWithin levels place p.toJson = .ok w ↔ p.Finite ∧ p.written = w := by
  -- each level of the tree takes one of the levels that the document leaves
  induction p using induction_groups generalizing levels place w with
  | leaf c =>
      rw [toJson_leaf] at enough ⊢
      cases levels with
      | zero => simp [Json.depth] at enough
      | succ levels =>
          rw [Written.readWithin_node levels place _ (Written.members_fresh c), Written.ofKind_members, finite_leaf, written]
  | group m args ih =>
      rw [toJson_group] at enough ⊢
      cases levels with
      | zero => simp [Json.depth] at enough
      | succ levels =>
          have inside := depth_of_joinToJson enough
          rw [finite_group, written_group]
          exact readWithin_joinToJson m.connective args levels place w fun a ha => ih a ha (inside a ha) .inside
  | negate p ih =>
      have same : (negate p).toJson = joinToJson .negate [p] := rfl
      rw [same] at enough ⊢
      cases levels with
      | zero => simp [joinToJson, Json.depth] at enough
      | succ levels =>
          have inside := depth_of_joinToJson enough p List.mem_cons_self
          have node := readWithin_joinToJson .negate [p] levels place w
          simp only [List.forall_mem_singleton] at node
          exact node (ih inside .inside)

theorem read_toJson (place : Place) (p q : Predicate) :
    Predicate.read place p.toJson = .ok q ↔ (p.Filled ∧ p.Finite) ∧ p = q := by
  simp only [read_eq_ok, Written.read, readWithin_toJson (Nat.le_refl _)]
  constructor
  · rintro ⟨_, ⟨finite, rfl⟩, meant⟩
    obtain ⟨filled, rfl⟩ := (predicate_written p q).mp meant
    exact ⟨⟨filled, finite⟩, rfl⟩
  · rintro ⟨⟨filled, finite⟩, rfl⟩
    exact ⟨p.written, ⟨finite, rfl⟩, (predicate_written p p).mpr ⟨filled, rfl⟩⟩

theorem joinToJson_faithful {how : Connective} {args : List Predicate} (each : ∀ a ∈ args, a.toJson.Faithful) :
    (joinToJson how args).Faithful := by
  have items := Json.array_map_faithful each
  exact .object (by simp) (by simp [Json.Faithful.string, items])

theorem operands_faithful (t : Test) : ∀ m ∈ t.operands, m.2.Faithful := by
  have literal := Literal.toJson_faithful
  cases t with
  | compare op value => simp [Test.operands, literal]
  | between low high a b =>
      have bounds : (Json.array [.bool a, .bool b]).Faithful := .array (by simp [Json.Faithful.bool])
      simp [Test.operands, literal, bounds]
  | oneOf values =>
      have items := Json.array_map_faithful fun l (_ : l ∈ values) => literal l
      simp [Test.operands, items]
  | present | isNull | isNotNull => simp [Test.operands]

theorem toJson_faithful (p : Predicate) : p.toJson.Faithful := by
  induction p using induction_groups with
  | leaf c =>
      rw [toJson_leaf]
      refine .object ?_ ?_
      · cases h : c.test <;> simp [Written.members, Test.operands, h]
      · have operands := operands_faithful c.test
        simpa [Written.members, Json.Faithful.string] using operands
  | group m args ih =>
      rw [toJson_group]
      exact joinToJson_faithful ih
  | negate p ih => exact joinToJson_faithful (List.forall_mem_singleton.mpr ih)

theorem finite_written {p : Predicate} (h : p.written.Finite) : p.Finite := by
  induction p using induction_groups with
  | leaf c =>
      cases h with
      | leaf finite => exact finite_leaf.mpr finite
  | group m args ih =>
      rw [written_group] at h
      cases h with
      | join each => exact finite_group.mpr fun a ha => ih a ha (each _ (List.mem_map_of_mem ha))
  | negate p ih =>
      cases h with
      | join each => exact finite_negate.mpr (ih (each _ List.mem_cons_self))

theorem decode_encode_iff (e q : Predicate) :
    format.decode (format.encode e) = .ok q ↔ (e.Filled ∧ e.Finite) ∧ e = q := by
  rw [Format.decode_eq_ok]
  exact (steady_read .outside _ (toJson_faithful e) q).trans (read_toJson .outside e q)

/-- Whatever is read has an argument in every group and a number for every float. -/
theorem decoded {v : Value} {e : Predicate} (done : format.decode v = .ok e) : e.Filled ∧ e.Finite := by
  obtain ⟨w, tree, meant⟩ := read_eq_ok.mp (Format.decode_eq_ok.mp done)
  obtain rfl := written_of_predicate meant
  have finite := Written.yields_finite .outside v.json v.wellFormed.faithful _ tree
  exact ⟨((predicate_written e e).mp meant).1, finite_written finite⟩

/-- The wire form of a predicate gives it back, exactly if every group has an argument and every float a number, and
what is read from any document is such a predicate. -/
theorem round_trip :
    (∀ e : Predicate, (format.decode (format.encode e) = .ok e ↔ e.Filled ∧ e.Finite) ∧
      (¬ (e.Filled ∧ e.Finite) → ∃ f, format.decode (format.encode e) = .error f)) ∧
    ∀ (v : Value) (e : Predicate), format.decode v = .ok e → e.Filled ∧ format.decode (format.encode e) = .ok e := by
  refine ⟨fun e => ⟨(decode_encode_iff e e).trans (and_iff_left rfl), fun bad => ?_⟩, fun v e done => ?_⟩
  · cases outcome : format.decode (format.encode e) with
    | error f => exact ⟨f, rfl⟩
    | ok q => exact absurd ((decode_encode_iff e q).mp outcome).1 bad
  · exact ⟨(decoded done).1, (decode_encode_iff e e).mpr ⟨decoded done, rfl⟩⟩

def bareRange : Value := .ofJson (.object [("op", .string "between"), ("var", .string "a"), ("prop", .string "p"),
  ("low", (Literal.int 1).toJson), ("high", (Literal.int 2).toJson)])

theorem round_trip_bareRange : ∃ e, format.decode bareRange = .ok e ∧ format.decode (format.encode e) = .ok e := by
  have done : format.decode bareRange = .ok (.leaf ⟨"a", "p", .between (.int 1) (.int 2) true true⟩) := by
    rfl
  exact ⟨_, done, (round_trip.2 bareRange _ done).2⟩

end Predicate

end GraphClient
