import Mathlib.Data.List.Forall2
import Mathlib.Data.List.Perm.Basic
import GraphClient.Action

/-!
How outcomes follow from the parts of a call. A failing part ends the call with the state it leaves behind.
-/
namespace GraphClient

section
variable {ε α β γ : Type}

@[simp] theorem ok_bind (a : α) (f : α → Except ε β) : (Except.ok a >>= f) = f a := rfl

@[simp] theorem error_bind (e : ε) (f : α → Except ε β) : (Except.error e >>= f) = .error e := rfl

@[simp] theorem map_ok (f : α → β) (a : α) : f <$> (Except.ok a : Except ε α) = .ok (f a) := rfl

@[simp] theorem map_error (f : α → β) (e : ε) : f <$> (Except.error e : Except ε α) = .error e := rfl

theorem bind_eq_ok {x : Except ε α} {f : α → Except ε β} {v : β} :
    (x >>= f) = .ok v ↔ ∃ a, x = .ok a ∧ f a = .ok v := by
  cases x with
  | error e => exact ⟨nofun, nofun⟩
  | ok a => exact ⟨fun h => ⟨a, rfl, h⟩, by rintro ⟨_, ⟨⟩, h⟩; exact h⟩

theorem map_eq_ok {f : α → β} {x : Except ε α} {v : β} : f <$> x = .ok v ↔ ∃ a, x = .ok a ∧ f a = v := by
  cases x with
  | error e => exact ⟨nofun, nofun⟩
  | ok a => exact ⟨fun h => ⟨a, rfl, by cases h; rfl⟩, by rintro ⟨_, ⟨⟩, rfl⟩; rfl⟩

theorem mapError_eq_ok {δ : Type} {f : ε → δ} {x : Except ε α} {a : α} : x.mapError f = .ok a ↔ x = .ok a := by
  cases x <;> simp [Except.mapError]

theorem check_eq_ok {c : Prop} [Decidable c] {e : ε} {f : PUnit → Except ε α} {x : Except ε α} {a : α} :
    (if c then throw e >>= f else x) = .ok a ↔ ¬ c ∧ x = .ok a := by
  by_cases given : c
  · rw [if_pos given]
    exact iff_of_false nofun fun h => h.1 given
  · rw [if_neg given, and_iff_right given]

theorem mapM_eq_ok_iff {f : α → Except ε β} {l : List α} {vs : List β} :
    l.mapM f = .ok vs ↔ List.Forall₂ (fun a v => f a = .ok v) l vs := by
  induction l generalizing vs with
  | nil => simp [pure, Except.pure, eq_comm]
  | cons a l ih =>
      rw [List.mapM_cons, bind_eq_ok, List.forall₂_cons_left_iff]
      refine exists_congr fun v => ?_
      rw [bind_eq_ok]
      constructor
      · rintro ⟨first, ws, later, ⟨⟩⟩
        exact ⟨ws, first, ih.mp later, rfl⟩
      · rintro ⟨ws, first, later, rfl⟩
        exact ⟨first, ws, ih.mpr later, rfl⟩

theorem mapM_eq_ok_of_forall {f : α → Except ε β} {g : α → β} {l : List α} (each : ∀ a ∈ l, f a = .ok (g a)) :
    l.mapM f = .ok (l.map g) := by
  rw [mapM_eq_ok_iff, List.forall₂_map_right_iff, List.forall₂_same]
  exact each

theorem mapM_eq_error {f : α → Except ε β} {g : α → β} {before after : List α} {a : α} {e : ε}
    (fine : ∀ b ∈ before, f b = .ok (g b)) (fails : f a = .error e) : (before ++ a :: after).mapM f = .error e := by
  rw [List.mapM_append, mapM_eq_ok_of_forall fine, ok_bind, List.mapM_cons, fails]
  rfl

/-- Among elements that pass, the outcome is that of the one that may not. -/
theorem mapM_around {f : α → Except ε β} {g : α → β} {before after : List α}
    (fine : ∀ b ∈ before ++ after, f b = .ok (g b)) (a : α) :
    (before ++ a :: after).mapM f = (fun v => before.map g ++ v :: after.map g) <$> f a := by
  have front := fun b member => fine b (List.mem_append_left after member)
  cases here : f a with
  | error e => exact mapM_eq_error front here
  | ok v =>
      have back : after.mapM f = .ok (after.map g) :=
        mapM_eq_ok_of_forall fun b member => fine b (List.mem_append_right before member)
      rw [List.mapM_append, mapM_eq_ok_of_forall front, ok_bind, List.mapM_cons, here, ok_bind, back]
      rfl

theorem mapM_map_eq_ok_iff {read : γ → Except ε β} {write : α → γ} {f : α → β} {P : α → Prop} {l : List α}
    (each : ∀ a ∈ l, ∀ b, read (write a) = .ok b ↔ P a ∧ f a = b) (bs : List β) :
    (l.map write).mapM read = .ok bs ↔ (∀ a ∈ l, P a) ∧ l.map f = bs := by
  rw [mapM_eq_ok_iff, List.forall₂_map_left_iff]
  induction l generalizing bs with
  | nil => simp [eq_comm]
  | cons a l ih =>
      obtain ⟨first, rest⟩ := List.forall_mem_cons.mp each
      simp only [List.forall₂_cons_left_iff, first, ih rest, List.map_cons, List.forall_mem_cons]
      constructor
      · rintro ⟨_, _, ⟨here, rfl⟩, ⟨later, rfl⟩, rfl⟩
        exact ⟨⟨here, later⟩, rfl⟩
      · rintro ⟨⟨here, later⟩, rfl⟩
        exact ⟨_, _, ⟨here, rfl⟩, ⟨later, rfl⟩, rfl⟩

theorem map_eq_of_mapM_eq_ok {f : α → Except ε β} {g : β → γ} {k : α → γ} {l : List α} {bs : List β}
    (each : ∀ a ∈ l, ∀ b, f a = .ok b → g b = k a) (h : l.mapM f = .ok bs) : bs.map g = l.map k := by
  have pairs := mapM_eq_ok_iff.mp h
  clear h
  induction pairs with
  | nil => rfl
  | cons first _ ih =>
      obtain ⟨head, rest⟩ := List.forall_mem_cons.mp each
      rw [List.map_cons, List.map_cons, head _ first, ih rest]

theorem mapM_perm {f : α → Except ε β} {l k : List α} {vs : List β} (same : l.Perm k) (done : k.mapM f = .ok vs) :
    ∃ ws, l.mapM f = .ok ws ∧ ws.Perm vs := by
  obtain ⟨ws, pairs, moved⟩ := List.perm_comp_forall₂ same (mapM_eq_ok_iff.mp done)
  exact ⟨ws, mapM_eq_ok_iff.mpr pairs, moved⟩

theorem mapM_map_congr {f : α → Except ε β} {g : α → α} {l : List α}
    (each : ∀ a ∈ l, ∀ v, f (g a) = .ok v ↔ f a = .ok v) (vs : List β) :
    (l.map g).mapM f = .ok vs ↔ l.mapM f = .ok vs := by
  rw [mapM_eq_ok_iff, mapM_eq_ok_iff, List.forall₂_map_left_iff]
  induction l generalizing vs with
  | nil => simp
  | cons a l ih =>
      obtain ⟨first, rest⟩ := List.forall_mem_cons.mp each
      simp only [List.forall₂_cons_left_iff, first, ih rest]

theorem forall_of_mapM_eq_ok {f : α → Except ε β} {P : β → Prop} {l : List α} {bs : List β}
    (each : ∀ a ∈ l, ∀ b, f a = .ok b → P b) (h : l.mapM f = .ok bs) : ∀ b ∈ bs, P b := by
  have pairs := mapM_eq_ok_iff.mp h
  clear h
  induction pairs with
  | nil => simp
  | cons first _ ih =>
      obtain ⟨head, rest⟩ := List.forall_mem_cons.mp each
      exact List.forall_mem_cons.mpr ⟨head _ first, ih rest⟩

theorem mapM_eq_ok {f : α → Except ε β} {g : α → β} {P : α → Prop} {l : List α}
    (each : ∀ a ∈ l, ∀ v, f a = .ok v → v = g a ∧ P a) {vs : List β} (h : l.mapM f = .ok vs) :
    vs = l.map g ∧ ∀ a ∈ l, P a := by
  induction l generalizing vs with
  | nil => cases h; exact ⟨rfl, by simp⟩
  | cons a l ih =>
      rw [List.mapM_cons] at h
      obtain ⟨v, first, h⟩ := bind_eq_ok.mp h
      obtain ⟨rest, later, h⟩ := bind_eq_ok.mp h
      cases h
      obtain ⟨rfl, good⟩ := each a List.mem_cons_self v first
      obtain ⟨rfl, others⟩ := ih (fun b hb => each b (List.mem_cons_of_mem a hb)) later
      exact ⟨rfl, List.forall_mem_cons.mpr ⟨good, others⟩⟩

theorem mapM_congr {m : Type → Type} [Monad m] [LawfulMonad m] {f g : α → m β} {l : List α} (same : ∀ a ∈ l, f a = g a) :
    l.mapM f = l.mapM g := by
  induction l with
  | nil => rfl
  | cons a l ih =>
      rw [List.mapM_cons, List.mapM_cons, same a List.mem_cons_self, ih fun b hb => same b (List.mem_cons_of_mem a hb)]

/-! Outcomes whose failures are not told apart. -/

@[simp] theorem toOption_pure (a : α) : (pure a : Except ε α).toOption = some a := rfl

@[simp] theorem toOption_bind (x : Except ε α) (f : α → Except ε β) :
    (x >>= f).toOption = x.toOption.bind fun a => (f a).toOption := by
  cases x <;> rfl

@[simp] theorem toOption_map (f : α → β) (x : Except ε α) : (f <$> x).toOption = x.toOption.map f := by
  cases x <;> rfl

theorem toOption_eq_some_iff {x : Except ε α} {a : α} : x.toOption = some a ↔ x = .ok a := by
  cases x <;> simp [Except.toOption]

theorem toOption_eq_none_iff {x : Except ε α} : x.toOption = none ↔ ∃ e, x = .error e := by
  cases x <;> simp [Except.toOption]

theorem toOption_mapM (f : α → Except ε β) (l : List α) : (l.mapM f).toOption = l.mapM fun a => (f a).toOption := by
  induction l with
  | nil => rfl
  | cons a l ih =>
      simp only [List.mapM_cons, toOption_bind, ih, toOption_pure]
      rfl

/-- Where failures are not told apart, it does not matter whether the first step is taken everywhere before the second. -/
theorem mapM_bind_mapM (f : α → Option β) (g : β → Option γ) (l : List α) :
    (l.mapM f).bind (fun bs => bs.mapM g) = l.mapM fun a => (f a).bind g := by
  induction l with
  | nil => rfl
  | cons a l ih =>
      simp only [List.mapM_cons, Option.bind_eq_bind, ← ih]
      cases f a with
      | none => rfl
      | some b =>
          simp only [Option.bind_some, Option.bind_assoc, Option.pure_def, List.mapM_cons, Option.bind_eq_bind]
          cases g b <;> simp

end

namespace Action

variable {σ α β : Type}

@[simp] theorem outcome_pure (v : α) (s : σ) : (pure v : Action σ α).outcome s = (.ok v, s) := rfl

@[simp] theorem outcome_get (s : σ) : (get : Action σ σ).outcome s = (.ok s, s) := rfl

@[simp] theorem outcome_set (s t : σ) : (set t : Action σ PUnit).outcome s = (.ok ⟨⟩, t) := rfl

@[simp] theorem outcome_modify (f : σ → σ) (s : σ) : (modify f : Action σ PUnit).outcome s = (.ok ⟨⟩, f s) := rfl

@[simp] theorem outcome_throw (f : Failure) (s : σ) : (throw f : Action σ α).outcome s = (.error f, s) := rfl

@[simp] theorem outcome_check (x : Except Failure α) (s : σ) : (check x).outcome s = (x, s) := rfl

@[simp] theorem outcome_refuse (cause : Misuse) (s : σ) :
    (refuse cause : Action σ α).outcome s = (.error (.argument cause), s) := rfl

@[simp] theorem outcome_attempt (a : Action σ α) (s : σ) :
    a.attempt.outcome s = (.ok (a.outcome s).1, (a.outcome s).2) := rfl

theorem outcome_within {τ : Type} (get : τ → σ) (put : τ → σ → τ) (a : Action σ α) (t : τ) :
    (a.within get put).outcome t = ((a.outcome (get t)).1, put t (a.outcome (get t)).2) := rfl

@[simp] theorem outcome_onFirst {τ : Type} (a : Action σ α) (s : σ × τ) :
    a.onFirst.outcome s = ((a.outcome s.1).1, ((a.outcome s.1).2, s.2)) := rfl

@[simp] theorem outcome_onSecond {τ : Type} (a : Action τ α) (s : σ × τ) :
    a.onSecond.outcome s = ((a.outcome s.2).1, (s.1, (a.outcome s.2).2)) := rfl

theorem outcome_bind (a : Action σ α) (f : α → Action σ β) (s : σ) :
    (a >>= f).outcome s = match a.outcome s with
      | (.ok v, t) => (f v).outcome t
      | (.error e, t) => (.error e, t) := by
  simp only [outcome, ExceptT.run_bind, StateT.run_bind]
  cases StateT.run (ExceptT.run a) s with
  | mk r t => cases r <;> rfl

theorem outcome_map (f : α → β) (a : Action σ α) (s : σ) :
    (f <$> a).outcome s = (f <$> (a.outcome s).1, (a.outcome s).2) := by
  rw [← bind_pure_comp, outcome_bind]
  cases a.outcome s with
  | mk r t => cases r <;> rfl

theorem outcome_discard (a : Action σ α) (s : σ) :
    (discard a : Action σ Unit).outcome s = ((fun _ => ()) <$> (a.outcome s).1, (a.outcome s).2) :=
  outcome_map (fun _ => ()) a s

theorem outcome_bind_ok {a : Action σ α} {s t : σ} {v : α} (h : a.outcome s = (.ok v, t)) (f : α → Action σ β) :
    (a >>= f).outcome s = (f v).outcome t := by
  rw [outcome_bind, h]

theorem outcome_bind_error {a : Action σ α} {s t : σ} {e : Failure} (h : a.outcome s = (.error e, t))
    (f : α → Action σ β) : (a >>= f).outcome s = (.error e, t) := by
  rw [outcome_bind, h]

theorem outcome_check_after (a : Action σ Unit) (x : Except Failure β) (s : σ) :
    ((do a; check x).outcome s).2 = (a.outcome s).2 := by
  rw [outcome_bind]
  cases a.outcome s with
  | mk r t => cases r <;> rfl

theorem outcome_discard_attempt (a : Action σ Unit) (s : σ) :
    (discard a.attempt : Action σ Unit).outcome s = (.ok (), (a.outcome s).2) := rfl

/-- Calls that only read, made one after the other, read what they each read. -/
theorem mapM_reads {f : α → Action σ β} {s : σ} (reads : ∀ a, ((f a).outcome s).2 = s) (l : List α) :
    (l.mapM f).outcome s = (l.mapM fun a => ((f a).outcome s).1, s) := by
  induction l with
  | nil => rfl
  | cons a l ih =>
      rw [List.mapM_cons, List.mapM_cons, outcome_bind]
      obtain ⟨r, first⟩ : ∃ r, (f a).outcome s = (r, s) := ⟨_, Prod.ext rfl (reads a)⟩
      rw [first]
      cases r with
      | error e => rfl
      | ok v =>
          simp only [ok_bind, outcome_bind, ih]
          cases (l.mapM fun a => ((f a).outcome s).1) <;> rfl

theorem forM_check (f : α → Except Failure PUnit) (l : List α) (s : σ) :
    (l.forM fun v => Action.check (f v)).outcome s = (l.forM f, s) := by
  induction l with
  | nil => rfl
  | cons v l ih =>
      rw [List.forM_eq_forM, List.forM_cons, outcome_bind, outcome_check]
      simp only [List.forM_eq_forM, List.forM_cons]
      cases f v with
      | error e => rfl
      | ok _ => exact ih

end Action
end GraphClient
