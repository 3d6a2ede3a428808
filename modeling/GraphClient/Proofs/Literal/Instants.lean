import GraphClient.Proofs.Literal.Encoding

/-!
Date-times as literals: whatever the offset, the literal counts the instant, in the order of the instants, and shows it in
UTC. A date-time is taken to UTC before the window is looked at, so all of this holds of those that have a reading there.
-/
namespace GraphClient
namespace ZonedTime

/-- The literal of a date-time with an offset: it is there exactly if the instant lies in the window, and is the exact
count of it. Any other date-time is refused as an argument. -/
structure EncodesExactly (t : ZonedTime) : Prop where
  total : Scalar.encode (.zoned t) ≠ .error .yearRange
  accepted : ∀ l, Scalar.encode (.zoned t) = .ok l ↔ t.InWindow ∧ ∃ n : Int64, l = .dateTime n ∧ n.toInt = t.instant
  refused : ¬ t.InWindow → ∃ cause, Scalar.encode (.zoned t) = .error (.argument cause)
  countable : ∀ u, Scalar.encode (.zoned t) ≠ .error (.argument (.beyondNanos u))
  alike : ∀ s : ZonedTime, s.instant = t.instant → Scalar.encode (.zoned s) = Scalar.encode (.zoned t)
  ordered : ∀ (s : ZonedTime) (m n : Int64), Scalar.encode (.zoned s) = .ok (.dateTime m) →
    Scalar.encode (.zoned t) = .ok (.dateTime n) → (m < n ↔ s.instant < t.instant)
  shown : ∀ l, Scalar.encode (.zoned t) = .ok l → ∃ u, l.asDateTime = some u ∧ u.Valid ∧ u.instant = t.instant

theorem encode_congr {s t : ZonedTime} (same : s.instant = t.instant) :
    Scalar.encode (.zoned s) = Scalar.encode (.zoned t) := by
  have shown : s.utc? = t.utc? := by rw [utc?, utc?, same]
  change Scalar.encodeZoned s = Scalar.encodeZoned t
  unfold Scalar.encodeZoned
  simp only [shown, same]

theorem instant_of_encode {t : ZonedTime} {n : Int64} (encoded : Scalar.encode (.zoned t) = .ok (.dateTime n)) :
    n.toInt = t.instant := by
  obtain ⟨_, _, ⟨⟩, same⟩ := Scalar.encodeZoned_eq_ok_iff.mp encoded
  exact same

theorem asDateTime_of_encode {t : ZonedTime} {l : Literal} (encoded : Scalar.encode (.zoned t) = .ok l) :
    l.asDateTime = t.utc? := by
  obtain ⟨inside, n, rfl, same⟩ := Scalar.encodeZoned_eq_ok_iff.mp encoded
  obtain ⟨u, shown⟩ := Option.isSome_iff_exists.mp (Scalar.utc?_isSome_of_inWindow inside)
  obtain ⟨valid, instant⟩ := utc?_eq_some_iff.mp shown
  rw [shown, Literal.asDateTime, same]
  exact congrArg some (DateTime.ofInstant_eq_iff.mpr ⟨(DateTime.valid_iff.mp valid).2, instant⟩)

theorem encode_cases {t : ZonedTime} {u : DateTime} (shown : t.utc? = some u) :
    Scalar.encode (.zoned t) = .ok (.dateTime (.ofInt t.instant)) ∨
      Scalar.encode (.zoned t) = .error (.argument (.outsideWindow u)) := by
  by_cases inside : t.InWindow
  · exact .inl (Scalar.encodeZoned_inside inside)
  · exact .inr (Scalar.encodeZoned_outside inside shown)

theorem encodesExactly_of_utc? {t : ZonedTime} {u : DateTime} (shown : t.utc? = some u) : t.EncodesExactly where
  total := by
    rcases encode_cases shown with encoded | encoded <;> simp [encoded]
  accepted _ := Scalar.encodeZoned_eq_ok_iff
  refused outside := ⟨_, Scalar.encodeZoned_outside outside shown⟩
  countable := by
    rcases encode_cases shown with encoded | encoded <;> simp [encoded]
  alike _ same := encode_congr same
  ordered s m n first second := by
    rw [Int64.lt_iff_toInt_lt, instant_of_encode first, instant_of_encode second]
  shown l encoded := ⟨u, (asDateTime_of_encode encoded).trans shown, utc?_eq_some_iff.mp shown⟩

def InYears (t : ZonedTime) : Prop := DateTime.newYear (-9999) ≤ t.instant ∧ t.instant < DateTime.newYear 10000

theorem encode_unshown {t : ZonedTime} (h : ¬ t.InYears) : Scalar.encode (.zoned t) = .error .yearRange := by
  rw [InYears, ← utc?_isSome_iff, Bool.not_eq_true, Option.isSome_eq_false_iff, Option.isNone_iff_eq_none] at h
  exact Scalar.encodeZoned_unshown h

theorem encodesExactly_of_inYears {t : ZonedTime} (h : t.InYears) : t.EncodesExactly := by
  obtain ⟨u, shown⟩ := Option.isSome_iff_exists.mp (utc?_isSome_iff.mpr h)
  exact encodesExactly_of_utc? shown

/-- Encoding is exact in the years that date-times have, and beyond them it ends the program. -/
theorem encodesExactly_iff (t : ZonedTime) :
    (t.EncodesExactly ↔ t.InYears) ∧ (Scalar.encode (.zoned t) = .error .yearRange ↔ ¬ t.InYears) := by
  by_cases inYears : t.InYears
  · have exactly := encodesExactly_of_inYears inYears
    exact ⟨iff_of_true exactly inYears, iff_of_false exactly.total (not_not_intro inYears)⟩
  · have unshown := encode_unshown inYears
    exact ⟨iff_of_false (fun h => h.total unshown) inYears, iff_of_true unshown inYears⟩

/-- In the last evening of the year 9999, an hour behind UTC, it is already the year 10000 there. -/
theorem last_evening_unencoded : ¬ ∀ t : ZonedTime, t.EncodesExactly := by
  intro all
  let t : ZonedTime := ⟨⟨⟨9999, 12, 31⟩, 23, 30, 0, 0⟩, -3600, by decide, by decide⟩
  have unshown : t.utc? = none := by decide
  exact (all t).total (Scalar.encodeZoned_unshown unshown)

end ZonedTime
end GraphClient
