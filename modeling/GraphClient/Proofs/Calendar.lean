import GraphClient.Calendar

/-!
Dates and the days they stand for. A year is counted from March, so that the leap day ends it and every month before
February has one length. Each day has one date, and each instant is shown by one clock reading in UTC.
-/
namespace GraphClient
namespace Date

/-- A day of a month; the year may have any number of digits. -/
def InYear (d : Date) : Prop := 1 ≤ d.month ∧ d.month ≤ 12 ∧ 1 ≤ d.day ∧ d.day ≤ daysIn d.year d.month

/-- Days from the first of March of the year 0 to that of another year. -/
def marchStart (y : Int) : Int := 365 * y + y / 4 - y / 100 + y / 400

/-- Days from the first of March to the first of the month that comes `m` months later. -/
def monthStart (m : Int) : Int := (153 * m + 2) / 5

def marchYear (d : Date) : Int := if d.month ≤ 2 then d.year - 1 else d.year

def marchMonth (d : Date) : Int := if d.month ≤ 2 then d.month + 9 else d.month - 3

theorem toDays_eq (d : Date) : d.toDays = marchStart d.marchYear + monthStart d.marchMonth + d.day - 719469 := by
  simp only [toDays, marchStart, monthStart, marchYear, marchMonth]
  omega

/-! Years and months. -/

theorem isLeap_iff {y : Int} : isLeap y = true ↔ y % 4 = 0 ∧ (y % 100 ≠ 0 ∨ y % 400 = 0) := by
  simp [isLeap]

theorem marchStart_succ (y : Int) : marchStart (y + 1) = marchStart y + (if isLeap (y + 1) then 366 else 365) := by
  simp only [isLeap_iff, marchStart]
  split <;> omega

theorem marchStart_mono {y z : Int} (h : y ≤ z) : marchStart y ≤ marchStart z := by
  simp only [marchStart]
  omega

theorem year_le (y : Int) : marchStart y + 365 ≤ marchStart (y + 1) := by
  rw [marchStart_succ]
  split <;> omega

theorem monthStart_le {m : Int} (h : m ≤ 11) : monthStart m ≤ 337 := by
  rw [monthStart]
  omega

theorem daysIn_eq {y : Int} {month : Nat} (low : 1 ≤ month) (high : month ≤ 12) (other : month ≠ 2) :
    let m : Int := if month ≤ 2 then month + 9 else month - 3
    (daysIn y month : Int) = monthStart (m + 1) - monthStart m := by
  obtain rfl | rfl | rfl | rfl | rfl | rfl | rfl | rfl | rfl | rfl | rfl : month = 1 ∨ month = 3 ∨ month = 4 ∨
      month = 5 ∨ month = 6 ∨ month = 7 ∨ month = 8 ∨ month = 9 ∨ month = 10 ∨ month = 11 ∨ month = 12 := by omega
  all_goals rfl

theorem daysIn_february (y : Int) : (daysIn y 2 : Int) = marchStart y - marchStart (y - 1) - monthStart 11 := by
  have year := marchStart_succ (y - 1)
  rw [Int.sub_add_cancel] at year
  rw [year, daysIn, monthStart, if_pos rfl]
  split <;> omega

structure SinceMarch (y m k : Int) : Prop where
  month : 0 ≤ m ∧ m ≤ 11
  positive : 1 ≤ k
  inMonth : m < 11 → monthStart m + k ≤ monthStart (m + 1)
  inYear : marchStart y + monthStart m + k ≤ marchStart (y + 1)

theorem inYear_iff {d : Date} (low : 1 ≤ d.month) (high : d.month ≤ 12) :
    d.InYear ↔ SinceMarch d.marchYear d.marchMonth d.day := by
  have longer := year_le d.marchYear
  rw [InYear, and_iff_right low, and_iff_right high]
  by_cases february : d.month = 2
  · have length := daysIn_february d.year
    have year : d.marchYear = d.year - 1 := by rw [marchYear, if_pos (by omega)]
    have month : d.marchMonth = 11 := by rw [marchMonth, february]; rfl
    rw [february, year, month]
    constructor
    · rintro ⟨first, last⟩
      refine ⟨by omega, by omega, by omega, ?_⟩
      rw [Int.sub_add_cancel]
      omega
    · rintro ⟨_, first, _, last⟩
      rw [Int.sub_add_cancel] at last
      omega
  · have length : (daysIn d.year d.month : Int) = monthStart (d.marchMonth + 1) - monthStart d.marchMonth :=
      daysIn_eq low high february
    have month : 0 ≤ d.marchMonth ∧ d.marchMonth < 11 := by
      rw [marchMonth]
      split <;> omega
    have next := monthStart_le (m := d.marchMonth + 1) (by omega)
    constructor
    · rintro ⟨first, last⟩
      exact ⟨by omega, by omega, by omega, by omega⟩
    · rintro ⟨_, first, last, _⟩
      have := last month.2
      omega

/-! From days to dates. -/

/-- In an era of 400 years: once the leap days that have gone by are taken out, 365 days are left for each year. -/
theorem yearOfEra_bounds {e : Int} (low : 0 ≤ e) (high : e < 146097) :
    let y := (e - e / 1460 + e / 36524 - e / 146096) / 365
    (0 ≤ y ∧ y < 400) ∧ marchStart y ≤ e ∧ e < marchStart (y + 1) := by
  intro y
  -- linear arithmetic alone does not see how years lie in cycles of four and in centuries
  have cycle : e / 1460 = y / 4 ∨ e / 1460 = y / 4 + 1 := by omega
  have inCycle : y % 4 = 0 ∨ y % 4 = 1 ∨ y % 4 = 2 ∨ y % 4 = 3 := by omega
  have century : e / 146096 = 0 ∧ (e / 36524 = 0 ∨ e / 36524 = 1 ∨ e / 36524 = 2 ∨ e / 36524 = 3) ∨ e = 146096 := by
    omega
  have inEra : 0 ≤ y ∧ y < 400 := by omega
  have begun : 0 ≤ e - (365 * y + y / 4 - y / 100) := by
    rcases century with ⟨early, century | century | century | century⟩ | last <;> rcases cycle with cycle | cycle <;> omega
  have ends : e - (365 * y + y / 4 - y / 100) < if isLeap (y + 1) then 366 else 365 := by
    simp only [isLeap_iff]
    rcases century with ⟨early, century | century | century | century⟩ | last <;> rcases cycle with cycle | cycle <;>
      rcases inCycle with inCycle | inCycle | inCycle | inCycle <;> split <;> omega
  refine ⟨inEra, ?_, ?_⟩
  · rw [marchStart]
    omega
  · rw [marchStart_succ, marchStart]
    omega

def ofMarch (y m k : Int) : Date :=
  let month := if m < 10 then m + 3 else m - 9
  ⟨y + (if month ≤ 2 then 1 else 0), month.toNat, k.toNat⟩

theorem march_ofMarch {y m k : Int} (h : SinceMarch y m k) :
    (ofMarch y m k).marchYear = y ∧ (ofMarch y m k).marchMonth = m ∧ (ofMarch y m k).day = k := by
  obtain ⟨month, positive, _, _⟩ := h
  simp only [marchYear, marchMonth, ofMarch]
  omega

theorem inYear_ofMarch {y m k : Int} (h : SinceMarch y m k) : (ofMarch y m k).InYear := by
  obtain ⟨year, month, day⟩ := march_ofMarch h
  have bounds : 1 ≤ (ofMarch y m k).month ∧ (ofMarch y m k).month ≤ 12 := by
    have := h.month
    simp only [ofMarch]
    omega
  rw [inYear_iff bounds.1 bounds.2, year, month, day]
  exact h

theorem ofMarch_march {d : Date} (h : d.InYear) : ofMarch d.marchYear d.marchMonth d.day = d := by
  obtain ⟨low, high, _, _⟩ := h
  cases d
  simp only [ofMarch, marchYear, marchMonth, Date.mk.injEq] at *
  omega

theorem ofDays_eq (n : Int) :
    ∃ y m k, ofDays n = ofMarch y m k ∧ SinceMarch y m k ∧ marchStart y + monthStart m + k = n + 719469 := by
  obtain ⟨e, rest⟩ : ∃ e, e = (n + 719468) % 146097 := ⟨_, rfl⟩
  obtain ⟨era, whole⟩ : ∃ era, era = (n + 719468) / 146097 := ⟨_, rfl⟩
  obtain ⟨y, ofEra⟩ : ∃ y, y = (e - e / 1460 + e / 36524 - e / 146096) / 365 := ⟨_, rfl⟩
  obtain ⟨t, ofYear⟩ : ∃ t, t = e - (365 * y + y / 4 - y / 100) := ⟨_, rfl⟩
  obtain ⟨m, ofMonth⟩ : ∃ m, m = (5 * t + 2) / 153 := ⟨_, rfl⟩
  -- the year within its era of 400 years; the month within that year follows below
  obtain ⟨inEra, begun, ends⟩ := yearOfEra_bounds (e := e) (by omega) (by omega)
  rw [← ofEra] at inEra begun ends
  have shift (k : Int) : marchStart (k + era * 400) = marchStart k + era * 146097 := by
    simp only [marchStart]
    omega
  have start : marchStart y = 365 * y + y / 4 - y / 100 := by
    rw [marchStart]
    omega
  have longest : marchStart (y + 1) ≤ marchStart y + 366 := by
    rw [marchStart_succ]
    split <;> omega
  have month : (0 ≤ m ∧ m ≤ 11) ∧ monthStart m ≤ t ∧ t < monthStart (m + 1) := by
    simp only [monthStart]
    omega
  have same : ofDays n = ofMarch (y + era * 400) m (t - monthStart m + 1) := by
    subst ofMonth ofYear ofEra rest whole
    rfl
  have here := shift y
  have next : marchStart (y + era * 400 + 1) = marchStart (y + 1) + era * 146097 := by rw [Int.add_right_comm, shift]
  exact ⟨y + era * 400, m, t - monthStart m + 1, same, ⟨month.1, by omega, by omega, by omega⟩, by omega⟩

theorem inYear_ofDays (n : Int) : (ofDays n).InYear := by
  obtain ⟨y, m, k, same, h, _⟩ := ofDays_eq n
  exact same ▸ inYear_ofMarch h

theorem toDays_ofDays (n : Int) : (ofDays n).toDays = n := by
  obtain ⟨y, m, k, same, h, total⟩ := ofDays_eq n
  obtain ⟨year, month, day⟩ := march_ofMarch h
  rw [same, toDays_eq, year, month, day]
  omega

/-! One date for each day. -/

theorem SinceMarch.eq_of_days {y m k y' m' k' : Int} (h : SinceMarch y m k) (h' : SinceMarch y' m' k')
    (same : marchStart y + monthStart m + k = marchStart y' + monthStart m' + k') : y = y' ∧ m = m' ∧ k = k' := by
  obtain ⟨month, positive, inMonth, inYear⟩ := h
  obtain ⟨month', positive', inMonth', inYear'⟩ := h'
  have begun : 0 ≤ monthStart m ∧ 0 ≤ monthStart m' := by
    simp only [monthStart]
    omega
  -- years do not overlap, and neither do the months of one year
  have years : y = y' := by
    rcases Int.lt_trichotomy y y' with less | same | greater
    · have := marchStart_mono (y := y + 1) less
      omega
    · exact same
    · have := marchStart_mono (y := y' + 1) greater
      omega
  subst years
  have months : m = m' := by
    simp only [monthStart] at *
    omega
  subst months
  exact ⟨rfl, rfl, by omega⟩

theorem eq_of_toDays_eq {d e : Date} (hd : d.InYear) (he : e.InYear) (same : d.toDays = e.toDays) : d = e := by
  have march := (inYear_iff hd.1 hd.2.1).mp hd
  have march' := (inYear_iff he.1 he.2.1).mp he
  rw [toDays_eq, toDays_eq] at same
  obtain ⟨year, month, day⟩ := march.eq_of_days march' (by omega)
  rw [← ofMarch_march hd, ← ofMarch_march he, year, month, day]

/-! The first days of the years. -/

theorem newYear_eq (y : Int) : (Date.mk y 1 1).toDays = marchStart (y - 1) + 307 - 719469 := by
  have january : monthStart 10 = 306 := rfl
  have sum : (Date.mk y 1 1).toDays = marchStart (y - 1) + monthStart 10 + 1 - 719469 := toDays_eq ⟨y, 1, 1⟩
  omega

theorem newYear_mono {y z : Int} (h : y ≤ z) : (Date.mk y 1 1).toDays ≤ (Date.mk z 1 1).toDays := by
  have := marchStart_mono (y := y - 1) (z := z - 1) (by omega)
  rw [newYear_eq, newYear_eq]
  omega

theorem toDays_inYear {d : Date} (h : d.InYear) :
    (Date.mk d.year 1 1).toDays ≤ d.toDays ∧ d.toDays < (Date.mk (d.year + 1) 1 1).toDays := by
  obtain ⟨month, positive, inMonth, inYear⟩ := (inYear_iff h.1 h.2.1).mp h
  obtain ⟨low, high, _, _⟩ := h
  have longer := year_le (d.year - 1)
  rw [Int.sub_add_cancel] at longer
  rw [newYear_eq, newYear_eq, toDays_eq, Int.add_sub_cancel]
  by_cases early : d.month ≤ 2
  · rw [marchYear, marchMonth, if_pos early, if_pos early] at *
    rw [Int.sub_add_cancel] at inYear
    simp only [monthStart] at *
    omega
  · rw [marchYear, marchMonth, if_neg early, if_neg early] at *
    have inMonth := inMonth (by omega)
    simp only [monthStart] at *
    omega

theorem newYear_le_iff {d : Date} (h : d.InYear) {y : Int} : (Date.mk y 1 1).toDays ≤ d.toDays ↔ y ≤ d.year := by
  obtain ⟨begun, ends⟩ := toDays_inYear h
  constructor
  · intro reached
    refine Int.not_lt.mp fun behind => ?_
    have := newYear_mono (y := d.year + 1) behind
    omega
  · intro reached
    exact Int.le_trans (newYear_mono reached) begun

/-! Day by day. -/

def next (d : Date) : Date :=
  if d.day < daysIn d.year d.month then { d with day := d.day + 1 }
  else if d.month < 12 then ⟨d.year, d.month + 1, 1⟩
  else ⟨d.year + 1, 1, 1⟩

/-- Days are counted through the calendar one by one. -/
theorem toDays_next {d : Date} (h : d.InYear) : d.next.toDays = d.toDays + 1 := by
  obtain ⟨low, high, first, last⟩ := h
  rw [toDays_eq d, next]
  split
  · have later : (Date.mk d.year d.month (d.day + 1)).toDays =
        marchStart d.marchYear + monthStart d.marchMonth + (d.day + 1 : Nat) - 719469 := toDays_eq _
    omega
  · have ended : d.day = daysIn d.year d.month := by omega
    rw [ended]
    by_cases february : d.month = 2
    · -- the first of March begins a year of its own
      have length := daysIn_february d.year
      have march : d.marchYear = d.year - 1 ∧ d.marchMonth = 11 := by
        simp only [marchYear, marchMonth]
        omega
      have start : monthStart 0 = 0 := rfl
      have turned : (Date.mk d.year 3 1).toDays = marchStart d.year + monthStart 0 + 1 - 719469 := toDays_eq _
      rw [if_pos (by omega), march.1, march.2, february, turned]
      omega
    · have length : monthStart d.marchMonth + daysIn d.year d.month = monthStart (d.marchMonth + 1) := by
        have := daysIn_eq (y := d.year) low high february
        rw [marchMonth]
        omega
      split
      · have same : (Date.mk d.year (d.month + 1) 1).marchYear = d.marchYear := by
          simp only [marchYear]
          omega
        have following : (Date.mk d.year (d.month + 1) 1).marchMonth = d.marchMonth + 1 := by
          simp only [marchMonth]
          omega
        rw [toDays_eq, same, following, ← length]
        dsimp only
        omega
      · have december : d.marchYear = d.year ∧ d.marchMonth = 9 := by
          simp only [marchYear, marchMonth]
          omega
        have january : monthStart (9 + 1) = 306 := rfl
        rw [december.2] at length
        rw [newYear_eq, december.1, december.2, Int.add_sub_cancel]
        omega

example : (Date.mk 1970 1 1).toDays = 0 := rfl

end Date

namespace DateTime

def OnClock (t : DateTime) : Prop :=
  t.date.InYear ∧ t.hour < 24 ∧ t.minute < 60 ∧ t.second < 60 ∧ t.nano < 1000000000

theorem valid_iff {t : DateTime} : t.Valid ↔ (-9999 ≤ t.date.year ∧ t.date.year ≤ 9999) ∧ t.OnClock := by
  simp only [Valid, Date.Valid, OnClock, Date.InYear, and_assoc]

def sinceMidnight (t : DateTime) : Int :=
  (((t.hour * 60 + t.minute) * 60 + t.second : Nat) : Int) * 1000000000 + t.nano

theorem instant_eq (t : DateTime) : t.instant = t.date.toDays * nanosPerDay + t.sinceMidnight := by
  rw [instant, sinceMidnight, Int.add_assoc]

theorem OnClock.sinceMidnight {t : DateTime} (h : t.OnClock) : 0 ≤ t.sinceMidnight ∧ t.sinceMidnight < nanosPerDay := by
  obtain ⟨_, _, _, _, _⟩ := h
  simp only [DateTime.sinceMidnight, nanosPerDay]
  omega

theorem onClock_ofInstant (n : Int) : (ofInstant n).OnClock := by
  refine ⟨Date.inYear_ofDays _, ?_⟩
  simp only [ofInstant, nanosPerDay]
  omega

theorem instant_ofInstant (n : Int) : (ofInstant n).instant = n := by
  simp only [instant, ofInstant, Date.toDays_ofDays, nanosPerDay]
  omega

theorem eq_of_instant_eq {t u : DateTime} (ht : t.OnClock) (hu : u.OnClock) (same : t.instant = u.instant) : t = u := by
  have low := ht.sinceMidnight
  have low' := hu.sinceMidnight
  rw [instant_eq, instant_eq] at same
  have days : t.date.toDays = u.date.toDays := by
    simp only [nanosPerDay] at *
    omega
  have date := Date.eq_of_toDays_eq ht.1 hu.1 days
  rw [days] at same
  obtain ⟨_, _, _, _, _⟩ := ht
  obtain ⟨_, _, _, _, _⟩ := hu
  cases t
  cases u
  simp only [DateTime.sinceMidnight, DateTime.mk.injEq] at *
  refine ⟨date, ?_, ?_, ?_, ?_⟩ <;> omega

/-- One clock reading stands for an instant, and no other. -/
theorem ofInstant_eq_iff {n : Int} {t : DateTime} : ofInstant n = t ↔ t.OnClock ∧ t.instant = n := by
  constructor
  · rintro rfl
    exact ⟨onClock_ofInstant n, instant_ofInstant n⟩
  · rintro ⟨shown, rfl⟩
    exact eq_of_instant_eq (onClock_ofInstant _) shown (instant_ofInstant _)

def newYear (y : Int) : Int := instant ⟨⟨y, 1, 1⟩, 0, 0, 0, 0⟩

theorem newYear_le_iff {n y : Int} : newYear y ≤ n ↔ y ≤ (ofInstant n).date.year := by
  have shown := onClock_ofInstant n
  have whole := instant_eq (ofInstant n)
  rw [instant_ofInstant] at whole
  rw [← Date.newYear_le_iff shown.1, newYear, instant_eq]
  have := shown.sinceMidnight
  simp only [nanosPerDay, DateTime.sinceMidnight] at *
  omega

end DateTime

namespace ZonedTime

theorem utc?_eq_some_iff {t : ZonedTime} {u : DateTime} : t.utc? = some u ↔ u.Valid ∧ u.instant = t.instant := by
  rw [DateTime.valid_iff, and_assoc, ← DateTime.ofInstant_eq_iff, utc?]
  constructor
  · intro h
    split at h
    next inYears =>
      cases h
      exact ⟨inYears, rfl⟩
    next => cases h
  · rintro ⟨inYears, rfl⟩
    exact if_pos inYears

/-- It has none before the year -9999 and from the year 10000 on. -/
theorem utc?_isSome_iff {t : ZonedTime} :
    t.utc?.isSome = true ↔ DateTime.newYear (-9999) ≤ t.instant ∧ t.instant < DateTime.newYear 10000 := by
  rw [← Int.not_le, DateTime.newYear_le_iff, DateTime.newYear_le_iff, utc?]
  split
  · exact iff_of_true rfl (by omega)
  · exact iff_of_false nofun (by omega)

end ZonedTime
end GraphClient
