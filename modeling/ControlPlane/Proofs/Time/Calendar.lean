/-
The calendar's two directions. A day's number gives a date of the
calendar, and that date gives the number back.

Days of an era of four hundred years fall into centuries of 36524 days,
spans of four years of 1461 days and years of 365 days. Counting from
March, the odd days come last: the leap day closes its span, the missing
leap day would have closed the century, and the one day that is left
over closes the era. `Place` is a day by these parts; `yearOfEra` finds
its year although it divides by 1460, 36524 and 146096 in one go, and
then both directions are read off the parts.

Chain: Time/Calendar (this file) → Time/Written.lean, Chronology.lean.
-/
import ControlPlane.Time.Calendar

namespace ControlPlane.Calendar

/-- The place of a day in its era: so many whole centuries, spans of four
years and years come before its year, and so many days of its year
before it. -/
structure Place (d c q j e : Int) : Prop where
  century : 0 ≤ c ∧ c ≤ 3
  span : 0 ≤ q ∧ q ≤ 24
  year : 0 ≤ j ∧ j ≤ 3
  day : 0 ≤ e ∧ e ≤ 365
  /-- The leap day is the last one of a span, and of a century only if it
  closes the era. -/
  leap : e = 365 → j = 3 ∧ (q = 24 → c = 3)
  sum : d = 36524 * c + 1461 * q + 365 * j + e

/-- The year of a day of the era, counted from March. -/
def yearOfEra (d : Int) : Int :=
  (d - d / 1460 + d / 36524 - d / 146096) / 365

/-- Every day of an era has its place, and the year is found. -/
theorem exists_place {d : Int} (h0 : 0 ≤ d) (h1 : d < 146097) :
    ∃ c q j e, Place d c q j e ∧ yearOfEra d = 100 * c + 4 * q + j := by
  -- The last day of the era belongs to the last century.
  obtain ⟨c, hc⟩ : ∃ c, c = d / 36524 - d / 146096 := ⟨_, rfl⟩
  obtain ⟨q, hq⟩ : ∃ q, q = (d - 36524 * c) / 1461 := ⟨_, rfl⟩
  obtain ⟨s, hs⟩ : ∃ s, s = (d - 36524 * c) % 1461 := ⟨_, rfl⟩
  have hcentury : 0 ≤ c ∧ c ≤ 3 := by omega
  have hlast : d - 36524 * c ≤ 36523
      ∨ (d = 146096 ∧ c = 3) := by omega
  have hspan : 0 ≤ q ∧ q ≤ 24 := by omega
  have hsum : d = 36524 * c + 1461 * q + s := by omega
  -- A day whose count of 1460 days is one ahead is late in its span.
  obtain ⟨k, hk⟩ : ∃ k, k = (24 * c + q + s) / 1460 := ⟨_, rfl⟩
  have hcarry : d / 1460 = 25 * c + q + k := by omega
  have hyear : yearOfEra d = 100 * c + 4 * q + (s - k) / 365 := by
    unfold yearOfEra
    omega
  refine ⟨c, q, (s - k) / 365, s - 365 * ((s - k) / 365),
    ⟨hcentury, hspan, ?_, ?_, ?_, ?_⟩, hyear⟩
  · omega
  · omega
  · omega
  · omega

namespace Place

variable {d c q j e : Int}

/-- The days before the year of a place. -/
theorem before (h : Place d c q j e) :
    365 * (100 * c + 4 * q + j) + (100 * c + 4 * q + j) / 4
      - (100 * c + 4 * q + j) / 100 = d - e := by
  obtain ⟨_, ⟨_, _⟩, ⟨_, _⟩, _, _, hsum⟩ := h
  have h4 : (100 * c + 4 * q + j) / 4 = 25 * c + q := by omega
  have h100 : (100 * c + 4 * q + j) / 100 = c := by omega
  omega

/-- A year whose leap day is a day of the calendar is a leap year; it is
the next one when years begin in January. -/
theorem isLeap (h : Place d c q j e) (he : e = 365) (era : Int) :
    Calendar.isLeap (100 * c + 4 * q + j + era * 400 + 1) = true := by
  obtain ⟨hc, hq, _, _, hleap, _⟩ := h
  obtain ⟨hj, hlast⟩ := hleap he
  have hfour : (100 * c + 4 * q + j + era * 400 + 1) % 4 = 0 := by omega
  have hcentury : (100 * c + 4 * q + j + era * 400 + 1) % 100 ≠ 0
      ∨ (100 * c + 4 * q + j + era * 400 + 1) % 400 = 0 := by
    by_cases hq24 : q = 24
    · have := hlast hq24
      omega
    · omega
  simpa [Calendar.isLeap, hfour] using hcentury

end Place

/-- The month of a day of the year, counted from March. -/
def monthOf (e : Int) : Int := (5 * e + 2) / 153

/-- The date of the day `e` of a year, both counted from March. -/
def dateOf (year e : Int) : Date :=
  let month := if monthOf e < 10 then monthOf e + 3 else monthOf e - 9
  ⟨if month ≤ 2 then year + 1 else year, month.toNat,
    (e - (153 * monthOf e + 2) / 5 + 1).toNat⟩

/-- The date of a day by its place in its era. -/
theorem ofDays_place {n d c q j e : Int} (era : Int)
    (hn : n + 719468 = era * 146097 + d) (h0 : 0 ≤ d) (h1 : d < 146097)
    (h : Place d c q j e) (hy : yearOfEra d = 100 * c + 4 * q + j) :
    Date.ofDays n = dateOf (100 * c + 4 * q + j + era * 400) e := by
  have hera : (n + 719468).fdiv 146097 = era := by
    rw [Int.fdiv_eq_ediv_of_nonneg _ (by omega)]
    omega
  have hd : n + 719468 - era * 146097 = d := by omega
  have hbefore := h.before
  rw [← hy] at hbefore ⊢
  have he : d - (365 * yearOfEra d + yearOfEra d / 4 - yearOfEra d / 100)
      = e := by omega
  simp only [Date.ofDays, hera, hd]
  rw [← yearOfEra, he]
  rfl

/-- The days before a date of that form are those before its year and
those before it in its year. -/
theorem toDays_dateOf {d c q j e : Int} (h : Place d c q j e) (era : Int) :
    (dateOf (100 * c + 4 * q + j + era * 400) e).toDays
      = era * 146097 + d - 719468 := by
  obtain ⟨y, hy⟩ : ∃ y, y = 100 * c + 4 * q + j := ⟨_, rfl⟩
  obtain ⟨m, hm⟩ : ∃ m, m = monthOf e := ⟨_, rfl⟩
  have hbefore := h.before
  have hbounds : 0 ≤ y ∧ y < 400 := by
    have := h.century
    have := h.span
    have := h.year
    omega
  have hmonth : 0 ≤ m ∧ m ≤ 11 := by
    have := h.day
    rw [hm, monthOf]
    omega
  have hday : 0 ≤ e - (153 * m + 2) / 5 + 1 := by
    rw [hm, monthOf]
    omega
  have hera : (y + era * 400).fdiv 400 = era := by
    rw [Int.fdiv_eq_ediv_of_nonneg _ (by omega)]
    omega
  rw [← hy] at hbefore ⊢
  unfold dateOf
  rw [← hm]
  by_cases h10 : m < 10
  · have hlate : ¬ m + 3 ≤ 2 := by omega
    have hlate' : ¬ (m + 3).toNat ≤ 2 := by omega
    have hback : ((m + 3).toNat : Int) - 3 = m := by omega
    simp only [if_pos h10, if_neg hlate, Date.toDays, if_neg hlate', hera,
      hback]
    omega
  · have hearly : m - 9 ≤ 2 := by omega
    have hearly' : (m - 9).toNat ≤ 2 := by omega
    have hback : ((m - 9).toNat : Int) + 9 = m := by omega
    have hyear : y + era * 400 + 1 - 1 = y + era * 400 := by omega
    simp only [if_neg h10, if_pos hearly, Date.toDays, if_pos hearly',
      hyear, hera, hback]
    omega

/-- A day's date gives its number back. -/
theorem toDays_ofDays (n : Int) : (Date.ofDays n).toDays = n := by
  obtain ⟨c, q, j, e, h, hy⟩ := exists_place
    (d := (n + 719468) % 146097) (by omega) (by omega)
  rw [ofDays_place ((n + 719468) / 146097) (by omega) (by omega)
    (by omega) h hy, toDays_dateOf h]
  omega

/-- The months that are counted from March have their lengths. -/
theorem valid_dateOf {d c q j e : Int} (h : Place d c q j e) (era : Int) :
    (dateOf (100 * c + 4 * q + j + era * 400) e).valid = true := by
  obtain ⟨year, hyear⟩ : ∃ y, y = 100 * c + 4 * q + j + era * 400 :=
    ⟨_, rfl⟩
  have hleap := fun he => h.isLeap he era
  have hday := h.day
  rw [← hyear] at hleap ⊢
  obtain ⟨m, hm⟩ : ∃ m, m = monthOf e := ⟨_, rfl⟩
  have hfit : 153 * m ≤ 5 * e + 2 ∧ 5 * e + 2 < 153 * m + 153 := by
    rw [hm, monthOf]
    omega
  have hmonth : m = 0 ∨ m = 1 ∨ m = 2 ∨ m = 3 ∨ m = 4 ∨ m = 5 ∨ m = 6
      ∨ m = 7 ∨ m = 8 ∨ m = 9 ∨ m = 10 ∨ m = 11 := by omega
  unfold dateOf
  rw [← hm]
  rcases hmonth with rfl | rfl | rfl | rfl | rfl | rfl | rfl | rfl | rfl
    | rfl | rfl | rfl
  rotate_right
  · -- February, the last month, is the one that depends on the year.
    by_cases he : e = 365
    · simp [Date.valid, monthDays, hleap he, he]
    · have hlen : 28 ≤ monthDays (year + 1) 2 := by
        rw [monthDays, if_pos rfl]
        split <;> omega
      simp [Date.valid]
      omega
  all_goals
    simp [Date.valid, monthDays]
    omega

/-- Every day is a day of the calendar. -/
theorem valid_ofDays (n : Int) : (Date.ofDays n).valid = true := by
  obtain ⟨c, q, j, e, h, hy⟩ := exists_place
    (d := (n + 719468) % 146097) (by omega) (by omega)
  rw [ofDays_place ((n + 719468) / 146097) (by omega) (by omega)
    (by omega) h hy]
  exact valid_dateOf h _

/-- The year of a day lies in its era, or is the first behind it. -/
theorem year_ofDays (n : Int) :
    (n + 719468) / 146097 * 400 ≤ (Date.ofDays n).year
      ∧ (Date.ofDays n).year ≤ (n + 719468) / 146097 * 400 + 400 := by
  obtain ⟨c, q, j, e, h, hy⟩ := exists_place
    (d := (n + 719468) % 146097) (by omega) (by omega)
  rw [ofDays_place ((n + 719468) / 146097) (by omega) (by omega)
    (by omega) h hy]
  obtain ⟨hc, hq, hj, -, -, -⟩ := h
  unfold dateOf
  dsimp only
  split <;> omega

theorem monthDays_le (year : Int) (month : Nat) :
    monthDays year month ≤ 31 := by
  unfold monthDays
  repeat' split
  all_goals omega

/-- The month and the day of a date lie in the bounds of all dates. -/
theorem bounds_ofDays (n : Int) :
    (1 ≤ (Date.ofDays n).month ∧ (Date.ofDays n).month ≤ 12)
      ∧ 1 ≤ (Date.ofDays n).day ∧ (Date.ofDays n).day ≤ 31 := by
  have h := valid_ofDays n
  have hlen := monthDays_le (Date.ofDays n).year (Date.ofDays n).month
  simp only [Date.valid, Bool.and_eq_true, decide_eq_true_eq] at h
  omega

end ControlPlane.Calendar
