/-
A point in time is read back from its text, to the nanosecond, over all
years that are read, in front of the year zero and behind the year 9999
too, and on leap seconds; and no other points have texts
(`exists_parse?_iff`).

The text is a row of parts: digits of a fixed width, and marks between
them. Each reader takes its part off the front and leaves the rest, so
the law of the whole is put together from one law for each part; the
year is the one part of more than one shape. White space, which may
stand before a part, is never written, so the readers find none.

# Digits of a width
# Parts
# The date and the time of day
# The whole text
# What was read

Chain: Digits.lean, Time/Calendar.lean → Time/Written (this file) →
Records.lean.
-/
import ControlPlane.Proofs.Digits
import ControlPlane.Proofs.Time.Calendar

namespace ControlPlane.Timestamp

open Digits (All Over values)

-- =================================================== digits of a width

theorem all_padded (width n : Nat) : All (padded width n) := by
  refine Digits.All.append ?_ (Digits.all_toDigits n)
  intro c hc
  rw [List.eq_of_mem_replicate hc]
  rfl

theorem ofDigits_padded (width n : Nat) :
    ofDigits (values (padded width n)) = n := by
  rw [Digits.ofDigits_values, padded, Nat.ofDigitChars_append,
    Nat.ofDigitChars_replicate_zero, Nat.mul_zero,
    Nat.ofDigitChars_ten_toDigits]

/-- A number that fits has exactly the width. -/
theorem length_padded {width n : Nat} (hw : 0 < width)
    (h : n < 10 ^ width) : (padded width n).length = width := by
  have hlen := (Nat.length_toDigits_le_iff (b := 10) (by omega) hw).2 h
  simp only [padded, List.length_append, List.length_replicate]
  omega

theorem exists_padded (width n : Nat) :
    ∃ c cs, padded width n = c :: cs ∧ c.isDigit = true := by
  have hall := all_padded width n
  cases h : padded width n with
  | nil =>
      have := Nat.length_toDigits_pos (b := 10) (n := n)
      have := congrArg List.length h
      simp only [padded, List.length_append, List.length_nil] at this
      omega
  | cons c cs =>
      rw [h] at hall
      exact ⟨c, cs, rfl, hall.head⟩

theorem exists_values (width n : Nat) :
    ∃ d ds, values (padded width n) = d :: ds ∧ ofDigits (d :: ds) = n := by
  obtain ⟨c, cs, h, -⟩ := exists_padded width n
  have hval := ofDigits_padded width n
  rw [h, Digits.values_cons] at hval
  exact ⟨_, _, by rw [h, Digits.values_cons], hval⟩

theorem not_isBlank_digit {c : Char} (h : c.isDigit = true) :
    Text.isBlank c = false := by
  have hc := Digits.toNat_digit h
  simp only [Text.isBlank, Bool.or_eq_false_iff, Bool.and_eq_false_iff,
    decide_eq_false_iff_not]
  omega

theorem trimStart_cons {c : Char} (h : Text.isBlank c = false)
    (cs : List Char) : Text.trimStart (c :: cs) = c :: cs := by
  simp [Text.trimStart, h]

theorem trimStart_padded (width n : Nat) (tail : List Char) :
    Text.trimStart (padded width n ++ tail) = padded width n ++ tail := by
  obtain ⟨c, cs, h, hc⟩ := exists_padded width n
  rw [h, List.cons_append, trimStart_cons (not_isBlank_digit hc)]

-- =============================================================== parts

theorem readPart_padded {width : Nat} (n : Nat) (hw : 0 < width)
    (h : n < 10 ^ width) (tail : List Char) :
    readPart width (padded width n ++ tail) = some (n, tail) := by
  have hlen := length_padded hw h
  obtain ⟨d, ds, hds, hval⟩ := exists_values width n
  rw [readPart, trimStart_padded,
    Digits.takeDigits_most (all_padded width n) (by omega) (Or.inl hlen)]
  simp only [hds, hval]

theorem readBetween_padded {low high n : Nat} (hlow : low ≤ n)
    (hhigh : n ≤ high) (h : n < 100) (tail : List Char) :
    readBetween low high (padded 2 n ++ tail) = some (n, tail) := by
  rw [readBetween, readPart_padded n (by omega) h]
  simp [hlow, hhigh]

theorem readMark_cons {mark : Char} (h : Text.isBlank mark = false)
    (rest : List Char) : readMark mark (mark :: rest) = some rest := by
  simp [readMark, trimStart_cons h]

/-- The digits of a year behind its sign. -/
theorem signed_padded (sign : Int) (n : Nat) {tail : List Char}
    (h : Over tail) :
    readYear.signed sign (padded 4 n ++ tail) = some (sign * n, tail) := by
  obtain ⟨d, ds, hds, hval⟩ := exists_values 4 n
  rw [readYear.signed, Digits.takeDigits_most (all_padded 4 n)
    (by simp) (Or.inr h)]
  simp only [hds, hval]

/-- A year is read back, with or without a sign. -/
theorem readYear_yearChars (year : Int) {tail : List Char} (h : Over tail) :
    readYear (yearChars year ++ tail) = some (year, tail) := by
  unfold yearChars
  split
  · rename_i hfour
    obtain ⟨c, cs, hcs, hc⟩ := exists_padded 4 year.toNat
    have hpart := readPart_padded year.toNat (Nat.zero_lt_succ 3)
      (by omega) tail
    have hyear : (year.toNat : Int) = year := by omega
    rw [readYear, trimStart_padded]
    rw [hcs, List.cons_append] at hpart ⊢
    split
    · simp_all
    · simp_all
    · simp [hpart, hyear]
  · split
    · have hyear : (-1 : Int) * (year.natAbs : Int) = year := by omega
      rw [List.cons_append, readYear, trimStart_cons (by decide)]
      simp only [signed_padded (-1) year.natAbs h, hyear]
    · have hyear : (1 : Int) * (year.natAbs : Int) = year := by omega
      rw [List.cons_append, readYear, trimStart_cons (by decide)]
      simp only [signed_padded 1 year.natAbs h, hyear]

/-- The digits of a fraction behind its point, filled up to nine. -/
theorem readFraction_padded {width n : Nat} (hw : 0 < width)
    (hw9 : width ≤ 9) (h : n < 10 ^ width) :
    readFraction ('.' :: padded width n ++ ['Z'])
      = some (n * 10 ^ (9 - width), ['Z']) := by
  have hlen := length_padded hw h
  have hover : Over ['Z'] := by simp
  obtain ⟨d, ds, hds, hval⟩ := exists_values width n
  have hcount : (d :: ds).length = width := by
    rw [← hds, Digits.length_values, hlen]
  have hstop : takeDigits 1 ['Z'] = ([], ['Z']) := by decide
  rw [List.cons_append, readFraction,
    Digits.takeDigits_most (all_padded width n) (by omega) (Or.inr hover)]
  simp only [hds, hval, hcount, List.length_cons, List.length_nil]
  rw [hstop]
  rfl

/-- A fraction is written with as many groups as it needs. -/
theorem readFraction_fractionChars {nanos : Nat} (h : nanos < 1000000000) :
    readFraction (fractionChars nanos ++ ['Z']) = some (nanos, ['Z']) := by
  unfold fractionChars
  split
  · rename_i hzero
    rw [hzero]
    rfl
  split
  · rename_i hmilli
    rw [readFraction_padded (by omega) (by omega) (by omega)]
    congr 2
    omega
  split
  · rename_i hmicro
    rw [readFraction_padded (by omega) (by omega) (by omega)]
    congr 2
    omega
  · rw [readFraction_padded (by omega) (by omega) (by omega)]
    simp

-- ====================================== the date and the time of day

/-- The characters of a date. -/
def dateChars (d : Calendar.Date) : List Char :=
  yearChars d.year ++ '-' :: padded 2 d.month ++ '-' :: padded 2 d.day

/-- The characters of a time of day, in universal time: of its second and
the nanoseconds behind it. -/
def clockChars (s nanos : Nat) : List Char :=
  padded 2 (s / 3600) ++ ':' :: padded 2 (s / 60 % 60)
    ++ ':' :: padded 2 (s % 60 + nanos / 1000000000)
    ++ fractionChars (nanos % 1000000000) ++ ['Z']

theorem chars_eq (t : Timestamp) :
    t.chars = dateChars (Calendar.Date.ofDays t.day)
      ++ 'T' :: clockChars t.secOfDay.toNat t.nanos := by
  simp only [chars, dateChars, clockChars, List.append_assoc,
    List.cons_append]

theorem readDate_dateChars {d : Calendar.Date} (tail : List Char)
    (hmonth : 1 ≤ d.month ∧ d.month ≤ 12) (hday : 1 ≤ d.day ∧ d.day ≤ 31) :
    readDate (dateChars d ++ tail) = some (d, tail) := by
  have hdash : Text.isBlank '-' = false := by decide
  simp only [readDate, dateChars, List.append_assoc, List.cons_append]
  rw [readYear_yearChars _ (by simp)]
  simp only [Option.bind_eq_bind, Option.bind_some, readMark_cons hdash,
    readBetween_padded hmonth.1 hmonth.2 (by omega),
    readBetween_padded hday.1 hday.2 (by omega)]
  rfl

/-- A time of day is read back. Nanoseconds of a thousand million and
more are those of the second 60, which only the last second of a minute
can have behind it. -/
theorem readTime_clockChars {s nanos : Nat} (hs : s < 86400)
    (hn : nanos < 2000000000) (hleap : 1000000000 ≤ nanos → s % 60 = 59) :
    readTime (clockChars s nanos) = some (s, nanos, ['Z']) := by
  have hcolon : Text.isBlank ':' = false := by decide
  have hh : s / 3600 ≤ 23 := by omega
  have hm : s / 60 % 60 ≤ 59 := by omega
  have hsec : s % 60 + nanos / 1000000000 ≤ 60 := by omega
  simp only [readTime, clockChars, List.append_assoc, List.cons_append]
  simp only [readBetween_padded (Nat.zero_le _) hh (by omega),
    readBetween_padded (Nat.zero_le _) hm (by omega),
    readBetween_padded (Nat.zero_le _) hsec (by omega),
    readMark_cons hcolon, Option.bind_eq_bind, Option.bind_some,
    readFraction_fractionChars (Nat.mod_lt nanos (by omega))]
  rw [Option.pure_def, Option.some_inj]
  split
  · simp only [Prod.mk.injEq, and_true]
    omega
  · have hzero : nanos / 1000000000 = 0 := by
      by_contra hne
      have := hleap (by omega)
      omega
    simp only [Prod.mk.injEq, and_true]
    omega

-- ====================================================== the whole text

/-- The day and the seconds that it leaves make up the point. -/
theorem day_add_secOfDay (t : Timestamp) :
    t.day * daySecs + t.secOfDay = t.secs
      ∧ 0 ≤ t.secOfDay ∧ t.secOfDay < 86400 := by
  have hday : t.day = t.secs / 86400 :=
    Int.fdiv_eq_ediv_of_nonneg _ (by decide)
  have hsec : t.secOfDay = t.secs % 86400 :=
    Int.fmod_eq_emod_of_nonneg _ (by decide)
  rw [hday, hsec, daySecs]
  omega

/-- A point in time is read back from its text. -/
theorem parse?_text {t : Timestamp} (h : t.Valid) :
    parse? t.text = some t := by
  obtain ⟨hnanos, hleap, hyears⟩ := h
  obtain ⟨hsum, hpos, hlt⟩ := day_add_secOfDay t
  obtain ⟨hmonth, hday⟩ := Calendar.bounds_ofDays t.day
  have hyear : inRange (Calendar.Date.ofDays t.day) = true := by
    simpa [inRange] using hyears
  have htime : readTime (clockChars t.secOfDay.toNat t.nanos)
      = some (t.secOfDay.toNat, t.nanos, ['Z']) := by
    refine readTime_clockChars (by omega) hnanos fun hge => ?_
    have h59 := hleap hge
    rw [Int.fmod_eq_emod_of_nonneg _ (by decide)] at h59
    rw [daySecs] at hsum
    omega
  have hzone : Text.trimStart ['Z'] = ['Z'] := by decide
  have hoffset : readOffset ['Z'] = some (0, []) := rfl
  have hend : Text.trimStart [] = [] := rfl
  have hback : (⟨t.day * daySecs + t.secOfDay.toNat - 0, t.nanos⟩
      : Timestamp) = t := by
    rw [Int.toNat_of_nonneg hpos, Int.sub_zero, hsum]
  simp only [parse?, text, String.toList_ofList, chars_eq,
    readDate_dateChars _ hmonth hday, Option.bind_eq_bind,
    Option.bind_some, true_or, if_true, htime, hzone, hoffset, hend,
    Calendar.valid_ofDays, Calendar.toDays_ofDays, hyear, hback]
  rfl

-- ======================================================= what was read

/-- A scanner takes digits, and no more than it may. -/
theorem takeDigits_bounds {most : Nat} {cs tail : List Char}
    {ds : List Nat} (h : takeDigits most cs = (ds, tail)) :
    ds.length ≤ most ∧ ∀ d ∈ ds, d ≤ 9 := by
  induction most generalizing cs ds tail with
  | zero =>
      cases h
      exact ⟨Nat.le_refl _, nofun⟩
  | succ most ih =>
      cases cs with
      | nil =>
          cases h
          exact ⟨Nat.zero_le _, nofun⟩
      | cons c cs =>
          rw [takeDigits, Digits.timestamp_digit?_eq] at h
          split at h
          · rename_i d hd
            cases h
            obtain ⟨hlen, hall⟩ := ih rfl
            refine ⟨Nat.succ_le_succ hlen, fun e he => ?_⟩
            rcases List.mem_cons.mp he with rfl | he
            · split at hd
              · rename_i hdigit
                have := (Digits.toNat_digit hdigit).2
                cases hd
                omega
              · cases hd
            · exact hall e he
          · cases h
            exact ⟨Nat.zero_le _, nofun⟩

/-- As many digits make a number of that many digits. -/
theorem foldl_lt {ds : List Nat} (h : ∀ d ∈ ds, d ≤ 9) (n : Nat) :
    ds.foldl (fun n d => n * 10 + d) n < (n + 1) * 10 ^ ds.length := by
  induction ds generalizing n with
  | nil => simp
  | cons d ds ih =>
      have hd := h d (by simp)
      have hds := ih (fun e he => h e (by simp [he])) (n * 10 + d)
      calc (d :: ds).foldl (fun n d => n * 10 + d) n
          < (n * 10 + d + 1) * 10 ^ ds.length := hds
        _ ≤ ((n + 1) * 10) * 10 ^ ds.length :=
            Nat.mul_le_mul_right _ (by omega)
        _ = (n + 1) * 10 ^ (d :: ds).length := by
            rw [List.length_cons, Nat.pow_succ, Nat.mul_assoc,
              Nat.mul_comm 10]

theorem readFraction_lt {cs tail : List Char} {nanos : Nat}
    (h : readFraction cs = some (nanos, tail)) : nanos < 1000000000 := by
  unfold readFraction at h
  split at h
  · rename_i rest
    split at h
    · cases h
    · rename_i ds tail' hne hds
      cases h
      obtain ⟨hlen, hall⟩ := takeDigits_bounds hds
      have hlt : ofDigits ds < 10 ^ ds.length := by
        simpa [ofDigits] using foldl_lt hall 0
      calc ofDigits ds * 10 ^ (9 - ds.length)
          < 10 ^ ds.length * 10 ^ (9 - ds.length) :=
            Nat.mul_lt_mul_of_pos_right hlt (Nat.pow_pos (by omega))
        _ = 1000000000 := by
            rw [← Nat.pow_add, Nat.add_sub_cancel' hlen]
  · cases h
    omega

/-- The second 60 is the leap second of the last second of a minute. -/
theorem readTime_bounds {cs tail : List Char} {s nanos : Nat}
    (h : readTime cs = some (s, nanos, tail)) :
    nanos < 2000000000 ∧ (1000000000 ≤ nanos → s % 60 = 59) := by
  simp only [readTime, Option.bind_eq_bind, Option.bind_eq_some_iff] at h
  obtain ⟨⟨hour, c₁⟩, -, c₂, -, ⟨minute, c₃⟩, -, c₄, -, ⟨second, c₅⟩, -,
    ⟨fraction, c₆⟩, hfraction, hend⟩ := h
  have hlt := readFraction_lt hfraction
  simp only [Option.pure_def, Option.some.injEq] at hend
  split at hend
  · cases hend
    omega
  · cases hend
    omega

theorem readOffsetParts_minutes {sign : Int} {cs tail : List Char}
    {offset : Int} (h : readOffsetParts sign cs = some (offset, tail)) :
    offset % 60 = 0 := by
  unfold readOffsetParts at h
  split at h
  · cases h
  split at h
  · cases h
  split at h
  · cases h
    refine Int.emod_eq_zero_of_dvd
      (Int.dvd_trans ?_ (Int.dvd_mul_left _ _))
    omega
  · cases h

theorem readOffset_minutes {cs tail : List Char} {offset : Int}
    (h : readOffset cs = some (offset, tail)) : offset % 60 = 0 := by
  unfold readOffset at h
  split at h
  all_goals first
    | exact readOffsetParts_minutes h
    | (cases h; done)
    | (cases h; rfl)
    | skip
  · split at h
    · cases h
      rfl
    · cases h

/-- Every point that is read can be written and read again. -/
theorem valid_of_parse? {s : String} {t : Timestamp}
    (h : parse? s = some t) : t.Valid := by
  simp only [parse?, Option.bind_eq_bind] at h
  obtain ⟨⟨date, c₁⟩, -, h⟩ := Option.bind_eq_some_iff.mp h
  cases c₁ with
  | nil => cases h
  | cons c c₁ =>
      simp only at h
      split at h
      · simp only [Option.bind_some, Option.bind_eq_some_iff] at h
        obtain ⟨⟨sec, nanos, c₃⟩, htime, ⟨offset, c₄⟩, hoffset, hend⟩ := h
        obtain ⟨hnanos, hleap⟩ := readTime_bounds htime
        have hminutes := readOffset_minutes hoffset
        simp only at hend
        split at hend
        · cases hend
        split at hend
        · rename_i hrange
          cases hend
          refine ⟨hnanos, fun hge => ?_, by simpa [inRange] using hrange⟩
          have hlast : sec % 60 = 59 := hleap hge
          rw [Int.fmod_eq_emod_of_nonneg _ (by decide), daySecs]
          simp only
          omega
        · cases hend
      · cases h

/-- The points that have texts are the valid ones. -/
theorem exists_parse?_iff (t : Timestamp) :
    (∃ s, parse? s = some t) ↔ t.Valid :=
  ⟨fun ⟨_, h⟩ => valid_of_parse? h, fun h => ⟨_, parse?_text h⟩⟩

end ControlPlane.Timestamp
