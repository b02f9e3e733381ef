/-
Decimal digits. Numbers are printed by `Nat.toDigits 10`, in JSON texts
and in the parts of a date alike, and read by one scanner that takes
digits as long as there are any and one that takes a given number of
them. What is printed is read back: a scanner stops behind the digits,
and their value is the number. Of two rows of as many digits, that of
the smaller number comes first in the order of texts.

Chain: Digits (this file) → Json/Values.lean (numbers),
Time/Written.lean (the parts of a date and a time) and Chronology.lean
(the order of keys).
-/
import Mathlib.Data.Char
import Mathlib.Data.Nat.Digits.Defs
import ControlPlane.Text.Json.Reader
import ControlPlane.Time.Timestamp

namespace ControlPlane.Digits

/-- The values of digits. -/
def values (cs : List Char) : List Nat := cs.map fun c => c.toNat - 48

/-- The characters are digits. -/
def All (cs : List Char) : Prop := ∀ c ∈ cs, c.isDigit = true

/-- The text does not go on with a digit. -/
def Over (tail : List Char) : Prop := ∀ c ∈ tail.head?, c.isDigit = false

@[simp] theorem values_nil : values [] = [] := rfl

@[simp] theorem values_cons (c : Char) (cs : List Char) :
    values (c :: cs) = (c.toNat - 48) :: values cs := rfl

@[simp] theorem length_values (cs : List Char) :
    (values cs).length = cs.length := List.length_map _

@[simp] theorem over_nil : Over [] := by simp [Over]

@[simp] theorem over_cons (c : Char) (cs : List Char) :
    Over (c :: cs) ↔ c.isDigit = false := by simp [Over]

theorem All.head {c : Char} {cs : List Char} (h : All (c :: cs)) :
    c.isDigit = true := h c (by simp)

theorem All.tail {c : Char} {cs : List Char} (h : All (c :: cs)) :
    All cs := fun d hd => h d (by simp [hd])

theorem All.append {cs ds : List Char} (hc : All cs) (hd : All ds) :
    All (cs ++ ds) := by
  intro c h
  rcases List.mem_append.1 h with h | h
  · exact hc c h
  · exact hd c h

theorem all_toDigits (n : Nat) : All (Nat.toDigits 10 n) :=
  fun _ h => Nat.isDigit_of_mem_toDigits (by omega) (by omega) h

-- ======================================================= one character

theorem toNat_digit {c : Char} (h : c.isDigit = true) :
    48 ≤ c.toNat ∧ c.toNat ≤ 57 := by
  simpa [Char.isDigit, UInt32.le_iff_toNat_le] using h

theorem digit?_eq (c : Char) :
    Json.digit? c = if c.isDigit then some (c.toNat - 48) else none := by
  have h : ('0' ≤ c ∧ c ≤ '9') ↔ c.isDigit = true := by
    simp [Char.isDigit, Char.le_def]
  simp only [Json.digit?, h]

/-- The readers of JSON and of times know the same digits. -/
theorem timestamp_digit?_eq (c : Char) :
    Timestamp.digit? c = if c.isDigit then some (c.toNat - 48) else none :=
  digit?_eq c

-- ========================================================= the scanners

theorem takeDigits_append {cs tail : List Char} (hc : All cs)
    (ht : Over tail) :
    Json.takeDigits (cs ++ tail) = (values cs, tail) := by
  induction cs with
  | nil =>
      cases tail with
      | nil => rfl
      | cons c rest =>
          have hno : c.isDigit = false := by simpa using ht
          simp [Json.takeDigits, digit?_eq, hno]
  | cons c cs ih =>
      simp [Json.takeDigits, digit?_eq, hc.head, ih hc.tail]

/-- A scanner with a limit stops behind the digits, or at the limit. -/
theorem takeDigits_most {most : Nat} {cs tail : List Char} (hc : All cs)
    (hlen : cs.length ≤ most) (ht : cs.length = most ∨ Over tail) :
    Timestamp.takeDigits most (cs ++ tail) = (values cs, tail) := by
  induction cs generalizing most with
  | nil =>
      cases most with
      | zero => rfl
      | succ most =>
          have ht : Over tail := by simpa using ht
          cases tail with
          | nil => rfl
          | cons c rest =>
              have hno : c.isDigit = false := by simpa using ht
              simp [Timestamp.takeDigits, timestamp_digit?_eq, hno]
  | cons c cs ih =>
      cases most with
      | zero => simp at hlen
      | succ most =>
          have hlen : cs.length ≤ most := by simpa using hlen
          have ht : cs.length = most ∨ Over tail := by simpa using ht
          simp [Timestamp.takeDigits, timestamp_digit?_eq, hc.head,
            ih hc.tail hlen ht]

-- =========================================================== the values

/-- The digits of a number that starts at `s` only make it larger. -/
theorem le_ofDigitChars (cs : List Char) (s : Nat) :
    s ≤ Nat.ofDigitChars 10 cs s := by
  induction cs generalizing s with
  | nil => simp
  | cons c cs ih =>
      rw [Nat.ofDigitChars_cons]
      have := ih (10 * s + (c.toNat - '0'.toNat))
      omega

theorem ofDigits_values (cs : List Char) :
    Timestamp.ofDigits (values cs) = Nat.ofDigitChars 10 cs 0 := by
  simp [Timestamp.ofDigits, values, List.foldl_map,
    Nat.ofDigitChars_eq_foldl, Nat.mul_comm]

/-- A number below the bound of significands is read whole. -/
theorem appendDigits_values (cs : List Char) (s : Nat)
    (h : Nat.ofDigitChars 10 cs s < Json.significandBound) :
    Json.appendDigits s (values cs) = (Nat.ofDigitChars 10 cs s, 0) := by
  induction cs generalizing s with
  | nil => simp [Json.appendDigits]
  | cons c cs ih =>
      rw [Nat.ofDigitChars_cons] at h ⊢
      have hs : s * 10 + (c.toNat - 48)
          = 10 * s + (c.toNat - '0'.toNat) := by
        rw [Nat.mul_comm]
        rfl
      have hle := le_ofDigitChars cs (10 * s + (c.toNat - '0'.toNat))
      rw [values_cons, Json.appendDigits, hs, if_pos (by omega), ih _ h]

/-- A number is written without zeros in front. -/
theorem head?_toDigits {n : Nat} (hn : n ≠ 0) :
    (Nat.toDigits 10 n).head? ≠ some '0' := by
  induction n using Nat.strongRecOn with
  | ind n ih =>
      rcases Nat.lt_or_ge n 10 with hlt | hge
      · simp [Nat.toDigits_of_lt_base hlt, Nat.digitChar_eq_zero, hn]
      · have hne := Nat.toDigits_ne_nil (b := 10) (n := n / 10)
        have hih := ih (n / 10) (by omega) (by omega)
        rw [Nat.toDigits_of_base_le (by omega) hge]
        cases hd : Nat.toDigits 10 (n / 10) with
        | nil => exact absurd hd hne
        | cons c cs =>
            rw [hd] at hih
            simpa using hih

/-- Of the numbers with more than one digit none begins with a zero. -/
theorem no_leading_zero (n : Nat) :
    ¬ ((values (Nat.toDigits 10 n)).head? = some 0
      ∧ 1 < (values (Nat.toDigits 10 n)).length) := by
  rintro ⟨hzero, hlong⟩
  have hn : n ≠ 0 := by
    rintro rfl
    simp at hlong
  have hhead := head?_toDigits hn
  have hall := all_toDigits n
  cases hd : Nat.toDigits 10 n with
  | nil => exact Nat.toDigits_ne_nil hd
  | cons c cs =>
      rw [hd] at hzero hhead hall
      have hval : c.toNat ≤ 48 := by
        simpa [Nat.sub_eq_zero_iff_le] using hzero
      have hdigit : 48 ≤ c.toNat := by
        have h := hall.head
        simp only [Char.isDigit, Bool.and_eq_true, decide_eq_true_eq] at h
        exact UInt32.le_iff_toNat_le.1 h.1
      have hc : c = '0' := by
        rw [← Char.ofNat_toNat c, show c.toNat = 48 by omega]
      exact hhead (by rw [hc]; rfl)

-- ============================================================ the order

/-- What a number starts with decides, whatever digits follow. -/
theorem ofDigitChars_lt {cs ds : List Char} (hcs : All cs)
    (hlen : cs.length = ds.length) {x y : Nat} (h : x < y) :
    Nat.ofDigitChars 10 cs x < Nat.ofDigitChars 10 ds y := by
  induction cs generalizing ds x y with
  | nil =>
      obtain rfl := List.length_eq_zero_iff.mp hlen.symm
      simpa using h
  | cons c cs ih =>
      obtain ⟨d, ds, rfl⟩ := List.exists_cons_of_length_eq_add_one hlen.symm
      have hc := (toNat_digit hcs.head).2
      have hzero : '0'.toNat = 48 := rfl
      rw [Nat.ofDigitChars_cons, Nat.ofDigitChars_cons]
      exact ih hcs.tail (by simpa using hlen) (by omega)

/-- As many digits of a smaller number come first, whatever stands
behind them. -/
theorem append_lt_append {cs ds : List Char} (hcs : All cs) (hds : All ds)
    (hlen : cs.length = ds.length) {x : Nat}
    (h : Nat.ofDigitChars 10 cs x < Nat.ofDigitChars 10 ds x)
    (t u : List Char) : cs ++ t < ds ++ u := by
  induction cs generalizing ds x with
  | nil =>
      obtain rfl := List.length_eq_zero_iff.mp hlen.symm
      exact absurd h (Nat.lt_irrefl _)
  | cons c cs ih =>
      obtain ⟨d, ds, rfl⟩ := List.exists_cons_of_length_eq_add_one hlen.symm
      have htail : cs.length = ds.length := by simpa using hlen
      rw [Nat.ofDigitChars_cons, Nat.ofDigitChars_cons] at h
      rw [List.cons_append, List.cons_append, List.cons_lt_cons_iff]
      rcases lt_trichotomy c d with hlt | rfl | hgt
      · exact Or.inl hlt
      · exact Or.inr ⟨rfl, ih hcs.tail hds.tail htail h⟩
      · -- then the other number would be the smaller one
        have hd := (toNat_digit hds.head).1
        have hdc : d.toNat < c.toNat := UInt32.lt_iff_toNat_lt.1 hgt
        have hzero : '0'.toNat = 48 := rfl
        have hother := ofDigitChars_lt hds.tail htail.symm
          (by omega : 10 * x + (d.toNat - '0'.toNat)
            < 10 * x + (c.toNat - '0'.toNat))
        exact absurd h (Nat.lt_asymm hother)

end ControlPlane.Digits
