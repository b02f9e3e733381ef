/-
What is written is read back: the reader makes of a value's text the
draft of that value, and stops right behind it. The reader keeps the
rest of the text, so the statement does too: `tail` is any text that can
follow a value, and it is untouched.

Doubles are left out (`Whole`): the reader rounds a decimal with a point
its own way, so the double that comes back need not be the one written.

Fuel is counted in characters. A container spends one unit on itself and
one on each of its items, and each of these has a bracket or a comma of
its own in front, so twice the characters that are left are always
enough; a text inside quotation marks spends at most one a character.

# What may follow a value
# Texts
# Numbers
# Values, items and members

Chain: Digits.lean → Json/Values (this file) → Json/Forms.lean.
-/
import ControlPlane.Proofs.Digits
import ControlPlane.Text.Json.Form

namespace ControlPlane.Json

open Digits (values Over)

-- ============================================ what may follow a value

/-- Nothing follows, or what goes on or closes a container. -/
def Ends (tail : List Char) : Prop :=
  ∀ c ∈ tail.head?, c = ',' ∨ c = ']' ∨ c = '}'

theorem ends_nil : Ends [] := by simp [Ends]

theorem ends_cons {c : Char} {tail : List Char}
    (h : c = ',' ∨ c = ']' ∨ c = '}') : Ends (c :: tail) := by
  simpa [Ends] using h

theorem ends_itemChars (js : List Json) (tail : List Char) :
    Ends (itemChars js ++ tail) := by
  cases js with
  | nil => exact ends_cons (by simp)
  | cons j js => exact ends_cons (by simp)

theorem ends_memberChars (ms : List (String × Json)) (tail : List Char) :
    Ends (memberChars ms ++ tail) := by
  cases ms with
  | nil => exact ends_cons (by simp)
  | cons m ms => exact ends_cons (by simp)

theorem Ends.over {tail : List Char} (h : Ends tail) : Over tail := by
  intro c hc
  rcases h c hc with rfl | rfl | rfl <;> decide

-- ============================================================== texts

theorem hexDigit?_hexDigit {n : Nat} (h : n < 16) :
    hexDigit? (hexDigit n) = some n := by
  have hall : ∀ i : Fin 16, hexDigit? (hexDigit i) = some i.val := by
    decide
  exact hall ⟨n, h⟩

/-- The four digits of a control character's code. -/
theorem readUnit_control {c : Char} (h : c.toNat < 32)
    (rest : List Char) :
    readUnit ('0' :: '0' :: hexDigit (c.toNat / 16)
      :: hexDigit (c.toNat % 16) :: rest) = .ok (c.toNat, rest) := by
  have h1 := hexDigit?_hexDigit (n := c.toNat / 16) (by omega)
  have h2 := hexDigit?_hexDigit (n := c.toNat % 16) (by omega)
  have h0 : hexDigit? '0' = some 0 := by decide
  simp only [readUnit, h0, h1, h2]
  congr 2
  omega

/-- A character as it stands between quotation marks is read back at
the price of one unit of fuel. -/
theorem readText_escapeChar (fuel : Nat) (acc : List Char) (c : Char)
    (rest : List Char) :
    readText (fuel + 1) (some acc) (escapeChar c ++ rest)
      = readText fuel (some (c :: acc)) rest := by
  unfold escapeChar
  split
  · subst_vars; rfl
  split
  · subst_vars; rfl
  split
  · subst_vars; rfl
  split
  · subst_vars; rfl
  split
  · subst_vars; rfl
  split
  · rename_i h
    have hc : c = Char.ofNat 8 := by rw [← h, Char.ofNat_toNat]
    subst hc; rfl
  split
  · rename_i h
    have hc : c = Char.ofNat 12 := by rw [← h, Char.ofNat_toNat]
    subst hc; rfl
  split
  · rename_i h
    simp only [List.cons_append, List.nil_append]
    rw [readText, readUnit_control h]
    simp only [Option.map_some, Char.ofNat_toNat]
    rw [if_pos (by omega)]
  · -- a character that stands for itself
    rename_i hquote hslash _ _ _ _ _ hlow
    simp only [List.cons_append, List.nil_append]
    rw [readText.eq_def]
    split <;> simp_all

/-- A text between quotation marks is read back. -/
theorem readText_escape {fuel : Nat} (acc cs rest : List Char)
    (h : cs.length < fuel) :
    readText fuel (some acc) (escape cs ++ '"' :: rest)
      = .ok (some (String.ofList (acc.reverse ++ cs)), rest) := by
  induction cs generalizing fuel acc with
  | nil =>
      obtain ⟨fuel, rfl⟩ : ∃ k, fuel = k + 1 := ⟨fuel - 1, by omega⟩
      simp [escape, readText]
  | cons c cs ih =>
      obtain ⟨fuel, rfl⟩ : ∃ k, fuel = k + 1 := ⟨fuel - 1, by omega⟩
      have hlt : cs.length < fuel := by simpa using h
      rw [escape, List.append_assoc, readText_escapeChar,
        ih (c :: acc) hlt]
      simp

theorem length_le_escape (cs : List Char) :
    cs.length ≤ (escape cs).length := by
  induction cs with
  | nil => simp
  | cons c cs ih =>
      have hc : 1 ≤ (escapeChar c).length := by
        unfold escapeChar
        repeat' split
        all_goals simp
      simp only [escape, List.length_cons, List.length_append]
      omega

/-- A text is read back from behind its opening quotation mark. -/
theorem readText_quoted (fuel : Nat) (s : String) (rest : List Char)
    (h : (escape s.toList).length < fuel) :
    readText fuel (some []) (escape s.toList ++ '"' :: rest)
      = .ok (some s, rest) := by
  have hlen := length_le_escape s.toList
  rw [readText_escape [] s.toList rest (by omega)]
  simp

-- ============================================================ numbers

theorem readFraction_ends {tail : List Char} (h : Ends tail) :
    readFraction tail = .ok (none, tail) := by
  cases tail with
  | nil => rfl
  | cons c rest =>
      rcases h c rfl with rfl | rfl | rfl <;> rfl

theorem readExponent_ends {tail : List Char} (h : Ends tail) :
    readExponent tail = .ok (none, tail) := by
  cases tail with
  | nil => rfl
  | cons c rest =>
      rcases h c rfl with rfl | rfl | rfl <;> rfl

/-- The digits of a number are read as a numeral without a point. -/
theorem readNumeral_toDigits (negative : Bool) (n : Nat)
    {tail : List Char} (h : Ends tail) :
    readNumeral negative (Nat.toDigits 10 n ++ tail)
      = .ok (⟨negative, values (Nat.toDigits 10 n), none, none⟩, tail) := by
  have hall := Digits.all_toDigits n
  have hone := Digits.no_leading_zero n
  unfold readNumeral
  rw [Digits.takeDigits_append hall h.over]
  cases hd : Nat.toDigits 10 n with
  | nil => exact absurd hd Nat.toDigits_ne_nil
  | cons c cs =>
      rw [hd, Digits.values_cons] at hone
      simp only [Digits.values_cons, if_neg hone, readFraction_ends h,
        readExponent_ends h]

theorem number_toDigits {n : Nat}
    (low : -9223372036854775808 ≤ (n : Int))
    (high : (n : Int) < 18446744073709551616) :
    Numeral.number ⟨false, values (Nat.toDigits 10 n), none, none⟩
      = some (.integer ⟨n, low, high⟩) := by
  have h : n < 18446744073709551616 := by omega
  have hs := Digits.appendDigits_values (Nat.toDigits 10 n) 0
    (by rw [Nat.ofDigitChars_ten_toDigits]; exact h)
  rw [Nat.ofDigitChars_ten_toDigits] at hs
  simp [Numeral.number, hs, h]

theorem number_neg_toDigits {n : Nat} (hpos : 0 < n)
    (low : -9223372036854775808 ≤ -(n : Int))
    (high : -(n : Int) < 18446744073709551616) :
    Numeral.number ⟨true, values (Nat.toDigits 10 n), none, none⟩
      = some (.integer ⟨-(n : Int), low, high⟩) := by
  have h : n ≤ 9223372036854775808 := by omega
  have hs := Digits.appendDigits_values (Nat.toDigits 10 n) 0
    (by rw [Nat.ofDigitChars_ten_toDigits, significandBound]; omega)
  rw [Nat.ofDigitChars_ten_toDigits] at hs
  simp [Numeral.number, hs, hpos, h]

/-- The characters of a whole number: its digits, behind its sign. -/
theorem integer_chars (n : Integer) :
    (Number.integer n).chars
      = if 0 ≤ n.val then Nat.toDigits 10 n.val.toNat
        else '-' :: Nat.toDigits 10 (-n.val).toNat := by
  simp only [Number.chars, Int.toString_eq_repr, Int.repr_eq_if,
    Nat.repr_eq_ofList_toDigits]
  split <;> simp

/-- A number without a sign is known by its first digit. -/
theorem readScalar_toDigits (fuel n : Nat) (tail : List Char) :
    readScalar fuel (Nat.toDigits 10 n ++ tail)
      = some (readNumber false (Nat.toDigits 10 n ++ tail)) := by
  have hall := Digits.all_toDigits n
  cases hd : Nat.toDigits 10 n with
  | nil => exact absurd hd Nat.toDigits_ne_nil
  | cons c cs =>
      rw [hd] at hall
      have hc := hall.head
      have hsome : digit? c = some (c.toNat - 48) := by
        rw [Digits.digit?_eq, if_pos hc]
      rw [List.cons_append, readScalar.eq_def]
      split <;> simp_all [Char.isDigit]

/-- A whole number is read back. -/
theorem readScalar_integer (fuel : Nat) (n : Integer) {tail : List Char}
    (ht : Ends tail) :
    readScalar fuel ((Number.integer n).chars ++ tail)
      = some (.number (some (.integer n)), tail) := by
  obtain ⟨n, low, high⟩ := n
  rw [integer_chars]
  dsimp only
  split
  · rename_i hpos
    obtain ⟨m, rfl⟩ : ∃ m : Nat, n = (m : Int) := ⟨n.toNat, by omega⟩
    simp only [Int.toNat_natCast]
    rw [readScalar_toDigits, readNumber, readNumeral_toDigits false m ht]
    simp only [number_toDigits low high]
  · rename_i hneg
    obtain ⟨m, rfl⟩ : ∃ m : Nat, n = -(m : Int) := ⟨n.natAbs, by omega⟩
    have hpos : 0 < m := by omega
    simp only [Int.neg_neg, Int.toNat_natCast, List.cons_append]
    rw [readScalar, readNumber, readNumeral_toDigits true m ht]
    simp only [number_neg_toDigits hpos low high]

-- =========================================== values, items, members

mutual

/-- The value holds no double. -/
def Whole : Json → Prop
  | .number (.real _) => False
  | .array items => WholeItems items
  | .object members => WholeMembers members
  | _ => True

/-- No item holds a double. -/
def WholeItems : List Json → Prop
  | [] => True
  | j :: rest => Whole j ∧ WholeItems rest

/-- No member's value holds a double. -/
def WholeMembers : List (String × Json) → Prop
  | [] => True
  | (_, v) :: rest => Whole v ∧ WholeMembers rest

end

/-- A character that can begin a value: no white space, and not the
bracket that closes an array. -/
def Starts (c : Char) : Prop := isSpace c = false ∧ c ≠ ']'

theorem starts_digit {c : Char} (h : c.isDigit = true) : Starts c := by
  refine ⟨?_, ?_⟩
  · by_contra hs
    simp only [isSpace, Bool.or_eq_true, decide_eq_true_eq,
      Bool.not_eq_false] at hs
    rcases hs with ((rfl | rfl) | rfl) | rfl <;> simp at h
  · rintro rfl
    simp at h

instance : DecidablePred Starts := fun c =>
  inferInstanceAs (Decidable (isSpace c = false ∧ c ≠ ']'))

/-- A value's text begins with a character of the value. -/
theorem chars_starts {j : Json} (h : Whole j) :
    ∃ c cs, chars j = c :: cs ∧ Starts c := by
  cases j with
  | null => exact ⟨_, _, rfl, by decide⟩
  | bool b => cases b <;> exact ⟨_, _, rfl, by decide⟩
  | string s => exact ⟨_, _, rfl, by decide⟩
  | array items => cases items <;> exact ⟨_, _, rfl, by decide⟩
  | object members => cases members <;> exact ⟨_, _, rfl, by decide⟩
  | number n =>
      cases n with
      | real x => exact absurd h (by simp [Whole])
      | integer n =>
          rw [chars, integer_chars]
          split
          · have hall := Digits.all_toDigits n.val.toNat
            cases hd : Nat.toDigits 10 n.val.toNat with
            | nil => exact absurd hd Nat.toDigits_ne_nil
            | cons c cs =>
                rw [hd] at hall
                exact ⟨c, cs, rfl, starts_digit hall.head⟩
          · exact ⟨'-', _, rfl, by decide⟩

theorem skipSpace_starts {c : Char} (h : Starts c) (cs : List Char) :
    skipSpace (c :: cs) = c :: cs := by
  simp [skipSpace, h.1]

theorem skipSpace_chars {j : Json} (h : Whole j) (tail : List Char) :
    skipSpace (chars j ++ tail) = chars j ++ tail := by
  obtain ⟨c, cs, hcs, hc⟩ := chars_starts h
  rw [hcs, List.cons_append, skipSpace_starts hc]

/-- A value that is no container is read at once. -/
theorem readValue_scalar {fuel : Nat} {j : Json} {tail : List Char}
    (hj : Whole j)
    (h : readScalar (fuel + 1) (chars j ++ tail) = some (draft j, tail)) :
    readValue (fuel + 1) (chars j ++ tail) = (draft j, tail) := by
  rw [readValue, skipSpace_chars hj, h]

/-- A text is read back as a value. -/
theorem readScalar_quote {fuel : Nat} (s : String) (tail : List Char)
    (h : (quote s ++ tail).length ≤ fuel) :
    readScalar fuel (quote s ++ tail) = some (.string (some s), tail) := by
  have hread := readText_quoted fuel s tail (by
    simp only [quote, List.length_cons, List.length_append] at h
    omega)
  simp only [quote, List.cons_append, List.append_assoc, List.nil_append,
    readScalar, hread]

/-- An array that is not empty is its items. -/
theorem readValue_array {fuel : Nat} {c : Char} {cs rest : List Char}
    {items : Items} (hc : Starts c)
    (h : readItem fuel (c :: cs) = (items, rest)) :
    readValue (fuel + 1) ('[' :: c :: cs) = (.array items, rest) := by
  have hskip : skipSpace ('[' :: c :: cs) = '[' :: c :: cs := rfl
  rw [readValue, hskip]
  simp only [readScalar, skipSpace_starts hc]
  split
  · simp_all [Starts]
  · simp_all
  · simp only [h]

/-- Behind a comma comes another item. -/
theorem readItem_comma {fuel : Nat} {value : Draft} {c : Char}
    {text cs rest : List Char} {items : Items} (hc : Starts c)
    (hv : readValue fuel text = (value, ',' :: c :: cs))
    (h : readItem fuel (c :: cs) = (items, rest)) :
    readItem (fuel + 1) text = (.item value items, rest) := by
  have hskip : skipSpace (',' :: c :: cs) = ',' :: c :: cs := rfl
  rw [readItem, hv]
  simp only [hskip, skipSpace_starts hc]
  split
  · simp_all [Starts]
  · simp only [h]

/-- An object that is not empty is its members. -/
theorem readValue_object {fuel : Nat} {cs rest : List Char}
    {members : Members} (h : readMember fuel cs = (members, rest)) :
    readValue (fuel + 1) ('{' :: '"' :: cs) = (.object members, rest) := by
  have hskip : skipSpace ('{' :: '"' :: cs) = '{' :: '"' :: cs := rfl
  have hquote : skipSpace ('"' :: cs) = '"' :: cs := rfl
  rw [readValue, hskip]
  simp only [readScalar, hquote, h]

/-- A member is its key, a colon and its value; behind the last one the
object is closed. -/
theorem readMember_last {fuel : Nat} {key : String} {value : Draft}
    {text rest : List Char} (hk : (escape key.toList).length ≤ fuel)
    (hv : readValue fuel text = (value, '}' :: rest)) :
    readMember (fuel + 1) (escape key.toList ++ '"' :: ':' :: text)
      = (.member (.name (some key)) value .closed, rest) := by
  have hcolon : skipSpace (':' :: text) = ':' :: text := rfl
  have hend : skipSpace ('}' :: rest) = '}' :: rest := rfl
  rw [readMember, readText_quoted _ key _ (by omega)]
  simp only [hcolon, hv, hend]

/-- Behind a comma comes another member. -/
theorem readMember_comma {fuel : Nat} {key : String} {value : Draft}
    {text more rest : List Char} {members : Members}
    (hk : (escape key.toList).length ≤ fuel)
    (hv : readValue fuel text = (value, ',' :: '"' :: more))
    (h : readMember fuel more = (members, rest)) :
    readMember (fuel + 1) (escape key.toList ++ '"' :: ':' :: text)
      = (.member (.name (some key)) value members, rest) := by
  have hcolon : skipSpace (':' :: text) = ':' :: text := rfl
  have hcomma : skipSpace (',' :: '"' :: more) = ',' :: '"' :: more := rfl
  have hquote : skipSpace ('"' :: more) = '"' :: more := rfl
  rw [readMember, readText_quoted _ key _ (by omega)]
  simp only [hcolon, hv, hcomma, hquote, h]

mutual

/-- A value's text is read back. -/
theorem readValue_chars (fuel : Nat) (j : Json) (hj : Whole j)
    {tail : List Char} (ht : Ends tail)
    (hf : 2 * (chars j ++ tail).length < fuel) :
    readValue fuel (chars j ++ tail) = (draft j, tail) := by
  obtain ⟨fuel, rfl⟩ : ∃ k, fuel = k + 1 := ⟨fuel - 1, by omega⟩
  match j with
  | .null => exact readValue_scalar hj rfl
  | .bool true => exact readValue_scalar hj rfl
  | .bool false => exact readValue_scalar hj rfl
  | .number (.real x) => exact absurd hj (by simp [Whole])
  | .number (.integer n) =>
      exact readValue_scalar hj (readScalar_integer _ n ht)
  | .string s =>
      refine readValue_scalar hj (readScalar_quote s tail ?_)
      rw [chars] at hf
      omega
  | .array [] => rfl
  | .object [] => rfl
  | .array (i :: rest) =>
      rw [Whole, WholeItems] at hj
      simp only [chars, List.cons_append, List.append_assoc,
        List.length_cons] at hf ⊢
      have hitems := readItem_chars fuel i rest tail hj.1 hj.2 (by omega)
      obtain ⟨c, cs, hcs, hc⟩ := chars_starts hj.1
      rw [hcs, List.cons_append] at hitems ⊢
      exact readValue_array hc hitems
  | .object ((k, v) :: rest) =>
      rw [Whole, WholeMembers] at hj
      simp only [chars, quote, List.cons_append, List.append_assoc,
        List.length_cons, List.nil_append] at hf ⊢
      exact readValue_object
        (readMember_chars fuel k v rest tail hj.1 hj.2 (by omega))
termination_by fuel

/-- An item and those behind it are read back, up to the closing
bracket. -/
theorem readItem_chars (fuel : Nat) (j : Json) (rest : List Json)
    (tail : List Char) (hj : Whole j) (hrest : WholeItems rest)
    (hf : 2 * (chars j ++ (itemChars rest ++ tail)).length + 1 < fuel) :
    readItem fuel (chars j ++ (itemChars rest ++ tail))
      = (draftItems (j :: rest), tail) := by
  obtain ⟨fuel, rfl⟩ : ∃ k, fuel = k + 1 := ⟨fuel - 1, by omega⟩
  have hvalue := readValue_chars fuel j hj (ends_itemChars rest tail)
    (by omega)
  match rest with
  | [] => rw [readItem, hvalue]; rfl
  | i :: rest =>
      rw [WholeItems] at hrest
      simp only [itemChars, List.cons_append, List.append_assoc,
        List.length_cons, List.length_append] at hf hvalue ⊢
      have hitems := readItem_chars fuel i rest tail hrest.1 hrest.2
        (by simp only [List.length_append]; omega)
      obtain ⟨c, cs, hcs, hc⟩ := chars_starts hrest.1
      rw [hcs, List.cons_append] at hitems hvalue ⊢
      exact readItem_comma hc hvalue hitems
termination_by fuel

/-- A member and those behind it are read back from behind the opening
quotation mark of the first key, up to the closing brace. -/
theorem readMember_chars (fuel : Nat) (k : String) (v : Json)
    (rest : List (String × Json)) (tail : List Char) (hv : Whole v)
    (hrest : WholeMembers rest)
    (hf : 2 * (escape k.toList
      ++ '"' :: ':' :: (chars v ++ (memberChars rest ++ tail))).length
        + 1 < fuel) :
    readMember fuel (escape k.toList
        ++ '"' :: ':' :: (chars v ++ (memberChars rest ++ tail)))
      = (draftMembers ((k, v) :: rest), tail) := by
  obtain ⟨fuel, rfl⟩ : ∃ k, fuel = k + 1 := ⟨fuel - 1, by omega⟩
  simp only [List.length_append, List.length_cons] at hf
  have hvalue := readValue_chars fuel v hv
    (ends_memberChars rest tail)
    (by simp only [List.length_append]; omega)
  match rest with
  | [] => exact readMember_last (by omega) hvalue
  | (k', v') :: rest =>
      rw [WholeMembers] at hrest
      simp only [memberChars, quote, List.cons_append, List.append_assoc,
        List.nil_append, List.length_cons, List.length_append]
        at hf hvalue ⊢
      refine readMember_comma (by omega) hvalue
        (readMember_chars fuel k' v' rest tail hrest.1 hrest.2 ?_)
      simp only [List.length_append, List.length_cons]
      omega
termination_by fuel

end

/-- The draft of a text is the draft of the value that was written. -/
theorem ofChars_chars {j : Json} (hj : Whole j) :
    Draft.ofChars j.chars = (draft j, []) := by
  have h := readValue_chars (2 * j.chars.length + 1) j hj ends_nil
    (by simp)
  simpa [Draft.ofChars] using h

/-- A text is read by what is expected of its draft. -/
theorem readAll_text {α : Type} (expected : Draft → Except Fault α)
    {j : Json} (hj : Whole j) :
    readAll expected j.text.toList = expected (draft j) := by
  rw [text, String.toList_ofList, readAll, ofChars_chars hj]
  dsimp only
  split
  · rename_i he
    exact he.symm
  · rename_i ha
    exact ha.symm

end ControlPlane.Json
