/-
Identifiers are read back from their written form, so that different
identifiers are written differently. The digits are those of the number
to base sixteen, from the highest on, and putting them together again is
the number; the hyphens stand at fixed places, and taking the text apart
there gives the digits.

# The digits
# The groups
# The written form

Chain: Json/Values.lean (digits to base sixteen) → Identifiers (this
file) → Messages.lean, Etcd/Ranges.lean.
-/
import ControlPlane.Proofs.Json.Values
import ControlPlane.Uuid

namespace ControlPlane.Uuid

-- ========================================================== the digits

@[simp] theorem length_digits (u : Uuid) : u.digits.length = 32 := by
  simp [digits]

theorem digits_lt (u : Uuid) : ∀ d ∈ u.digits, d < 16 := by
  intro d hd
  obtain ⟨i, -, rfl⟩ := List.mem_map.mp hd
  exact Nat.mod_lt _ (by decide)

/-- Identifiers and texts know the same digits. -/
theorem digit?_hexDigit {n : Nat} (h : n < 16) :
    digit? (Json.hexDigit n) = some n :=
  Json.hexDigit?_hexDigit h

theorem digits?_hexDigits {ds : List Nat} (h : ∀ d ∈ ds, d < 16) :
    digits? (ds.map Json.hexDigit) = some ds := by
  induction ds with
  | nil => rfl
  | cons d ds ih =>
      have hd := digit?_hexDigit (h d (by simp))
      have hds := ih fun e he => h e (by simp [he])
      simp only [List.map_cons, digits?, hd, hds]

/-- The highest `k` digits of a number, put together, are what is left
of it without the others. -/
theorem foldl_digits {n : Nat} (hn : n < 2 ^ 128) (k : Nat) (hk : k ≤ 32) :
    ((List.range k).map fun i => (n >>> (4 * (31 - i))) % 16).foldl
      (fun n d => n * 16 + d) 0 = n >>> (4 * (32 - k)) := by
  induction k with
  | zero =>
      rw [Nat.shiftRight_eq_div_pow, Nat.div_eq_of_lt hn]
      rfl
  | succ k ih =>
      have hshift : n >>> (4 * (32 - k)) = n >>> (4 * (31 - k)) / 16 := by
        rw [show 4 * (32 - k) = 4 * (31 - k) + 4 by omega,
          Nat.shiftRight_add, Nat.shiftRight_eq_div_pow _ 4]
      rw [List.range_succ, List.map_append, List.foldl_append,
        ih (by omega), hshift, show 32 - (k + 1) = 31 - k by omega]
      simp only [List.map_cons, List.map_nil, List.foldl_cons,
        List.foldl_nil]
      omega

theorem ofDigits?_digits (u : Uuid) : ofDigits? u.digits = some u := by
  have hfold := foldl_digits u.bits.isLt 32 (le_refl _)
  rw [ofDigits?, if_pos u.length_digits, digits, hfold]
  simp

-- ========================================================== the groups

/-- Characters in groups of 8, 4, 4, 4 and 12. -/
def grouped (cs : List Char) : List Char :=
  cs.take 8 ++ '-' :: (cs.drop 8).take 4 ++ '-' :: (cs.drop 12).take 4
    ++ '-' :: (cs.drop 16).take 4 ++ '-' :: cs.drop 20

theorem grouped_append {a b c d : List Char} (ha : a.length = 8)
    (hb : b.length = 4) (hc : c.length = 4) (hd : d.length = 4)
    {e : List Char} :
    grouped (a ++ (b ++ (c ++ (d ++ e))))
      = a ++ '-' :: (b ++ '-' :: (c ++ '-' :: (d ++ '-' :: e))) := by
  simp (disch := omega) [grouped, List.drop_append,
    List.drop_of_length_le, ha, hb, hc]

theorem mem_grouped {c : Char} {cs : List Char} (h : c ∈ grouped cs) :
    c = '-' ∨ c ∈ cs := by
  have hpart := fun n m (h : c ∈ (cs.drop n).take m) =>
    List.mem_of_mem_drop (List.mem_of_mem_take h)
  simp only [grouped, List.append_assoc, List.cons_append,
    List.mem_append, List.mem_cons] at h
  rcases h with h | h | h | h | h | h | h | h | h
  · exact Or.inr (List.mem_of_mem_take h)
  · exact Or.inl h
  · exact Or.inr (hpart _ _ h)
  · exact Or.inl h
  · exact Or.inr (hpart _ _ h)
  · exact Or.inl h
  · exact Or.inr (hpart _ _ h)
  · exact Or.inl h
  · exact Or.inr (List.mem_of_mem_drop h)

/-- The hyphens stand at their places, and the rest is what was
grouped. -/
theorem ungrouped {cs : List Char} (h : cs.length = 32) :
    (grouped cs).length = 36
      ∧ (grouped cs)[8]? = some '-' ∧ (grouped cs)[13]? = some '-'
      ∧ (grouped cs)[18]? = some '-' ∧ (grouped cs)[23]? = some '-'
      ∧ (grouped cs).take 8 ++ ((grouped cs).drop 9).take 4
        ++ ((grouped cs).drop 14).take 4 ++ ((grouped cs).drop 19).take 4
        ++ (grouped cs).drop 24 = cs := by
  obtain ⟨a, b, c, d, e, rfl, ha, hb, hc, hd, he⟩ : ∃ a b c d e,
      cs = a ++ (b ++ (c ++ (d ++ e))) ∧ a.length = 8 ∧ b.length = 4
        ∧ c.length = 4 ∧ d.length = 4 ∧ e.length = 12 := by
    refine ⟨cs.take 8, (cs.drop 8).take 4, (cs.drop 12).take 4,
      (cs.drop 16).take 4, cs.drop 20, ?_, by simp [h]⟩
    have h8 := List.take_append_drop 8 cs
    have h12 := List.take_append_drop 4 (cs.drop 8)
    have h16 := List.take_append_drop 4 (cs.drop 12)
    have h20 := List.take_append_drop 4 (cs.drop 16)
    rw [List.drop_drop] at h12 h16 h20
    rw [h20, h16, h12, h8]
  rw [grouped_append ha hb hc hd]
  simp (disch := omega) [List.drop_append, List.getElem?_append,
    List.drop_of_length_le, ha, hb, hc, hd, he]
  exact ⟨rfl, rfl, rfl, rfl⟩

-- ==================================================== the written form

theorem chars_eq (u : Uuid) :
    u.chars = grouped (u.digits.map Json.hexDigit) := rfl

theorem ofHyphenated?_chars (u : Uuid) :
    ofHyphenated? u.chars = some u := by
  have hdigits : (u.digits.map Json.hexDigit).length = 32 := by simp
  obtain ⟨hlen, h8, h13, h18, h23, hrest⟩ := ungrouped hdigits
  rw [chars_eq, ofHyphenated?, if_pos ⟨hlen, h8, h13, h18, h23⟩, hrest,
    digits?_hexDigits u.digits_lt, Option.bind_some, ofDigits?_digits]

/-- An identifier is read back from its written form. -/
theorem parse?_text (u : Uuid) : parse? u.text = some u := by
  have hlen : u.chars.length = 36 := (ungrouped (by simp)).1
  simp only [parse?, text, String.toList_ofList, hlen, if_true,
    ofHyphenated?_chars]
  rfl

/-- Different identifiers are written differently. -/
theorem text_injective {u v : Uuid} (h : u.text = v.text) : u = v :=
  Option.some.inj (by rw [← parse?_text, h, parse?_text])

theorem length_text (u : Uuid) : u.text.toList.length = 36 := by
  rw [text, String.toList_ofList]
  exact (ungrouped (by simp)).1

end ControlPlane.Uuid
