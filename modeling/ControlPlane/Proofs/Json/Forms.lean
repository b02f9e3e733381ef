/-
Forms read what was written in their order. A writer lists the members
of an object, one for each field, with the names of the form; then the
form makes of them what each field makes of its own (`Form.Reads`). The
statement is kept by the ways in which forms are put together: `field`,
`both` and `map`. So the law of a record is the list of the laws of its
fields, and a record that gains a field gains one line.

A form with two halves asks the first half whether it knows a name and
only then the second, so the names of the halves have to be apart; that
is the one side condition.

# Forms
# Scalars
# Lists and choices

Chain: Json/Values.lean → Json/Forms (this file) → Records.lean.
-/
import ControlPlane.Proofs.Json.Values

namespace ControlPlane.Json

namespace Form

variable {α β : Type} {f : Form α} {g : Form β}
  {ms ns : List (String × Json)} {a : α} {b : β}

-- =============================================================== forms

/-- The form takes what has the name of a field, and nothing else. -/
def Named (f : Form α) : Prop :=
  ∀ key value slots, f.put key value slots = none ↔ key ∉ f.names

/-- The members are fields of the form, and the form makes `a` of them. -/
structure Reads (f : Form α) (ms : List (String × Json)) (a : α) :
    Prop where
  named : f.Named
  known : ∀ m ∈ ms, m.1 ∈ f.names
  made : ∃ slots, f.fill f.blank (draftMembers ms) = .ok slots
    ∧ f.take slots = .ok a

/-- A field is read from the member of its name. -/
theorem Reads.field {absent : Option α} {name : String}
    {read : Draft → Except Fault α} {j : Json}
    (h : read (draft j) = .ok a) :
    (Form.field absent name read).Reads [(name, j)] a where
  named key value slots := by
    by_cases hk : key = name <;> simp [Form.field, hk]
  known m hm := by simp_all [Form.field]
  made := by
    refine ⟨some a, ?_, rfl⟩
    simp [draftMembers, fill, Form.field, h, Except.map]

theorem fill_map (make : α → β) {s s' : f.Slots}
    (h : f.fill s (draftMembers ms) = .ok s') :
    (f.map make).fill s (draftMembers ms) = .ok s' := by
  induction ms generalizing s with
  | nil => exact h
  | cons m ms ih =>
      obtain ⟨key, j⟩ := m
      have hput : (f.map make).put key (draft j) s
          = f.put key (draft j) s := rfl
      simp only [draftMembers, fill] at h
      simp only [draftMembers, fill, hput]
      split at h
      · cases h
      · exact ih h
      · split at h
        · cases h
        · exact ih h

/-- What the fields make is handed on. -/
theorem Reads.map {make : α → β} (h : f.Reads ms a) :
    (f.map make).Reads ms (make a) where
  named := h.named
  known := h.known
  made := by
    obtain ⟨slots, hfill, htake⟩ := h.made
    refine ⟨slots, fill_map make hfill, ?_⟩
    simp [Form.map, htake, Except.map]

/-- Members that the first half knows go to the first half. -/
theorem fill_both_left (hnamed : f.Named)
    (hknown : ∀ m ∈ ms, m.1 ∈ f.names) {s s' : f.Slots} (t : g.Slots)
    (ns : List (String × Json))
    (h : f.fill s (draftMembers ms) = .ok s') :
    (f.both g).fill (s, t) (draftMembers (ms ++ ns))
      = (f.both g).fill (s', t) (draftMembers ns) := by
  induction ms generalizing s with
  | nil =>
      cases h
      rfl
  | cons m ms ih =>
      obtain ⟨key, j⟩ := m
      have hput : f.put key (draft j) s ≠ none := by
        rw [Ne, hnamed key]
        simpa using hknown (key, j) (by simp)
      simp only [draftMembers, fill] at h
      simp only [List.cons_append, draftMembers, fill, Form.both]
      cases hp : f.put key (draft j) s with
      | none => exact absurd hp hput
      | some r =>
          rw [hp] at h
          cases r with
          | error e => cases h
          | ok u =>
              exact ih (fun m hm => hknown m (by simp [hm])) h

/-- Members that only the second half knows go to the second half. -/
theorem fill_both_right
    (hf : f.Named) (hg : g.Named)
    (hapart : ∀ m ∈ ns, m.1 ∉ f.names) (hknown : ∀ m ∈ ns, m.1 ∈ g.names)
    (s : f.Slots) {t t' : g.Slots}
    (h : g.fill t (draftMembers ns) = .ok t') :
    (f.both g).fill (s, t) (draftMembers ns) = .ok (s, t') := by
  induction ns generalizing t with
  | nil =>
      cases h
      rfl
  | cons m ns ih =>
      obtain ⟨key, j⟩ := m
      have hnone : f.put key (draft j) s = none :=
        (hf _ _ _).2 (hapart (key, j) (by simp))
      have hput : g.put key (draft j) t ≠ none := by
        rw [Ne, hg key]
        simpa using hknown (key, j) (by simp)
      simp only [draftMembers, fill] at h
      simp only [draftMembers, fill, Form.both, hnone]
      cases hp : g.put key (draft j) t with
      | none => exact absurd hp hput
      | some r =>
          rw [hp] at h
          cases r with
          | error e => cases h
          | ok u =>
              exact ih (fun m hm => hapart m (by simp [hm]))
                (fun m hm => hknown m (by simp [hm])) h

/-- Two forms read their members one behind the other. -/
theorem Reads.both (hf : f.Reads ms a) (hg : g.Reads ns b)
    (hapart : ∀ key ∈ g.names, key ∉ f.names) :
    (f.both g).Reads (ms ++ ns) (a, b) where
  named key value slots := by
    have h1 := hf.named key value slots.1
    have h2 := hg.named key value slots.2
    simp only [Form.both, List.mem_append, not_or, ← h1, ← h2]
    cases hp : f.put key value slots.1 <;> simp
  known m hm := by
    rcases List.mem_append.1 hm with hm | hm
    · exact List.mem_append_left _ (hf.known m hm)
    · exact List.mem_append_right _ (hg.known m hm)
  made := by
    obtain ⟨s, hs, hsa⟩ := hf.made
    obtain ⟨t, ht, htb⟩ := hg.made
    refine ⟨(s, t), ?_, ?_⟩
    · have hleft := fill_both_left hf.named hf.known g.blank ns hs
      have hright := fill_both_right hf.named hg.named
        (fun m hm => hapart _ (hg.known m hm)) hg.known s ht
      exact hleft.trans hright
    · simp [Form.both, hsa, htb, Except.map]

/-- An object with the members of a form is read. -/
theorem Reads.read (h : f.Reads ms a) :
    f.read (draft (.object ms)) = .ok a := by
  obtain ⟨slots, hfill, htake⟩ := h.made
  simp only [draft, Form.read, hfill, htake]

end Form

-- ============================================================= scalars

theorem text_string (s : String) : Draft.text (draft (.string s)) = .ok s :=
  rfl

theorem flag_bool (b : Bool) : Draft.flag (draft (.bool b)) = .ok b := rfl

/-- A number below the bound is read, whatever its width. -/
theorem lessThan_ofUInt64 {bound : Nat} {n : UInt64}
    (h : n.toNat < bound) :
    (draft (ofUInt64 n)).lessThan bound = .ok ⟨n.toNat, h⟩ := by
  have hbound : (0 : Int) ≤ (n.toNat : Int) ∧ (n.toNat : Int) < bound := by
    omega
  simp only [ofUInt64, draft, Draft.lessThan]
  rw [dif_pos hbound]
  simp

theorem uint64_ofUInt64 (n : UInt64) :
    Draft.uint64 (draft (ofUInt64 n)) = .ok n := by
  rw [Draft.uint64, lessThan_ofUInt64 n.toNat_lt_size]
  simp [Except.map]

theorem uint32_ofUInt32 (n : UInt32) :
    Draft.uint32 (draft (ofUInt32 n)) = .ok n := by
  have h : n.toUInt64.toNat < UInt32.size := by
    simpa using n.toNat_lt_size
  rw [Draft.uint32, ofUInt32, lessThan_ofUInt64 h]
  simp [Except.map]

theorem uint8_ofUInt8 (n : UInt8) :
    Draft.uint8 (draft (ofUInt8 n)) = .ok n := by
  have h : n.toUInt64.toNat < UInt8.size := by
    simpa using n.toNat_lt_size
  rw [Draft.uint8, ofUInt8, lessThan_ofUInt64 h]
  simp [Except.map]

-- =================================================== lists and choices

section

variable {α : Type} {expected : Draft → Except Fault α}

/-- A value that may be missing and is there. -/
theorem optional_some {j : Json} {a : α} (hj : j ≠ .null)
    (h : expected (draft j) = .ok a) :
    Draft.optional expected (draft j) = .ok (some a) := by
  unfold Draft.optional
  split
  · rename_i hnull
    cases j <;> simp_all [draft]
  · simp [h, Except.map]

theorem all_map {toJson : α → Json} {as : List α}
    (h : ∀ a ∈ as, expected (draft (toJson a)) = .ok a) :
    (draftItems (as.map toJson)).all expected = .ok as := by
  induction as with
  | nil => rfl
  | cons a as ih =>
      have ha := h a (by simp)
      have has := ih fun b hb => h b (by simp [hb])
      simp only [List.map_cons, draftItems, Items.all, ha, has]

/-- A list of values that are read one by one. -/
theorem list_map {toJson : α → Json} (as : List α)
    (h : ∀ a ∈ as, expected (draft (toJson a)) = .ok a) :
    Draft.list expected (draft (.array (as.map toJson))) = .ok as :=
  all_map h

theorem exactly_map {toJson : α → Json} {as : List α}
    (h : ∀ a ∈ as, expected (draft (toJson a)) = .ok a) :
    (draftItems (as.map toJson)).exactly expected as.length = .ok as := by
  induction as with
  | nil => rfl
  | cons a as ih =>
      have ha := h a (by simp)
      have has := ih fun b hb => h b (by simp [hb])
      simp only [List.map_cons, draftItems, List.length_cons,
        Items.exactly, ha, has]

/-- A list of a fixed length. -/
theorem tuple_map (toJson : α → Json) (as : List α) {n : Nat}
    (hn : as.length = n)
    (h : ∀ a ∈ as, expected (draft (toJson a)) = .ok a) :
    Draft.tuple n expected (draft (.array (as.map toJson))) = .ok as := by
  subst hn
  exact exactly_map h

theorem wholeItems_map {toJson : α → Json} (as : List α)
    (h : ∀ a ∈ as, Whole (toJson a)) : WholeItems (as.map toJson) := by
  induction as with
  | nil => trivial
  | cons a as ih =>
      exact ⟨h a (by simp), ih fun b hb => h b (by simp [hb])⟩

end

end ControlPlane.Json
