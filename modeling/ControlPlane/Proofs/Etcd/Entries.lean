/-
The entries of a key-value server. Every entry stands under its own key,
and no key has two (`Server.Keyed`), so asking for one key gives what the
server keeps under it and nothing else (`range_one`). What a write does
is said key by key: the key that is written holds the value, at the next
revision, and every other key what it held before.

Chain: Etcd/Changes.lean → Etcd/Entries (this file) →
StoreAgreement.lean, Etcd/Ranges.lean.
-/
import Mathlib.Data.List.Nodup
import ControlPlane.Proofs.Etcd.Changes

namespace ControlPlane

namespace Table

variable {κ α : Type} [DecidableEq κ]

/-- A known key keeps its place; a new one comes last. -/
theorem map_fst_put (k : κ) (a : α) (es : List (κ × α)) :
    (put k a es).map Prod.fst
      = if k ∈ es.map Prod.fst then es.map Prod.fst
        else es.map Prod.fst ++ [k] := by
  induction es with
  | nil => rfl
  | cons e rest ih =>
      obtain ⟨j, b⟩ := e
      by_cases hjk : j = k
      · simp [put, hjk]
      · have hkj : ¬ k = j := fun h => hjk h.symm
        simp only [put, if_neg hjk, List.map_cons, ih, List.mem_cons, hkj,
          false_or]
        split <;> rfl

theorem find_eq_none {k : κ} {es : List (κ × α)}
    (h : k ∉ es.map Prod.fst) : find k es = none := by
  induction es with
  | nil => rfl
  | cons e rest ih =>
      obtain ⟨j, a⟩ := e
      simp only [List.map_cons, List.mem_cons, not_or] at h
      rw [find, if_neg (fun hjk => h.1 hjk.symm), ih h.2]

theorem mem_of_find {k : κ} {a : α} {es : List (κ × α)}
    (h : find k es = some a) : (k, a) ∈ es := by
  induction es with
  | nil => cases h
  | cons e rest ih =>
      obtain ⟨j, b⟩ := e
      unfold find at h
      split at h
      · rename_i hjk
        cases h
        exact hjk ▸ List.mem_cons_self
      · exact List.mem_cons_of_mem _ (ih h)

theorem mem_put {k : κ} {a : α} {es : List (κ × α)} {e : κ × α}
    (h : e ∈ put k a es) : e = (k, a) ∨ e ∈ es := by
  induction es with
  | nil => exact Or.inl (List.mem_singleton.mp h)
  | cons d rest ih =>
      obtain ⟨j, b⟩ := d
      unfold put at h
      split at h
      · rcases List.mem_cons.mp h with h | h
        · exact Or.inl h
        · exact Or.inr (List.mem_cons_of_mem _ h)
      · rcases List.mem_cons.mp h with h | h
        · exact Or.inr (h ▸ List.mem_cons_self)
        · exact (ih h).imp id (List.mem_cons_of_mem _)

end Table

namespace Etcd.Server

variable {s : Server}

-- ============================================================= the keys

/-- Every entry stands under its own key, and no key has two. -/
structure Keyed (s : Server) : Prop where
  own : ∀ p ∈ s.entries.entries, p.2.key = p.1
  nodup : (s.entries.entries.map Prod.fst).Nodup

theorem filter_key {k : String} {es : List (String × Entry)}
    (hown : ∀ p ∈ es, p.2.key = p.1) (hnodup : (es.map Prod.fst).Nodup) :
    (es.map Prod.snd).filter (fun e => decide (k = e.key))
      = (Table.find k es).toList := by
  induction es with
  | nil => rfl
  | cons p rest ih =>
      obtain ⟨j, e⟩ := p
      have he : e.key = j := hown (j, e) (by simp)
      have hrest : ∀ p ∈ rest, p.2.key = p.1 :=
        fun p hp => hown p (by simp [hp])
      rw [List.map_cons, List.nodup_cons] at hnodup
      have hih := ih hrest hnodup.2
      by_cases hjk : j = k
      · -- No other entry has this key.
        have hnone : Table.find k rest = none :=
          Table.find_eq_none (hjk ▸ hnodup.1)
        simp [Table.find, hjk, he, hih, hnone]
      · have hkj : ¬ k = j := fun h => hjk h.symm
        simp [Table.find, hjk, hkj, he, hih]

/-- Whoever asks for one key is told what is kept under it. -/
theorem range_one (hk : s.Keyed) (key : String) :
    s.range (.one key) = (s.entries.get? key).toList := by
  have h := filter_key (k := key) hk.own hk.nodup
  simp only [range, Range.covers, Table.values, h, Table.get?]
  cases Table.find key s.entries.entries <;> simp

/-- A write keeps one entry, under the key that is written: the value, at
the next revision. -/
theorem put_entries (s : Server) (key value : String) (lease : Nat) :
    ∃ e, (s.put key value lease).entries = s.entries.set key e
      ∧ e.value = value ∧ e.modified = s.revision + 1
      ∧ (s.Keyed → e.key = key) := by
  unfold put
  cases h : s.entries.get? key with
  | none => exact ⟨_, rfl, rfl, rfl, fun _ => rfl⟩
  | some e =>
      exact ⟨_, rfl, rfl, rfl,
        fun hk => hk.own (key, e) (Table.mem_of_find h)⟩

theorem Keyed.put (hk : s.Keyed) (key value : String) (lease : Nat) :
    (s.put key value lease).Keyed := by
  obtain ⟨e, he, -, -, hkey⟩ := put_entries s key value lease
  refine ⟨?_, ?_⟩
  · intro p hp
    rw [he] at hp
    rcases Table.mem_put hp with rfl | hp
    · exact hkey hk
    · exact hk.own p hp
  · rw [he, Table.set, Table.map_fst_put]
    split
    · exact hk.nodup
    · rename_i hnew
      rw [List.nodup_append]
      refine ⟨hk.nodup, by simp, ?_⟩
      intro a ha b hb hab
      rw [hab, List.mem_singleton.mp hb] at ha
      exact hnew ha

theorem Keyed.delete (hk : s.Keyed) (key : String) :
    (s.delete key).Keyed := by
  unfold Server.delete
  split
  · refine ⟨fun p hp => hk.own p (List.mem_of_mem_filter hp), ?_⟩
    exact hk.nodup.sublist (List.filter_sublist.map _)
  · exact hk

-- ========================================================== the values

/-- A key that is written holds the value, at the next revision. -/
theorem put_same (s : Server) (key value : String) (lease : Nat) :
    ∃ e, (s.put key value lease).entries.get? key = some e
      ∧ e.value = value ∧ e.modified = s.revision + 1 := by
  obtain ⟨e, he, hvalue, hmodified, -⟩ := put_entries s key value lease
  exact ⟨e, by rw [he, Table.get?_set, if_pos rfl], hvalue, hmodified⟩

theorem put_other (s : Server) {key other : String} (h : key ≠ other)
    (value : String) (lease : Nat) :
    (s.put key value lease).entries.get? other = s.entries.get? other := by
  obtain ⟨e, he, -⟩ := put_entries s key value lease
  rw [he, Table.get?_set, if_neg h]

theorem put_revision (s : Server) (key value : String) (lease : Nat) :
    (s.put key value lease).revision = s.revision + 1 := rfl

theorem delete_other (s : Server) {key other : String} (h : key ≠ other) :
    (s.delete key).entries.get? other = s.entries.get? other := by
  unfold delete
  split
  · simp [h]
  · rfl

end Etcd.Server

end ControlPlane
