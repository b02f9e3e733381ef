/-
What the ranges of keys cover, and what a server holds in them. The keys
of events and of messages are paths: a root, a name, a slash, and an end
without a slash. A range under a name and its slash covers the keys of
that name. It also covers the keys of longer names that go on behind the
slash (`prefix_part`); an id of a machine has no slash, so for events
there are none, but a topic may have (`covers_message`).

A write or a deletion of a key that a range does not cover leaves what
is held in it as it is; a write of a new key that it covers adds an
entry (`held_put_new`).

# Tables
# Characters of keys
# Parts of paths
# Keys of events
# Keys of messages
# What is held

Chain: Etcd/Entries.lean, Identifiers.lean → Etcd/Ranges (this file) →
Chronology.lean, TopicIsolation.lean.
-/
import ControlPlane.Etcd.EventLog
import ControlPlane.Http.Route
import ControlPlane.Proofs.Etcd.Entries
import ControlPlane.Proofs.Identifiers

namespace ControlPlane

namespace Table

variable {κ α : Type} [DecidableEq κ] {k : κ} {a : α}
  {es : List (κ × α)}

-- ============================================================== tables

/-- A new key comes last. -/
theorem put_new (h : find k es = none) : put k a es = es ++ [(k, a)] := by
  induction es with
  | nil => rfl
  | cons e rest ih =>
      obtain ⟨j, b⟩ := e
      unfold find at h
      split at h
      · cases h
      · rename_i hjk
        rw [put, if_neg hjk, ih h, List.cons_append]

/-- Where a write changes nothing but values that are left out, the others
stay as they are. -/
theorem filter_put_other {p : α → Bool} (ha : p a = false)
    (hold : ∀ b, (k, b) ∈ es → p b = false) :
    ((put k a es).map Prod.snd).filter p = (es.map Prod.snd).filter p := by
  induction es with
  | nil => simp [put, ha]
  | cons e rest ih =>
      obtain ⟨j, b⟩ := e
      have hrest := ih fun b hb => hold b (List.mem_cons_of_mem _ hb)
      unfold put
      split
      · rename_i hjk
        have hb := hold b (hjk ▸ List.mem_cons_self)
        simp [ha, hb]
      · simp only [List.map_cons, List.filter_cons, hrest]

end Table

-- ==================================================== characters of keys

theorem Uuid.slash_notMem_text (u : Uuid) : '/' ∉ u.text.toList := by
  have hdigit : ∀ d < 16, Json.hexDigit d ≠ '/' := by decide
  intro h
  rw [text, String.toList_ofList, chars_eq] at h
  rcases mem_grouped h with h | h
  · exact absurd h (by decide)
  · obtain ⟨d, hd, hslash⟩ := List.mem_map.mp h
    exact hdigit d (u.digits_lt d hd) hslash

namespace Etcd

variable {a b u : List Char} {id machine : String}

-- ====================================================== parts of paths

theorem covers_under (root key : String) :
    (Range.under root).covers key = true
      ↔ root.toList <+: key.toList :=
  List.isPrefixOf_iff_prefix

/-- Of paths whose last part is `u`, those below `a` have `a` as the part
before it, or begin with `a` and another part. -/
theorem prefix_part (hu : '/' ∉ u) :
    a ++ ['/'] <+: b ++ '/' :: u ↔ a = b ∨ a ++ ['/'] <+: b := by
  constructor
  · rintro ⟨t, ht⟩
    rw [List.append_assoc, List.singleton_append,
      List.append_eq_append_iff] at ht
    rcases ht with ⟨c, rfl, hc⟩ | ⟨c, rfl, hc⟩
    · cases c with
      | nil => exact Or.inl (List.append_nil a).symm
      | cons x c =>
          rw [List.cons_append, List.cons.injEq] at hc
          exact Or.inr ⟨c, by simp [← hc.1]⟩
    · cases c with
      | nil => exact Or.inl (List.append_nil b)
      | cons x c =>
          -- the slash behind `a` would stand in the last part
          rw [List.cons_append, List.cons.injEq] at hc
          exact absurd (by simp [hc.2]) hu
  · rintro (rfl | h)
    · exact ⟨u, by simp⟩
    · exact h.trans (List.prefix_append _ _)

/-- Texts that differ within their first characters are no parts of each
other. -/
theorem not_prefix_append (k : Nat) (ha : k ≤ a.length)
    (hb : k ≤ b.length) (h : a.take k ≠ b.take k) (t : List Char) :
    ¬ a <+: b ++ t := by
  rintro ⟨s, hs⟩
  have htake := congrArg (List.take k) hs
  rw [List.take_append_of_le_length ha,
    List.take_append_of_le_length hb] at htake
  exact h htake

-- ====================================================== keys of events

namespace EventLog

theorem slash_notMem_padded (n : Int) : '/' ∉ (padded n).toList := by
  have hdigits : '/' ∉ (toString n.natAbs).toList := by
    rw [Nat.toString_eq_ofList_toDigits, String.toList_ofList]
    exact fun h => absurd (Digits.all_toDigits _ _ h) (by decide)
  have hsign : '/' ∉ (if n < 0 then "-" else "").toList := by
    split <;> decide
  have hzeros : ∀ k, '/' ∉ List.replicate k '0' :=
    fun k h => absurd (List.eq_of_mem_replicate h) (by decide)
  simp only [padded, String.toList_append, String.toList_ofList,
    List.mem_append, not_or]
  exact ⟨⟨hsign, hzeros _⟩, hdigits⟩

/-- The part of an event's key behind its machine. -/
def keyEnd (e : ProvisioningEvent) (u : Uuid) : List Char :=
  (padded (stamp e.time)).toList ++ '-' :: u.text.toList

theorem key_toList (id : String) (e : ProvisioningEvent) (u : Uuid) :
    (key id e u).toList
      = root.toList ++ (id.toList ++ '/' :: keyEnd e u) := by
  simp [key, machineRoot, keyEnd, String.toList_append]

theorem slash_notMem_keyEnd (e : ProvisioningEvent) (u : Uuid) :
    '/' ∉ keyEnd e u := by
  simp [keyEnd, slash_notMem_padded, u.slash_notMem_text]

/-- The events under a machine are those of that machine. -/
theorem covers_event (h : Http.isMachineId machine = true)
    (e : ProvisioningEvent) (u : Uuid) :
    (Range.under (machineRoot id)).covers (key machine e u) = true
      ↔ machine = id := by
  have hslash : '/' ∉ machine.toList := by
    simp only [Http.isMachineId, Bool.and_eq_true] at h
    simpa using h.2
  have hroot : (machineRoot id).toList
      = root.toList ++ (id.toList ++ ['/']) := by
    simp [machineRoot, String.toList_append]
  rw [covers_under, hroot, key_toList, List.prefix_append_right_inj,
    prefix_part (slash_notMem_keyEnd e u), String.toList_inj]
  constructor
  · rintro (rfl | hp)
    · rfl
    · exact absurd (hp.subset (by simp)) hslash
  · exact fun h => Or.inl h.symm

end EventLog

-- ==================================================== keys of messages

/-- Is the topic `t`, or does it go on behind `t` and a slash? -/
def Beneath (t topic : String) : Prop :=
  topic = t ∨ (t ++ "/").toList <+: topic.toList

/-- The messages under a topic are those of the topic and of all topics
beneath it. -/
theorem covers_message (t : String) (m : Envelope) :
    (Range.under (Bus.topicRoot t)).covers (Bus.key m) = true
      ↔ Beneath t m.topic := by
  have hroot : (Bus.topicRoot t).toList
      = Bus.root.toList ++ (t.toList ++ ['/']) := by
    simp [Bus.topicRoot, String.toList_append]
  have hkey : (Bus.key m).toList
      = Bus.root.toList ++ (m.topic.toList ++ '/' :: m.id.text.toList) := by
    simp [Bus.key, Bus.topicRoot, String.toList_append]
  rw [covers_under, hroot, hkey, List.prefix_append_right_inj,
    prefix_part m.id.slash_notMem_text, String.toList_inj, eq_comm,
    Beneath, String.toList_append]
  rfl

-- ========================================================= what is held

namespace Server

variable {s : Server} {r : Range} {key value : String} {lease : Nat}

/-- The entries in a range, in no order of their own. -/
def held (s : Server) (r : Range) : List Entry :=
  s.entries.values.filter fun e => r.covers e.key

theorem range_eq (s : Server) (r : Range) :
    s.range r = (s.held r).mergeSort fun a b => decide (a.key ≤ b.key) :=
  rfl

theorem mem_held_of_get? {e : Entry} (hk : s.Keyed)
    (h : s.entries.get? key = some e) (hr : r.covers key = true) :
    e ∈ s.held r ∧ e.key = key := by
  have hmem := Table.mem_of_find h
  have hown : e.key = key := hk.own _ hmem
  refine ⟨List.mem_filter.mpr ⟨List.mem_map_of_mem hmem, ?_⟩, hown⟩
  rwa [hown]

/-- A write behind the range leaves what is held in it. -/
theorem held_put_other (hk : s.Keyed) (hr : r.covers key = false) :
    (s.put key value lease).held r = s.held r := by
  obtain ⟨e, he, -, -, hown⟩ := put_entries s key value lease
  unfold held Table.values
  rw [he, Table.set]
  refine Table.filter_put_other ?_ ?_
  · rw [hown hk, hr]
  · intro b hb
    rw [hk.own _ hb, hr]

/-- The first write of a key in the range adds an entry. -/
theorem held_put_new (hk : s.Keyed) (hnew : s.entries.get? key = none)
    (hr : r.covers key = true) (value : String) (lease : Nat) :
    ∃ e, (s.put key value lease).held r = s.held r ++ [e]
      ∧ e.key = key ∧ e.value = value := by
  obtain ⟨e, he, hvalue, -, hown⟩ := put_entries s key value lease
  refine ⟨e, ?_, hown hk, hvalue⟩
  unfold held Table.values
  rw [he, Table.set, Table.put_new hnew, List.map_append,
    List.filter_append]
  simp [hown hk, hr]

/-- So does a deletion behind the range. -/
theorem held_delete_other (hk : s.Keyed) (hr : r.covers key = false) :
    (s.delete key).held r = s.held r := by
  unfold delete
  split
  · unfold held Table.values Table.erase
    rw [List.filter_map, List.filter_map, List.filter_filter]
    congr 1
    refine List.filter_congr fun p hp => ?_
    by_cases hkey : p.1 = key
    · simp [hk.own p hp, hkey, hr]
    · simp [hkey]
  · rfl

end Server

end Etcd

end ControlPlane
