/-
A machine's history on the key-value server is its events in the order
of their times. Events are noted for any machines, in any order of
times, while others write what they like under the keys of machines and
of messages. Listing a machine's history then gives what was noted for
it, each event once and unchanged, the earlier before the later, and it
is the same history as if nobody had written anything else; where the
events were noted in the order of their times, it is the history that is
kept in memory (`chronological`).

The server sorts texts. Keys of one machine have twenty digits at the
same place, so that the order of keys is first of all the order of the
numbers, and these are the times' nanoseconds since 1970 (`Note.key_lt`);
a time before 1970, or too late for 64 bits, would have no such number.
What is held under a machine is followed through the script as a list of
keys with their texts (`held_after`). A write under a key of its own adds
one at the end, and all that others do leaves the list as it is.

# Points in time that are counted
# Notes
# Scripts
# What is held
# The answer

Chain: Etcd/Ranges.lean, Records.lean, Clock.lean → Chronology (this
file).
-/
import Mathlib
import ControlPlane.Etcd.MachineStore
import ControlPlane.Proofs.Clock
import ControlPlane.Proofs.Etcd.Ranges
import ControlPlane.Proofs.Records
import ControlPlane.Store.Memory

namespace ControlPlane

open Etcd (Client Compare Entry Range Server)
open Etcd.EventLog (machineRoot stamp)

-- ===================================== points in time that are counted

namespace Timestamp

/-- A point in time from the start of 1970 on, no leap second, whose
nanoseconds since then fit into 64 bits. -/
structure Counted (t : Timestamp) : Prop where
  since : 0 ≤ t.secs
  whole : t.nanos < 1000000000
  fits : t.secs * 1000000000 + t.nanos ≤ Int64.maxValue.toInt

variable {t u : Timestamp}

theorem maxValue_toInt : Int64.maxValue.toInt = 9223372036854775807 := by
  decide

theorem Counted.valid (h : t.Counted) : t.Valid := by
  obtain ⟨hsince, hwhole, hfits⟩ := h
  rw [maxValue_toInt] at hfits
  have hday : t.day = t.secs / 86400 :=
    Int.fdiv_eq_ediv_of_nonneg _ (by decide)
  have hyear := Calendar.year_ofDays t.day
  refine ⟨by omega, by omega, ?_⟩
  rw [minYear, maxYear]
  omega

/-- The stamp is the number of nanoseconds since the start of 1970. -/
theorem Counted.stamp_eq (h : t.Counted) :
    stamp t = t.secs * 1000000000 + t.nanos := by
  obtain ⟨hsince, hwhole, hfits⟩ := h
  rw [maxValue_toInt] at hfits
  have hmin : Int64.minValue.toInt = -9223372036854775808 := by decide
  have hrange : ∀ n : Int, 0 ≤ n → n ≤ 9223372036854775807 →
      Etcd.EventLog.inRange n = true := by
    intro n h0 h1
    simp only [Etcd.EventLog.inRange, maxValue_toInt, hmin,
      Bool.and_eq_true, decide_eq_true_eq]
    omega
  rw [stamp, if_neg (by omega)]
  simp only [hrange _ (by omega : 0 ≤ t.secs * 1000000000) (by omega),
    hrange _ (by omega : 0 ≤ t.secs * 1000000000 + (t.nanos : Int)) hfits,
    Bool.and_self, if_true]

/-- Later points have higher stamps. -/
theorem Counted.stamp_lt (ht : t.Counted) (hu : u.Counted) (h : t < u) :
    0 ≤ stamp t ∧ stamp t < stamp u ∧ stamp u < 10 ^ 20 := by
  rw [ht.stamp_eq, hu.stamp_eq]
  obtain ⟨hsince, hwhole, -⟩ := ht
  obtain ⟨-, -, hfits⟩ := hu
  rw [maxValue_toInt] at hfits
  rw [lt_iff] at h
  omega

end Timestamp

-- =============================================================== notes

/-- The twenty characters of a number from zero on are digits. -/
theorem Etcd.EventLog.padded_toList {n : Int} (h : 0 ≤ n) :
    (padded n).toList = Timestamp.padded 20 n.toNat := by
  have hnat : n.natAbs = n.toNat := by omega
  have hdigits : toString n.toNat
      = String.ofList (Nat.toDigits 10 n.toNat) :=
    Nat.toString_eq_ofList_toDigits
  simp only [padded, hnat, if_neg (not_lt.mpr h), hdigits,
    String.length_ofList, String.toList_append, String.toList_ofList]
  rfl

namespace Chronology

/-- An event, the machine under whose id it is noted, and the identifier
that was drawn for it. -/
structure Note where
  machine : String
  named : Http.isMachineId machine = true
  event : ProvisioningEvent
  counted : event.time.Counted
  mark : Uuid

namespace Note

variable {m n : Note}

/-- The key under which the event is kept. -/
def key (n : Note) : String := Etcd.EventLog.key n.machine n.event n.mark

/-- The text that is kept. -/
def text (n : Note) : String := n.event.toJson.text

/-- Of two events of one machine the earlier has the lower key. -/
theorem key_lt (hid : m.machine = n.machine)
    (h : m.event.time < n.event.time) : m.key < n.key := by
  obtain ⟨hpos, hlt, hbound⟩ := m.counted.stamp_lt n.counted h
  have hdigits : Nat.ofDigitChars 10
        (Timestamp.padded 20 (stamp m.event.time).toNat) 0
      < Nat.ofDigitChars 10
        (Timestamp.padded 20 (stamp n.event.time).toNat) 0 := by
    rw [← Digits.ofDigits_values, ← Digits.ofDigits_values,
      Timestamp.ofDigits_padded, Timestamp.ofDigits_padded]
    omega
  have hlength : ∀ k : Int, k < 10 ^ 20 →
      (Timestamp.padded 20 k.toNat).length = 20 :=
    fun k hk => Timestamp.length_padded (by decide) (by omega)
  rw [String.lt_iff_toList_lt, key, key, Etcd.EventLog.key_toList,
    Etcd.EventLog.key_toList, hid]
  refine List.append_left_lt (List.append_left_lt ?_)
  rw [List.cons_lt_cons_iff]
  refine Or.inr ⟨rfl, ?_⟩
  rw [Etcd.EventLog.keyEnd, Etcd.EventLog.keyEnd,
    Etcd.EventLog.padded_toList hpos,
    Etcd.EventLog.padded_toList (by omega)]
  refine Digits.append_lt_append (Timestamp.all_padded _ _)
    (Timestamp.all_padded _ _) ?_ hdigits _ _
  rw [hlength _ (by omega), hlength _ hbound]

/-- A key ends in its identifier. -/
theorem mark_of_key (h : m.key = n.key) : m.mark = n.mark := by
  have hend : ∀ n : Note,
      ∃ front, n.key.toList = front ++ n.mark.text.toList := by
    intro n
    exact ⟨_, by rw [key, Etcd.EventLog.key, String.toList_append]⟩
  obtain ⟨front, hm⟩ := hend m
  obtain ⟨front', hn⟩ := hend n
  rw [h, hn] at hm
  have htext := List.append_inj_right' hm
    (by rw [Uuid.length_text, Uuid.length_text])
  exact Uuid.text_injective (String.toList_inj.mp htext.symm)

theorem covers_key (id : String) (n : Note) :
    (Range.under (machineRoot id)).covers n.key = true
      ↔ n.machine = id :=
  Etcd.EventLog.covers_event n.named n.event n.mark

end Note

-- ============================================================= scripts

/-- A key of a machine or of a message. -/
abbrev Elsewhere := { k : String //
  Etcd.MachineStore.root.toList <+: k.toList
    ∨ Etcd.Bus.root.toList <+: k.toList }

/-- What others do to the server under the keys of machines and of
messages. -/
inductive Outside
  | put (key : Elsewhere) (value : String) (lease : Nat)
  | commit (compare : Compare) (key : Elsewhere) (value : String)
  | delete (key : Elsewhere)
  | grant (seconds : Int)

/-- A step of a script. -/
inductive Step
  | note (n : Note)
  | outside (deed : Outside)

/-- The server after somebody else's deed. -/
def Outside.run (s : Server) : Outside → Server
  | put k value lease => (s.serve (.put k.1 value lease)).2
  | commit c k value => (s.serve (.commit c k.1 value)).2
  | delete k => s.delete k.1
  | grant seconds => (s.serve (.grant seconds)).2

/-- The server after a step. -/
def Step.run (s : Server) : Step → Server
  | note n =>
    (Etcd.EventLog.append Client.direct n.machine n.event n.mark s).2
  | outside deed => deed.run s

/-- The note that a step makes, if it makes one. -/
def Step.note? : Step → Option Note
  | note n => some n
  | outside _ => none

/-- The server after a script. -/
def after (script : List Step) : Server := script.foldl Step.run {}

/-- The notes that a script makes, in order. -/
def notes (script : List Step) : List Note := script.filterMap Step.note?

/-- The notes for one machine. -/
def notesOf (id : String) (script : List Step) : List Note :=
  (notes script).filter fun n => decide (n.machine = id)

/-- The events that are noted for one machine, in the order of the
script. -/
def recorded (id : String) (script : List Step) : List ProvisioningEvent :=
  (notesOf id script).map Note.event

/-- The identifiers that were drawn for the notes. -/
def marks (script : List Step) : List Uuid := (notes script).map Note.mark

/-- The same notes, kept in memory. -/
def inMemory (script : List Step) : MemoryEventLog :=
  (notes script).foldl (fun l n => l.append n.machine n.event) {}

/-- What a script does for one machine, and nothing else. -/
def only (id : String) (script : List Step) : List Step :=
  script.filter fun st => st.note?.any fun n => decide (n.machine = id)

theorem after_snoc (script : List Step) (st : Step) :
    after (script ++ [st]) = st.run (after script) := by
  simp [after]

theorem notes_snoc (script : List Step) (st : Step) :
    notes (script ++ [st]) = notes script ++ st.note?.toList := by
  cases h : st.note? <;> simp [notes, h]

theorem notesOf_snoc (id : String) (script : List Step) (st : Step) :
    notesOf id (script ++ [st]) = notesOf id script
      ++ st.note?.toList.filter fun n => decide (n.machine = id) := by
  rw [notesOf, notes_snoc, List.filter_append, notesOf]

/-- Leaving out what is done for others leaves out no note for the
machine. -/
theorem notesOf_only (id : String) (script : List Step) :
    notesOf id (only id script) = notesOf id script := by
  induction script using List.reverseRecOn with
  | nil => rfl
  | append_singleton script st ih =>
      have hsnoc : only id (script ++ [st])
          = only id script ++ only id [st] := List.filter_append _ _
      rw [hsnoc, notesOf_snoc, ← ih]
      cases st with
      | outside deed => simp [only, Step.note?]
      | note n =>
          by_cases hid : n.machine = id
          · simp [only, Step.note?, hid, notesOf_snoc]
          · simp [only, Step.note?, hid]

theorem marks_only (id : String) (script : List Step) :
    (marks (only id script)).Sublist (marks script) :=
  (List.filter_sublist.filterMap _).map _

/-- In memory a machine's history is what was noted for it. -/
theorem list_inMemory (id : String) (script : List Step) :
    (inMemory script).list id = recorded id script := by
  induction script using List.reverseRecOn with
  | nil => rfl
  | append_singleton script st ih =>
      rw [recorded, notesOf_snoc, List.map_append, ← recorded, ← ih,
        inMemory, notes_snoc, List.foldl_append, ← inMemory]
      cases st with
      | outside deed => simp [Step.note?]
      | note n =>
          by_cases hid : n.machine = id
          · simp [Step.note?, hid, MemoryEventLog.append,
              MemoryEventLog.list]
          · simp [Step.note?, hid, MemoryEventLog.append,
              MemoryEventLog.list]

-- ======================================================== what is held

/-- The keys of machines and of messages are no events'. -/
theorem covers_elsewhere (id : String) (k : Elsewhere) :
    (Range.under (machineRoot id)).covers k.1 = false := by
  rw [← Bool.not_eq_true, Etcd.covers_under]
  obtain ⟨k, hk⟩ := k
  have hroot : (machineRoot id).toList
      = Etcd.EventLog.root.toList ++ (id.toList ++ ['/']) := by
    simp [machineRoot, String.toList_append]
  have hlength : 8 ≤ (machineRoot id).toList.length := by
    rw [hroot, List.length_append]
    exact Nat.le_add_right_of_le (by decide)
  have htake : (machineRoot id).toList.take 8
      = Etcd.EventLog.root.toList.take 8 := by
    rw [hroot, List.take_append_of_le_length (by decide)]
  rcases hk with ⟨rest, hk⟩ | ⟨rest, hk⟩
  · rw [← hk]
    exact Etcd.not_prefix_append 8 hlength (by decide)
      (by rw [htake]; decide) rest
  · rw [← hk]
    exact Etcd.not_prefix_append 8 hlength (by decide)
      (by rw [htake]; decide) rest

/-- What others do leaves the entries keyed and what is held under a
machine as it is. -/
theorem Outside.run_held {s : Server} (hk : s.Keyed) (id : String)
    (deed : Outside) :
    (deed.run s).Keyed
      ∧ (deed.run s).held (.under (machineRoot id))
        = s.held (.under (machineRoot id)) := by
  cases deed with
  | put k value lease =>
      exact ⟨hk.put _ _ _, Server.held_put_other hk (covers_elsewhere id k)⟩
  | commit c k value =>
      simp only [run, Server.serve]
      split
      · exact ⟨hk.put _ _ _,
          Server.held_put_other hk (covers_elsewhere id k)⟩
      · exact ⟨hk, rfl⟩
  | delete k =>
      exact ⟨hk.delete _, Server.held_delete_other hk (covers_elsewhere id k)⟩
  | grant seconds => exact ⟨⟨hk.own, hk.nodup⟩, rfl⟩

/-- After a script a machine has one entry for every note, under its key
and with its text. -/
theorem held_after {script : List Step} (hmarks : (marks script).Nodup)
    (id : String) :
    (after script).Keyed
      ∧ ((after script).held (.under (machineRoot id))).map
          (fun e => (e.key, e.value))
        = (notesOf id script).map fun n => (n.key, n.text) := by
  induction script using List.reverseRecOn with
  | nil => exact ⟨⟨nofun, List.nodup_nil⟩, rfl⟩
  | append_singleton script st ih =>
      rw [marks, notes_snoc, List.map_append, List.nodup_append] at hmarks
      obtain ⟨hearlier, -, hfresh⟩ := hmarks
      obtain ⟨hk, hheld⟩ := ih hearlier
      rw [after_snoc, notesOf_snoc, List.map_append, ← hheld]
      cases st with
      | outside deed =>
          obtain ⟨hk', hheld'⟩ := deed.run_held hk id
          refine ⟨hk', ?_⟩
          simp [Step.run, Step.note?, hheld']
      | note n =>
          refine ⟨hk.put _ _ _, ?_⟩
          change (((after script).put n.key n.text 0).held _).map _ = _
          by_cases hid : n.machine = id
          · have hcovers := (n.covers_key id).mpr hid
            have hnew : (after script).entries.get? n.key = none := by
              cases h : (after script).entries.get? n.key with
              | none => rfl
              | some e =>
                  -- an earlier note would have the same identifier
                  obtain ⟨hmem, hkey⟩ :=
                    Server.mem_held_of_get? hk h hcovers
                  have hpair := List.mem_map_of_mem
                    (f := fun e : Entry => (e.key, e.value)) hmem
                  rw [hheld] at hpair
                  obtain ⟨m, hm, hmn⟩ := List.mem_map.mp hpair
                  have hmark := Note.mark_of_key
                    ((Prod.mk.inj hmn).1.trans hkey)
                  have hearlier := List.mem_of_mem_filter hm
                  exact absurd hmark (hfresh _
                    (List.mem_map_of_mem hearlier) _ (by simp [Step.note?]))
            obtain ⟨e, he, hkey, hvalue⟩ :=
              Server.held_put_new hk hnew hcovers n.text 0
            rw [he, List.map_append]
            simp [Step.note?, hid, hkey, hvalue]
          · have hcovers :
                (Range.under (machineRoot id)).covers n.key = false := by
              rw [← Bool.not_eq_true, n.covers_key]
              exact hid
            rw [Server.held_put_other hk hcovers]
            simp [Step.note?, hid]

-- ========================================================== the answer

/-- Texts that are notes' are read as the notes' events. -/
theorem decode_notes {es : List Entry} {ns : List Note}
    (h : es.map (fun e => (e.key, e.value))
      = ns.map fun n => (n.key, n.text)) :
    Etcd.EventLog.decode es = .ok (ns.map Note.event) := by
  induction es generalizing ns with
  | nil =>
      obtain rfl := List.map_eq_nil_iff.mp h.symm
      rfl
  | cons e es ih =>
      cases ns with
      | nil => cases h
      | cons n ns =>
          simp only [List.map_cons, List.cons.injEq, Prod.mk.injEq] at h
          obtain ⟨⟨-, hvalue⟩, hrest⟩ := h
          have hread := ProvisioningEvent.readAll_text n.counted.valid
          rw [Etcd.EventLog.decode, hvalue, Note.text, hread, ih hrest]
          rfl

/-- The notes for a machine, in the order of their keys. -/
def sorted (id : String) (script : List Step) : List Note :=
  (notesOf id script).mergeSort fun m n => decide (m.key ≤ n.key)

/-- A machine's history is read from its notes, in the order of their
keys. -/
theorem list_after {script : List Step} (hmarks : (marks script).Nodup)
    (id : String) :
    Etcd.EventLog.list Client.direct id (after script)
      = (.ok ((sorted id script).map Note.event), after script) := by
  have hheld := (held_after hmarks id).2
  have hrange : ((after script).range (.under (machineRoot id))).map
        (fun e => (e.key, e.value))
      = (sorted id script).map fun n => (n.key, n.text) := by
    let below : String × String → String × String → Bool :=
      fun a b => decide (a.1 ≤ b.1)
    rw [Server.range_eq, sorted,
      List.map_mergeSort (s := below) fun _ _ _ _ => rfl,
      List.map_mergeSort (s := below) fun _ _ _ _ => rfl, hheld]
  have hdecode := decode_notes hrange
  unfold Etcd.EventLog.list
  change (Etcd.EventLog.decode
    ((after script).range (.under (machineRoot id))), after script) = _
  rw [hdecode]

theorem sorted_perm (id : String) (script : List Step) :
    (sorted id script).Perm (notesOf id script) :=
  List.mergeSort_perm _ _

theorem machine_of_mem {id : String} {script : List Step} {n : Note}
    (h : n ∈ notesOf id script) : n.machine = id := by
  simpa using (List.mem_filter.mp h).2

/-- In the order of keys no note is later than the next ones. -/
theorem sorted_times (id : String) (script : List Step) :
    ((sorted id script).map Note.event).Pairwise
      fun a b => a.time ≤ b.time := by
  have hkeys : (sorted id script).Pairwise fun m n => m.key ≤ n.key := by
    have hsorted : (sorted id script).Pairwise
        fun m n => decide (m.key ≤ n.key) = true :=
      List.pairwise_mergeSort (by simpa using fun a b c => le_trans)
        (by simpa using fun a b => le_total _ _) _
    simpa using hsorted
  rw [List.pairwise_map]
  refine hkeys.imp_of_mem fun {m n} hm hn hle => ?_
  have hmachine := machine_of_mem ((sorted_perm id script).mem_iff.mp hm)
  have hmachine' := machine_of_mem ((sorted_perm id script).mem_iff.mp hn)
  by_contra hlater
  exact absurd (Note.key_lt (hmachine'.trans hmachine.symm)
    (not_le.mp hlater)) (not_lt.mpr hle)

/-- Notes that were made in the order of their times are in the order of
their keys. -/
theorem sorted_eq {id : String} {script : List Step}
    (h : (recorded id script).Pairwise fun a b => a.time < b.time) :
    sorted id script = notesOf id script := by
  refine List.mergeSort_of_pairwise ?_
  rw [recorded, List.pairwise_map] at h
  refine h.imp_of_mem fun {m n} hm hn hlt => ?_
  have hid := (machine_of_mem hm).trans (machine_of_mem hn).symm
  exact decide_eq_true (le_of_lt (Note.key_lt hid hlt))

/-- A machine's history holds exactly the events that were noted for it,
each once and unchanged, and none before an earlier one; what is written
for other machines, or under other keys, does not change it; and if the
events were noted in the order of their times, it is the history that is
kept in memory. -/
theorem chronological (script : List Step)
    (hmarks : (marks script).Nodup) (id : String) :
    ∃ events,
      Etcd.EventLog.list Client.direct id (after script)
          = (.ok events, after script)
        ∧ events.Perm (recorded id script)
        ∧ events.Pairwise (fun a b => a.time ≤ b.time)
        ∧ (Etcd.EventLog.list Client.direct id
            (after (only id script))).1 = .ok events
        ∧ ((recorded id script).Pairwise (fun a b => a.time < b.time) →
            (inMemory script).list id = events) := by
  have hmarks' := hmarks.sublist (marks_only id script)
  refine ⟨(sorted id script).map Note.event, list_after hmarks id,
    (sorted_perm id script).map _, sorted_times id script, ?_, ?_⟩
  · rw [list_after hmarks' id, sorted, sorted, notesOf_only]
  · intro htimes
    rw [list_inMemory, sorted_eq htimes]
    rfl

/-- A report of a second of 1970, noted for a machine. -/
def report (machine : String) (h : Http.isMachineId machine = true)
    (second : Fin 60) (mark : Uuid) : Note where
  machine := machine
  named := h
  event := { kind := .provisioned, time := ⟨second, 0⟩ }
  counted := ⟨Int.natCast_nonneg _, by norm_num, by
    rw [Timestamp.maxValue_toInt]
    dsimp only
    omega⟩
  mark := mark

def late : Note := report "m1" (by decide) 5 ⟨1⟩

def early : Note := report "m1" (by decide) 3 ⟨2⟩

def first : Note := report "m10" (by decide) 4 ⟨3⟩

def second : Note := report "m10" (by decide) 6 ⟨4⟩

/-- Of two machines one has its later event noted first, and both are
written to in between. -/
def overtaken : List Step :=
  [.note first, .note late,
    .outside (.put ⟨"/metal/machines/m1", by decide⟩ "no record" 0),
    .note early,
    .outside (.put ⟨"/metal/bus/events/m1", by decide⟩ "no message" 7001),
    .note second, .outside (.delete ⟨"/metal/machines/m1", by decide⟩)]

theorem chronological_overtaken :
    (marks overtaken).Nodup
      ∧ Etcd.EventLog.list Client.direct "m1" (after overtaken)
        = (.ok [early.event, late.event], after overtaken)
      ∧ (recorded "m10" overtaken).Pairwise (fun a b => a.time < b.time)
      ∧ Etcd.EventLog.list Client.direct "m10" (after overtaken)
        = (.ok ((inMemory overtaken).list "m10"), after overtaken) := by
  have hmarks : (marks overtaken).Nodup := by decide
  have hrising : (recorded "m10" overtaken).Pairwise
      fun a b => a.time < b.time := by decide
  refine ⟨hmarks, ?_, hrising, ?_⟩
  · obtain ⟨events, hlist, hperm, htimes, -, -⟩ :=
      chronological overtaken hmarks "m1"
    have hswap : events.Perm [early.event, late.event] :=
      hperm.trans (List.Perm.swap _ _ _)
    have hevents : events = [early.event, late.event] := by
      refine hswap.eq_of_pairwise ?_ htimes (by decide)
      intro a b ha hb hab hba
      have hsame : ∀ c ∈ [early.event, late.event],
          ∀ d ∈ [early.event, late.event],
            c.time ≤ d.time → d.time ≤ c.time → c = d := by decide
      exact hsame a (hswap.mem_iff.mp ha) b hb hab hba
    rw [hlist, hevents]
  · obtain ⟨events, hlist, -, -, -, hmemory⟩ :=
      chronological overtaken hmarks "m10"
    rw [hlist, hmemory hrising]

end Chronology

end ControlPlane
