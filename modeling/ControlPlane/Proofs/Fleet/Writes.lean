/-
The writes of calls: creating a record that must not exist, or updating
the version that was read. Both are attempts; this file says once what
an attempt does to a store, so that no later proof opens `create`,
`update` or `find` again: a store out of reach refuses it
(`run_offline`), one within reach takes it if and only if it fits
(`run_fits`, `run_unfit`).

A version carries the revision of the write that made it, and a store
never gives a revision twice (`revision_mono` of Versions.lean), so an
update that succeeds found the very version that was read.
-/
import ControlPlane.Proofs.Fleet.Basic

namespace ControlPlane.MemoryStore

-- ========================================================== looking

/-- A look finds the latest version, or fails. -/
theorem find_cases (s : MemoryStore) (id : String) :
    (∃ v, s.records.get? id = some v ∧ s.find id = .ok v)
      ∨ ∃ e, s.find id = .error e := by
  unfold find
  split
  · exact Or.inr ⟨_, rfl⟩
  · cases h : s.records.get? id with
    | none => exact Or.inr ⟨_, rfl⟩
    | some v => exact Or.inl ⟨v, rfl, rfl⟩

/-- A store that is within reach misses only what it does not hold. -/
theorem find_error {s : MemoryStore} {id : String} {e : StoreError}
    (h : s.find id = .error e) :
    e = offlineError ∨ s.records.get? id = none := by
  unfold find at h
  split at h
  · exact Or.inl (by cases h; rfl)
  · split at h
    · cases h
    · exact Or.inr (by assumption)

/-- A store that is within reach finds what it holds. -/
theorem find_online {s : MemoryStore} {id : String} {v : Versioned}
    (hon : s.offline = false) (hv : s.records.get? id = some v) :
    s.find id = .ok v := by
  unfold find
  rw [hon, hv]
  rfl

end ControlPlane.MemoryStore

namespace ControlPlane.Fleet

-- ====================================================== the attempts

/-- A write as a call attempts it. -/
inductive Write
  | create (record : MachineRecord)
  | update (old : Versioned) (next : MachineRecord)

namespace Write

/-- The machine that is written to. -/
def key : Write → String
  | create r => r.id
  | update old _ => old.record.id

/-- The record that is written. -/
def record : Write → MachineRecord
  | create r => r
  | update _ next => next

/-- The version that the write is meant to follow. -/
def base? : Write → Option Versioned
  | create _ => none
  | update old _ => some old

/-- The attempt on a store. -/
def run (s : MemoryStore) :
    Write → Except StoreError Versioned × MemoryStore
  | create r => s.create r
  | update old next => s.update old next

/-- Is the machine as the writer takes it to be? -/
def Fits (s : MemoryStore) (w : Write) : Prop :=
  (s.records.get? w.key).map Versioned.revision
    = w.base?.map Versioned.revision

/-- The store after the write. -/
def apply (s : MemoryStore) (w : Write) : MemoryStore :=
  (s.write w.key w.record).2

@[simp] theorem apply_get? (s : MemoryStore) (w : Write) (id : String) :
    (w.apply s).records.get? id
      = if w.key = id then some ⟨w.record, s.revision + 1⟩
        else s.records.get? id := by
  simp [apply, MemoryStore.write]

@[simp] theorem apply_revision (s : MemoryStore) (w : Write) :
    (w.apply s).revision = s.revision + 1 := rfl

/-- A store that is out of reach refuses every attempt. -/
theorem run_offline {s : MemoryStore} (hoff : s.offline = true)
    (w : Write) : w.run s = (.error MemoryStore.offlineError, s) := by
  cases w with
  | create r => simp only [run, MemoryStore.create, hoff, if_true]
  | update old next => simp only [run, MemoryStore.update, hoff, if_true]

/-- A store that is within reach takes an attempt that fits, -/
theorem run_fits {s : MemoryStore} {w : Write} (hon : s.offline = false)
    (hfit : w.Fits s) :
    w.run s = (.ok ⟨w.record, s.revision + 1⟩, w.apply s) := by
  cases w with
  | create r =>
      have hnone : s.records.get? r.id = none := by
        simpa [Fits, key, base?] using hfit
      simp [run, MemoryStore.create, hon, Table.contains, hnone, apply,
        MemoryStore.write, key, record]
  | update old next =>
      obtain ⟨v, hv, hrev⟩ : ∃ v,
          s.records.get? old.record.id = some v
            ∧ v.revision = old.revision := by
        simpa [Fits, key, base?] using hfit
      simp [run, MemoryStore.update, hon, hv, hrev, apply,
        MemoryStore.write, key, record]

/-- and says of any other whether the machine is known. -/
theorem run_unfit {s : MemoryStore} {w : Write} (hon : s.offline = false)
    (hfit : ¬ w.Fits s) :
    w.run s = (.error (if (s.records.get? w.key).isSome
      then .conflict w.key else .notFound w.key), s) := by
  cases w with
  | create r =>
      have hsome : (s.records.get? r.id).isSome = true := by
        simpa [Fits, key, base?, Option.isSome_iff_ne_none] using hfit
      simp [run, MemoryStore.create, hon, Table.contains, hsome, key]
  | update old next =>
      cases hv : s.records.get? old.record.id with
      | none => simp [run, MemoryStore.update, hon, hv, key]
      | some v =>
          have hrev : v.revision ≠ old.revision := by
            simpa [Fits, key, base?, hv] using hfit
          simp [run, MemoryStore.update, hon, hv, hrev, key]

/-- An attempt that succeeds fitted, and writes at the next revision. -/
theorem run_ok {s t : MemoryStore} {w : Write} {v : Versioned}
    (h : w.run s = (.ok v, t)) :
    s.offline = false ∧ w.Fits s ∧ v = ⟨w.record, s.revision + 1⟩
      ∧ t = w.apply s := by
  cases hoff : s.offline with
  | true =>
      rw [run_offline hoff] at h
      cases h
  | false =>
      by_cases hfit : w.Fits s
      · rw [run_fits hoff hfit] at h
        cases h
        exact ⟨rfl, hfit, rfl, rfl⟩
      · rw [run_unfit hoff hfit] at h
        cases h

/-- An attempt that fails changes nothing. -/
theorem run_error {s t : MemoryStore} {w : Write} {e : StoreError}
    (h : w.run s = (.error e, t)) : t = s := by
  cases hoff : s.offline with
  | true =>
      rw [run_offline hoff] at h
      cases h
      rfl
  | false =>
      by_cases hfit : w.Fits s
      · rw [run_fits hoff hfit] at h
        cases h
      · rw [run_unfit hoff hfit] at h
        cases h
        rfl

/-- A store that is within reach refuses an update of a machine that it
knows only if the version is not the latest one. -/
theorem update_error {s : MemoryStore} {old v : Versioned}
    {next : MachineRecord} {e : StoreError} (hon : s.offline = false)
    (hv : s.records.get? old.record.id = some v)
    (he : ((update old next).run s).1 = .error e) :
    e.isConflict = true ∧ v ≠ old := by
  have hunfit : ¬ (update old next).Fits s := by
    intro hfit
    rw [run_fits hon hfit] at he
    cases he
  rw [run_unfit hon hunfit] at he
  simp only [key, hv, Option.isSome_some, if_true] at he
  cases he
  refine ⟨rfl, ?_⟩
  rintro rfl
  apply hunfit
  simp only [Fits, key, base?, hv, Option.map_some]

/-- Whatever becomes of an attempt, the store is as before or took the
write. -/
theorem run_store (s : MemoryStore) (w : Write) :
    (w.run s).2 = s ∨ (w.Fits s ∧ (w.run s).2 = w.apply s) := by
  cases h : w.run s with
  | mk answer t =>
      cases answer with
      | error e => exact Or.inl (run_error h)
      | ok v => exact Or.inr ⟨(run_ok h).2.1, (run_ok h).2.2.2⟩

end Write

-- ======================================================== the histories

/-- An entry goes to the end of its machine's history. -/
theorem list_append (l : MemoryEventLog) (id m : String)
    (e : ProvisioningEvent) :
    (l.append id e).list m
      = if id = m then l.list m ++ [e] else l.list m := by
  unfold MemoryEventLog.append MemoryEventLog.list
  rw [Table.get?_set]
  split
  · rename_i hm
    rw [hm]
    rfl
  · rfl

end ControlPlane.Fleet
