/-
Two fleets that look alike to one machine: its record and its history
are the same up to a renaming, and the store is in reach of both or of
neither. Whatever a call on the machine demands, the world meets it
alike in both, and they look alike again (`meet_alike`).

# Why the other machines do not matter

A store has one counter of revisions for all machines, so a write takes
a revision that depends on all of them. But an attempt looks at the
revision of its own machine's record only, and at nothing of it but
whether it is that of the version that the call read. Both revisions are
renamed, and a renaming keeps equality (`fits_iff`).

Chain: over Renaming.lean; consumed by NonInterference.lean.
-/
import Mathlib.Data.List.Forall2
import ControlPlane.Proofs.Bus
import ControlPlane.Proofs.Fleet.Renaming

namespace ControlPlane.Fleet

open Renaming
open Lifecycle (Call)

variable {ρ ρ' : Set (Int × Int)} {τ τ' : Set (Timestamp × Timestamp)}
  {c c' : Call} {r r' : MachineRecord} {w w' : Write} {m : String}
  {f f' : Fleet} {k k' : Move Call}

-- ==================================================== fleets side by side

/-- Two fleets that look alike to machine `m`: its record and its history
are those of the other, renamed, and the store is in reach of both or of
neither. -/
structure Beside (ρ : Set (Int × Int)) (τ : Set (Timestamp × Timestamp))
    (m : String) (f f' : Fleet) : Prop where
  times : Upto τ f.ambient.clock f'.ambient.clock
  revisions : Upto ρ f.store.revision f'.store.revision
  offline : f'.store.offline = f.store.offline
  record : Option.Rel (Versioned.Renamed ρ τ) (f.stored m) (f'.stored m)
  history : List.Forall₂ (ProvisioningEvent.Renamed τ)
    (f.events.list m) (f'.events.list m)

/-- Two calls have met their demands alike, and leave fleets that look
alike. -/
def Met (ρ : Set (Int × Int)) (τ : Set (Timestamp × Timestamp))
    (m : String) (x x' : Call × Fleet) : Prop :=
  ∃ ρ' τ', ρ ⊆ ρ' ∧ τ ⊆ τ' ∧ Beside ρ' τ' m x.2 x'.2
    ∧ x.1.Renamed ρ' τ' x'.1

theorem Beside.move (h : Beside ρ τ m f f') (hk : Alike ρ τ k k')
    (i : Nat) : Met ρ τ m (f.move i k) (f'.move i k') := by
  obtain ⟨τ', hsub, hup, hc⟩ := hk ⟨f.registries i, f.ambient⟩
    ⟨f'.registries i, f'.ambient⟩ h.times
  exact ⟨ρ, τ', subset_rfl, hsub, ⟨hup, h.revisions, h.offline,
    rel_mono h.record fun _ _ hv => hv.mono subset_rfl hsub,
    h.history.imp fun _ _ he => he.mono hsub⟩, hc⟩

theorem Met.mono {x x' : Call × Fleet} (h : Met ρ' τ' m x x')
    (hr : ρ ⊆ ρ') (ht : τ ⊆ τ') : Met ρ τ m x x' := by
  obtain ⟨ρ'', τ'', hr', ht', hf, hc⟩ := h
  exact ⟨ρ'', τ'', hr.trans hr', ht.trans ht', hf, hc⟩

/-- A look finds the machine in both fleets, or misses it in both. -/
theorem Beside.find (h : Beside ρ τ m f f') :
    Outcome (Versioned.Renamed ρ τ) (f.store.find m) (f'.store.find m) := by
  have hrec := h.record
  unfold MemoryStore.find
  unfold stored at hrec
  rw [h.offline]
  cases f.store.offline with
  | true => exact .error _
  | false =>
      generalize f.store.records.get? m = v at hrec
      generalize f'.store.records.get? m = v' at hrec
      cases hrec with
      | none => exact .error _
      | some hv => exact .ok hv

/-- A write that is attempted in place of another. -/
structure Write.Renamed (ρ : Set (Int × Int))
    (τ : Set (Timestamp × Timestamp)) (w w' : Write) : Prop where
  key : w'.key = w.key
  record : w.record.Renamed τ w'.record
  base : Option.Rel (Versioned.Renamed ρ τ) w.base? w'.base?

theorem renamed_create (hr : r.Renamed τ r') :
    (Write.create r).Renamed ρ τ (.create r') :=
  ⟨hr.id, hr, .none⟩

theorem renamed_update {v v' : Versioned} (hv : v.Renamed ρ τ v')
    (hr : r.Renamed τ r') :
    (Write.update v r).Renamed ρ τ (.update v' r') :=
  ⟨hv.record.id, hr, .some hv⟩

/-- Calls alike are about to write alike. -/
theorem write_alike (hc : c.Renamed ρ τ c') :
    Option.Rel (Write.Renamed ρ τ) (lifecycleWrite? c)
      (lifecycleWrite? c') := by
  obtain ⟨hs⟩ := hc
  obtain ⟨machine, op, topic, retry, pacing, stage⟩ := c
  cases hs with
  | creating hr => exact .some (renamed_create hr)
  | writing hv hr => exact .some (renamed_update hv hr)
  | _ => exact .none

/-- The revisions are those of the whole store, but they are only ever
compared with one of the machine's own. -/
theorem Beside.fits_iff (h : Beside ρ τ m f f') (hw : w.Renamed ρ τ w')
    (hm : w.key = m) : w.Fits f.store ↔ w'.Fits f'.store := by
  have hrec := h.record
  have hbase := hw.base
  unfold Write.Fits
  rw [hw.key, hm]
  show (f.stored m).map _ = _ ↔ (f'.stored m).map _ = _
  generalize f.stored m = v at hrec
  generalize f'.stored m = v' at hrec
  generalize w.base? = b at hbase
  generalize w'.base? = b' at hbase
  cases hrec with
  | none =>
      cases hbase with
      | none => exact Iff.rfl
      | some hb => exact iff_of_false nofun nofun
  | some hv =>
      cases hbase with
      | none => exact iff_of_false nofun nofun
      | some hb =>
          obtain ⟨-, hv⟩ := hv
          obtain ⟨-, hb⟩ := hb
          have heq := h.revisions.ordered.eq_iff hv hb
          simpa using heq

/-- The stores take writes alike, each at its next revision. -/
theorem Beside.apply (h : Beside ρ τ m f f') (hw : w.Renamed ρ τ w')
    (hm : w.key = m) :
    Beside (insert (f.store.revision + 1, f'.store.revision + 1) ρ) τ m
      { f with store := w.apply f.store }
      { f' with store := w'.apply f'.store } where
  times := h.times
  revisions := h.revisions.insert (Int.lt_succ _) (Int.lt_succ _)
  offline := h.offline
  record := by
    unfold stored
    rw [Write.apply_get?, Write.apply_get?, if_pos hm,
      if_pos (hw.key.trans hm)]
    exact .some (.intro hw.record (Set.mem_insert _ _))
  history := h.history

/-- Attempts alike have ended alike. -/
structure Attempted (ρ : Set (Int × Int))
    (τ : Set (Timestamp × Timestamp)) (m : String)
    (x x' : Except StoreError Versioned × MemoryStore) (f f' : Fleet) :
    Prop where
  beside : Beside ρ τ m { f with store := x.2 } { f' with store := x'.2 }
  answer : Outcome (Versioned.Renamed ρ τ) x.1 x'.1

/-- Attempts alike to write machine `m`: the one meets with a conflict if
and only if the other does. -/
theorem Beside.attempted (h : Beside ρ τ m f f')
    (hw : w.Renamed ρ τ w') (hm : w.key = m) :
    ∃ ρ', ρ ⊆ ρ'
      ∧ Attempted ρ' τ m (w.run f.store) (w'.run f'.store) f f' := by
  cases hoff : f.store.offline with
  | true =>
      rw [Write.run_offline hoff, Write.run_offline (h.offline.trans hoff)]
      exact ⟨ρ, subset_rfl, h, .error _⟩
  | false =>
      have hoff' := h.offline.trans hoff
      by_cases hfit : w.Fits f.store
      · rw [Write.run_fits hoff hfit,
          Write.run_fits hoff' ((h.fits_iff hw hm).mp hfit)]
        exact ⟨_, Set.subset_insert _ _, h.apply hw hm,
          .ok (.intro hw.record (Set.mem_insert _ _))⟩
      · have hknown : (f'.store.records.get? m).isSome
            = (f.store.records.get? m).isSome := rel_isSome h.record
        rw [Write.run_unfit hoff hfit,
          Write.run_unfit hoff' fun hf => hfit ((h.fits_iff hw hm).mpr hf),
          hw.key, hm, hknown]
        exact ⟨ρ, subset_rfl, h, .error _⟩

/-- What calls alike do when their attempts are answered, -/
theorem Beside.tried (h : Beside ρ τ m f f') (hw : w.Renamed ρ τ w')
    (hm : w.key = m) (c : Call) (created : Bool) (i : Nat) :
    Met ρ τ m
      ({ f with store := (w.run f.store).2 }.move i
        (match (w.run f.store).1 with
          | .ok v => c.written v.record created
          | .error e => c.attemptFailed e))
      ({ f' with store := (w'.run f'.store).2 }.move i
        (match (w'.run f'.store).1 with
          | .ok v => c.written v.record created
          | .error e => c.attemptFailed e)) := by
  obtain ⟨ρ', hsub, ha⟩ := h.attempted hw hm
  exact (ha.beside.move (answered_alike c created ha.answer) i).mono hsub
    subset_rfl

/-- and when the answers are lost. -/
theorem Beside.lost (h : Beside ρ τ m f f') (hw : w.Renamed ρ τ w')
    (hm : w.key = m) (c : Call) (e : StoreError) (i : Nat) :
    Met ρ τ m
      ({ f with store := (w.run f.store).2 }.move i (c.attemptFailed e))
      ({ f' with store := (w'.run f'.store).2 }.move i
        (c.attemptFailed e)) := by
  obtain ⟨ρ', hsub, ha⟩ := h.attempted hw hm
  exact (ha.beside.move (attemptFailed_alike c e) i).mono hsub subset_rfl

theorem Beside.append (h : Beside ρ τ m f f') {e e' : ProvisioningEvent}
    (he : e.Renamed τ e') :
    Beside ρ τ m { f with events := f.events.append m e }
      { f' with events := f'.events.append m e' } where
  times := h.times
  revisions := h.revisions
  offline := h.offline
  record := h.record
  history := by
    show List.Forall₂ _ ((f.events.append m e).list m)
      ((f'.events.append m e').list m)
    rw [list_append, list_append, if_pos rfl, if_pos rfl]
    exact List.rel_append h.history (.cons he .nil)

theorem Beside.post (h : Beside ρ τ m f f') (topic : String)
    (payload : Json) :
    Beside ρ τ m (f.post topic payload) (f'.post topic payload) where
  times := h.times.later (MemoryBus.publish_clock payload)
    (MemoryBus.publish_clock payload)
  revisions := h.revisions
  offline := h.offline
  record := h.record
  history := h.history

-- ====================================================== demands are met

/-- The world meets the demands of two calls alike, whatever it
chooses. -/
theorem meet_alike (h : Beside ρ τ m f f')
    (hc : c.Renamed ρ τ c') (hm : c.machine = m)
    (hkey : ∀ w, lifecycleWrite? c = some w → w.key = m) (i : Nat)
    (ch : Choice) :
    Option.Rel (Met ρ τ m) (f.meet i ch c.demand)
      (f'.meet i ch c'.demand) := by
  obtain ⟨hs⟩ := hc
  obtain ⟨machine, op, topic, retry, pacing, stage⟩ := c
  change machine = m at hm
  subst hm
  cases hs with
  | reading =>
      cases ch with
      | serve t => exact .some (h.move (looked_alike _ h.find) i)
      | refuse e => exact .some (h.move (missed_alike _ e) i)
      | _ => exact .none
  | @creating r r' hr =>
      have hw := renamed_create (ρ := ρ) hr
      have hm := hkey (.create r) rfl
      cases ch with
      | serve t => exact .some (h.tried hw hm _ true i)
      | refuse e => exact .some (h.move (attemptFailed_alike _ e) i)
      | lose e => exact .some (h.lost hw hm _ e i)
      | _ => exact .none
  | @writing v v' r r' hv hr =>
      have hw := renamed_update hv hr
      have hm := hkey (.update v r) rfl
      cases ch with
      | serve t => exact .some (h.tried hw hm _ false i)
      | refuse e => exact .some (h.move (attemptFailed_alike _ e) i)
      | lose e => exact .some (h.lost hw hm _ e i)
      | _ => exact .none
  | pausing d d' =>
      cases ch with
      | serve t =>
          refine .some (h.move ?_ i)
          intro l l' hl
          exact ⟨τ, subset_rfl, hl, .intro .reading⟩
      | _ => exact .none
  | @publishing r r' hr =>
      cases ch with
      | serve t =>
          exact .some ((h.post _ _).move (published_alike _ hr _) i)
      | garble sent e =>
          cases sent with
          | false => exact .some (h.move (published_alike _ hr _) i)
          | true =>
              exact .some ((h.post _ _).move (published_alike _ hr _) i)
      | _ => exact .none
  | @recording r r' e e' hr he =>
      have happend := h.append he
      obtain ⟨ht⟩ := he
      cases ch with
      | serve t =>
          exact .some (happend.move (recorded_alike _ hr e.kind _) i)
      | refuse x => exact .some (h.move (recorded_alike _ hr e.kind _) i)
      | lose x =>
          exact .some (happend.move (recorded_alike _ hr e.kind _) i)
      | _ => exact .none
  | finished hx =>
      cases ch <;> exact .none

end ControlPlane.Fleet
