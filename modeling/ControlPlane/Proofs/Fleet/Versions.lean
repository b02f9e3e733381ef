/-
The versions of a machine's record, along every history. A call reads a
version, makes a new record of it, and attempts to write that over the
version that it read. Between the read and the write anything can
happen, and still every version that is ever stored was made of the one
before (`stored_step`).

# Why a stale copy is never written

- A version keeps its revision, and a revision is given once: two
  versions of a machine with one revision are one version
  (`version_unique`).
- What a call is about to write was made of what was stored at the
  moment of its read (`drafted`), and the attempt succeeds only on a
  version of that revision, hence on that very version
  (`write_current`).

So the version that a call read is still the latest one when its write
is taken, however many calls came between and failed.

Chain: over History.lean; consumed by Linearizability.lean, by
SingleAllocation.lean, and through the permanence of allocations by the
wake-ups.
-/
import ControlPlane.Proofs.Fleet.History

namespace ControlPlane

-- ============================================================= mutations

/-- What an allocation is about. -/
def Allocation.terms (a : Allocation) : String × String × String :=
  (a.project, a.hostname, a.image)

/-- What a request asks an allocation to be about. -/
def AllocateRequest.terms (r : AllocateRequest) :
    String × String × String :=
  (r.project, r.hostname, r.image)

/-- What a record's allocation is about. -/
def MachineRecord.terms? (r : MachineRecord) :
    Option (String × String × String) :=
  r.allocation.map Allocation.terms

theorem MachineRecord.isAllocated_eq (r : MachineRecord) :
    r.isAllocated = r.terms?.isSome := by
  unfold isAllocated terms?
  rw [Option.isSome_map]

namespace Fleet

/-- What a call makes of a machine's record. -/
inductive Mutation
  /-- A registration of an unknown machine. -/
  | create (req : RegisterRequest)
  /-- An operation on a known one. -/
  | change (op : Operation)
  /-- A wait call sets the waiting flag. -/
  | mark
  /-- A wait call clears it. -/
  | clear
  deriving DecidableEq, Repr

/-- The record that a mutation makes of the one before, if it makes
any, by the clock around the call. -/
def Mutation.apply (machine : String) (a : Ambient) :
    Mutation → Option MachineRecord → Option MachineRecord
  | create req, none => some (Operation.created req machine a.now.1)
  | change op, some r =>
      match op.change r a with
      | (.ok (some x), a) => some { x with changedAt := a.now.1 }
      | _ => none
  | mark, some r =>
      if r.isAllocated then none
      else some { r with waiting := true, changedAt := a.now.1 }
  | clear, some r =>
      if r.waiting then
        some { r with waiting := false, changedAt := a.now.1 }
      else none
  | _, _ => none

/-- The mutation that a call is about to write. -/
def Task.mutation? : Task → Option Mutation
  | lifecycle c =>
      match c.stage, c.operation with
      | .creating _, .register req => some (.create req)
      | .writing _ _, op => some (.change op)
      | _, _ => none
  | wait c =>
      match c.stage with
      | .marking _ _ => some .mark
      | .clearing _ (.writing _ _) => some .clear
      | _ => none

/-- An operation creates a record if it is a registration, and changes
one otherwise. -/
theorem operation_mutation {c : Lifecycle.Call} {μ : Mutation}
    (hμ : (Task.lifecycle c).mutation? = some μ) :
    (∃ req, c.operation = .register req ∧ μ = .create req)
      ∨ μ = .change c.operation := by
  simp only [Task.mutation?] at hμ
  split at hμ
  · rename_i req hs hop
    cases hμ
    exact Or.inl ⟨req, hop, rfl⟩
  · cases hμ
    exact Or.inr rfl
  · cases hμ

/-- An operation keeps the machine, and the terms of its allocation, or
allocates a machine that is not allocated. -/
theorem change_some {op : Operation} {r x : MachineRecord}
    {a a' : Ambient} (h : op.change r a = (.ok (some x), a')) :
    x.id = r.id
      ∧ ((∃ req, op = .allocate req ∧ r.terms? = none
          ∧ x.terms? = some req.terms)
        ∨ ((∀ req, op ≠ .allocate req) ∧ x.terms? = r.terms?)) := by
  cases op with
  | register req =>
      cases h
      by_cases hp : req.partition = ""
      · rw [if_pos hp]
        exact ⟨rfl, Or.inr ⟨(fun _ h => by cases h), rfl⟩⟩
      · rw [if_neg hp]
        exact ⟨rfl, Or.inr ⟨(fun _ h => by cases h), rfl⟩⟩
  | attach connections =>
      simp only [Operation.change] at h
      split at h
      · cases h
      · cases h
        exact ⟨rfl, Or.inr ⟨(fun _ h => by cases h), rfl⟩⟩
  | allocate req =>
      simp only [Operation.change] at h
      split at h
      · cases h
      · rename_i hr
        cases h
        refine ⟨rfl, Or.inl ⟨req, rfl, ?_, rfl⟩⟩
        rw [MachineRecord.isAllocated_eq] at hr
        simpa using hr
  | assignVrf vrf =>
      simp only [Operation.change] at h
      split at h
      · cases h
      · rename_i y hy
        split at h
        · cases h
        · cases h
          refine ⟨rfl, Or.inr ⟨(fun _ h => by cases h), ?_⟩⟩
          unfold MachineRecord.terms?
          rw [hy]
          rfl
  | report req =>
      simp only [Operation.change] at h
      split at h
      · cases h
      · rename_i y hy
        cases h
        refine ⟨rfl, Or.inr ⟨(fun _ h => by cases h), ?_⟩⟩
        unfold MachineRecord.terms?
        rw [hy]
        rfl
  | abortReinstall diskWiped =>
      simp only [Operation.change] at h
      split at h
      · rename_i y hy
        split at h
        · cases h
          refine ⟨rfl, Or.inr ⟨(fun _ h => by cases h), ?_⟩⟩
          unfold MachineRecord.terms?
          rw [hy]
          rfl
        · cases h
      · cases h

namespace Mutation

variable {μ : Mutation} {m : String} {a : Ambient} {x : MachineRecord}
  {base : Option MachineRecord}

/-- The ways in which a mutation makes a record. -/
inductive Made (m : String) (a : Ambient) :
    Mutation → Option MachineRecord → MachineRecord → Prop
  | created {req} :
      Made m a (.create req) none (Operation.created req m a.now.1)
  | changed {op r y b} (h : op.change r a = (.ok (some y), b)) :
      Made m a (.change op) (some r) { y with changedAt := b.now.1 }
  | marked {r} (h : r.isAllocated = false) :
      Made m a .mark (some r)
        { r with waiting := true, changedAt := a.now.1 }
  | cleared {r} (h : r.waiting = true) :
      Made m a .clear (some r)
        { r with waiting := false, changedAt := a.now.1 }

theorem apply_made (h : μ.apply m a base = some x) :
    Made m a μ base x := by
  cases base with
  | none =>
      cases μ with
      | create req => cases h; exact .created
      | _ => cases h
  | some r =>
      cases μ with
      | create req => cases h
      | change op =>
          simp only [apply] at h
          split at h
          · rename_i y b hy
            cases h
            exact .changed hy
          · cases h
      | mark =>
          simp only [apply] at h
          split at h
          · cases h
          · rename_i hr
            cases h
            exact .marked (by simpa using hr)
      | clear =>
          simp only [apply] at h
          split at h
          · rename_i hr
            cases h
            exact .cleared hr
          · cases h

/-- A mutation keeps the terms of an allocation, or is the allocation of
a machine that is not allocated. -/
theorem apply_terms (h : μ.apply m a base = some x) :
    (∃ req r, μ = .change (.allocate req) ∧ base = some r
        ∧ r.terms? = none ∧ x.terms? = some req.terms)
      ∨ ((∀ req, μ ≠ .change (.allocate req))
        ∧ x.terms? = base.bind MachineRecord.terms?) := by
  cases apply_made h with
  | created => exact Or.inr ⟨(fun _ h => by cases h), rfl⟩
  | @changed op r y b hy =>
      rcases (change_some hy).2 with ⟨req, rfl, hr, hx⟩ | ⟨hop, hx⟩
      · exact Or.inl ⟨req, r, rfl, rfl, hr, hx⟩
      · refine Or.inr ⟨?_, hx⟩
        intro req he
        cases he
        exact hop req rfl
  | marked hr => exact Or.inr ⟨(fun _ h => by cases h), rfl⟩
  | cleared hr => exact Or.inr ⟨(fun _ h => by cases h), rfl⟩

/-- A mutation keeps the machine. -/
theorem apply_id (h : μ.apply m a base = some x)
    (hb : ∀ r, base = some r → r.id = m) : x.id = m := by
  cases apply_made h with
  | created => rfl
  | changed hy => exact (change_some hy).1.trans (hb _ rfl)
  | @marked r hr => exact hb r rfl
  | @cleared r hr => exact hb r rfl

/-- A mutation says when it was made: later than all before it. -/
theorem apply_clock (h : μ.apply m a base = some x) :
    a.clock < x.changedAt := by
  cases apply_made h with
  | created => exact a.clock_lt_now
  | @changed op r y b hy =>
      have ha := change_clock op r a
      rw [hy] at ha
      exact lt_of_le_of_lt ha b.clock_lt_now
  | marked hr => exact a.clock_lt_now
  | cleared hr => exact a.clock_lt_now

end Mutation

-- ================================================================ drafts

variable {s : Setting} {f g : Fleet} {h p : History} {i r : Nat}
  {ch : Choice} {t t' : Task} {w : Write} {m : String} {μ : Mutation}

/-- In the step from `f` to `g` a call read a machine's record, and made
of it what it is about to write. -/
structure Drafted (f : Fleet) (ch : Choice) (g : Fleet) (m : String)
    (μ : Mutation) (w : Write) : Prop where
  /-- What was read was stored; only a backend that says what is not so
  makes a call take a machine for unknown. -/
  read : w.base? = f.stored m ∨ (w.base? = none ∧ ch.faithful = false)
  key : w.base? = none → w.key = m
  made : μ.apply m f.ambient (w.base?.map Versioned.record)
    = some w.record
  clock : w.record.changedAt = g.ambient.clock

theorem Settles.write? {c c' : Lifecycle.Call} {x : MachineRecord}
    {created : Bool} (h : Settles c x created c') :
    (Task.lifecycle c').write? = none := by
  rcases h with ⟨-, rfl⟩ | ⟨_, _, _, -, rfl⟩ <;> rfl

theorem FailedWith.write? {c c' : Lifecycle.Call} {e : StoreError}
    (h : FailedWith c e c') : (Task.lifecycle c').write? = none := by
  rcases h with ⟨rfl, -⟩ | ⟨-, -, _, _, -, rfl⟩ <;> rfl

theorem ClearFailed.write? {c c' : Wait.Call} {q : Pacing}
    {e : StoreError} (h : ClearFailed c q e c') :
    (Task.wait c').write? = none := by
  rcases h with ⟨rfl, -⟩ | ⟨-, -, _, _, -, rfl⟩ <;> rfl

/-- The write that a lifecycle call is about to attempt after a step was
made in that step. -/
theorem LifecycleStep.drafted {c c' : Lifecycle.Call}
    (h : LifecycleStep f c ch c' g)
    (hw : (Task.lifecycle c').write? = some w) :
    ∃ μ, (Task.lifecycle c').mutation? = some μ
      ∧ Drafted f ch g c.machine μ w := by
  cases h with
  | @prepared t v x a hs hv hx =>
      cases hw
      refine ⟨.change c.operation, rfl, Or.inl hv.symm,
        (fun h => by cases h), ?_, rfl⟩
      show (match c.operation.change v.record f.ambient with
        | (.ok (some x), a) => some { x with changedAt := a.now.1 }
        | _ => none) = _
      rw [hx]
      rfl
  | @unknown ch req id hs hop he =>
      cases hw
      refine ⟨.create req, ?_, ?_, fun _ => rfl, rfl, rfl⟩
      · simp only [Task.mutation?, Lifecycle.Call.goto, hop]
      · rcases he with rfl | ⟨-, he⟩
        · exact Or.inr ⟨rfl, rfl⟩
        · rcases MemoryStore.find_error he with h | h
          · cases h
          · exact Or.inl h.symm
  | kept hs hv hx hc => rw [hc.write?] at hw; cases hw
  | unread hs he hc => rw [hc.write?] at hw; cases hw
  | unwritten hw' he hc => rw [hc.write?] at hw; cases hw
  | lost hw' hc => rw [hc.write?] at hw; cases hw
  | published hs hch hc => rw [hc.write?] at hw; cases hw
  | wrote hw' hon hfit hc =>
      rcases hc with ⟨req, -, rfl⟩ | ⟨-, hc⟩
      · cases hw
      · rw [hc.write?] at hw
        cases hw
  | rejected => cases hw
  | resumed => cases hw
  | recorded => cases hw

/-- The same for a wait call: it sets its flag, or clears it. -/
theorem WaitStep.drafted {c c' : Wait.Call} (h : WaitStep f r c ch c' g)
    (hw : (Task.wait c').write? = some w) :
    ∃ μ, (Task.wait c').mutation? = some μ
      ∧ Drafted f ch g c.machine μ w := by
  cases h with
  | @prepared t v hs hv ha =>
      cases hw
      refine ⟨.mark, rfl, Or.inl hv.symm, (fun h => by cases h), ?_, rfl⟩
      show (if v.record.isAllocated = true then none else _) = _
      rw [ha]
      rfl
  | @clearPrepared t p v hs hv hw' =>
      cases hw
      refine ⟨.clear, rfl, Or.inl hv.symm, (fun h => by cases h), ?_, rfl⟩
      show (if v.record.waiting = true then _ else none) = _
      rw [hw']
      rfl
  | clearUnread hs he hc => rw [hc.write?] at hw; cases hw
  | unclear hs he hc => rw [hc.write?] at hw; cases hw
  | clearLost hs hc => rw [hc.write?] at hw; cases hw
  | @stays ch b s b' g hs hb hm hn hg =>
      cases s with
      | marking => cases hb
      | clearing => cases hb
      | _ => cases hw
  | _ => cases hw

/-- Whatever a call is about to write, it made in one of its own steps
from what it read in that step. -/
theorem drafted {x : Slot} (hx : (after s h).slots[i]? = some x)
    (hw : x.task.write? = some w) :
    ∃ ch q μ, (.step i ch :: q) <:+ h ∧ x.task.mutation? = some μ
      ∧ Drafted (after s q) ch (after s (.step i ch :: q))
        x.task.machine μ w := by
  revert hw
  refine slot_induction (s := s)
    (P := fun i h t => t.write? = some w →
      ∃ ch q μ, (.step i ch :: q) <:+ h ∧ t.mutation? = some μ
        ∧ Drafted (after s q) ch (after s (.step i ch :: q)) t.machine μ w)
    ?_ ?_ ?_ ?_ ?_ h i x hx
  · intro i e h t ih hw
    obtain ⟨ch, q, μ, hq, hd⟩ := ih hw
    exact ⟨ch, q, μ, hq.trans (List.suffix_cons _ _), hd⟩
  · intro i r retry m op h hw
    cases hw
  · intro i r node settings retry machine h hw
    cases hw
  · intro i r ch t t' h g hi ht hg ih hw
    have hd : ∃ μ, t'.mutation? = some μ
        ∧ Drafted (after s h) ch g t'.machine μ w := by
      rw [ht.same.machine]
      cases ht with
      | lifecycle hc => exact hc.drafted hw
      | wait hc => exact hc.drafted hw
    obtain ⟨μ, hμ, hd⟩ := hd
    refine ⟨ch, h, μ, List.suffix_rfl, hμ, hd.read, hd.key, hd.made, ?_⟩
    rw [hg]
    exact hd.clock
  · intro i r c h hi hu ih hw
    cases hw

-- ============================================================== versions

/-- An event leaves the records as they are, or is the step of a call
whose write is taken. -/
theorem step_store (f : Fleet) (e : Event) :
    ((f.step e).store.records = f.store.records
        ∧ (f.step e).store.revision = f.store.revision)
      ∨ ∃ i ch r t w, e = .step i ch
          ∧ f.slots[i]? = some ⟨r, t, false⟩ ∧ t.write? = some w
          ∧ w.Fits f.store ∧ (f.step e).store = w.apply f.store := by
  have hh := happened f e
  generalize f.step e = g at hh
  cases hh with
  | advanced hi ht =>
      rcases ht.store with h | ⟨w, hw, hfit, h⟩
      · exact Or.inl ⟨congrArg _ h, congrArg _ h⟩
      · exact Or.inr ⟨_, _, _, _, w, rfl, hi, hw, hfit, h⟩
  | expired hi hu hg =>
      obtain ⟨a, -, rfl⟩ := hg
      exact Or.inl ⟨rfl, rfl⟩
  | dropped hi hg =>
      obtain ⟨a, -, rfl⟩ := hg
      exact Or.inl ⟨rfl, rfl⟩
  | aside ha => exact Or.inl ⟨ha.apart.records, ha.apart.revision⟩
  | _ => exact Or.inl ⟨rfl, rfl⟩

/-- What is so about everything that is stored. -/
structure Sane (f : Fleet) : Prop where
  key : ∀ m v, f.stored m = some v → v.record.id = m
  revision : ∀ m v, f.stored m = some v → v.revision ≤ f.store.revision
  clock : ∀ m v, f.stored m = some v →
    v.record.changedAt ≤ f.ambient.clock

theorem stored_apply (w : Write) (hg : g.store = w.apply f.store)
    (m : String) :
    g.stored m = if w.key = m then some ⟨w.record, f.store.revision + 1⟩
      else f.stored m := by
  unfold stored
  rw [hg, Write.apply_get?]

/-- A draft is for the machine that its call is about. -/
theorem Drafted.key_eq (hd : Drafted f ch g m μ w) (hf : Sane f) :
    w.key = m := by
  cases w with
  | create x => exact hd.key rfl
  | update old next =>
      rcases hd.read with h | ⟨h, -⟩
      · exact hf.key m old h.symm
      · cases h

theorem sane_upto (s : Setting) (h : History) :
    ∀ p, p <:+ h → Sane (after s p) := by
  induction h with
  | nil =>
      intro p hp
      rw [List.suffix_nil.mp hp]
      refine ⟨?_, ?_, ?_⟩ <;> (intro m v hv; cases hv)
  | cons e h ih =>
      intro p hp
      rcases List.suffix_cons_iff.mp hp with rfl | hp
      · have hf := ih h List.suffix_rfl
        have hclock := step_clock (after s h) e
        rcases step_store (after s h) e with
          ⟨hrec, hrev⟩ | ⟨i, ch, r, t, w, rfl, hi, hw, hfit, hst⟩
        · refine ⟨?_, ?_, ?_⟩
          · intro m v hv
            refine hf.key m v ?_
            rw [← hv, stored, stored, after_cons, hrec]
          · intro m v hv
            rw [after_cons, hrev]
            refine hf.revision m v ?_
            rw [← hv, stored, stored, after_cons, hrec]
          · intro m v hv
            refine le_trans (hf.clock m v ?_) hclock
            rw [← hv, stored, stored, after_cons, hrec]
        · -- a write is taken: its record was made at an earlier moment
          -- `q`, so the hypothesis must reach back to it
          obtain ⟨ch', q, μ, hq, -, hd⟩ := drafted hi hw
          have hqf := ih q ((List.suffix_cons _ _).trans hq)
          have hkey := hd.key_eq hqf
          have hst' := stored_apply w hst
          refine ⟨?_, ?_, ?_⟩
          · intro m v hv
            rw [after_cons, hst'] at hv
            split at hv
            · rename_i hm
              cases hv
              rw [← hm, hkey]
              refine Mutation.apply_id hd.made ?_
              intro x hx
              rcases hd.read with h | ⟨h, -⟩
              · rw [h] at hx
                obtain ⟨u, hu, rfl⟩ := Option.map_eq_some_iff.mp hx
                exact hqf.key _ u hu
              · rw [h] at hx
                cases hx
            · exact hf.key m v hv
          · intro m v hv
            rw [after_cons, hst'] at hv
            rw [after_cons, hst, Write.apply_revision]
            split at hv
            · cases hv
              exact Int.le_refl _
            · have := hf.revision m v hv
              omega
          · intro m v hv
            rw [after_cons, hst'] at hv
            split at hv
            · cases hv
              rw [hd.clock]
              exact le_trans (clock_mono s hq) hclock
            · exact le_trans (hf.clock m v hv) hclock
      · exact ih p hp

theorem sane (s : Setting) (h : History) : Sane (after s h) :=
  sane_upto s h h List.suffix_rfl

/-- What a call is about to write is its machine's record. -/
theorem write_key {x : Slot} (hx : (after s h).slots[i]? = some x)
    (hw : x.task.write? = some w) : w.key = x.task.machine := by
  obtain ⟨ch, q, μ, -, -, hd⟩ := drafted hx hw
  exact hd.key_eq (sane s q)

/-- Revisions are given in order. -/
theorem revision_mono (s : Setting) (hp : p <:+ h) :
    (after s p).store.revision ≤ (after s h).store.revision := by
  induction h with
  | nil =>
      obtain rfl := List.suffix_nil.mp hp
      exact Int.le_refl _
  | cons e h ih =>
      rcases List.suffix_cons_iff.mp hp with rfl | hp'
      · exact Int.le_refl _
      · refine Int.le_trans (ih hp') ?_
        rw [after_cons]
        rcases step_store (after s h) e with
          ⟨-, hrev⟩ | ⟨i, ch, r, t, w, -, -, -, -, hst⟩
        · exact Int.le_of_eq hrev.symm
        · rw [hst, Write.apply_revision]
          omega

/-- What is stored is never taken away, and what comes after it has a
later revision than any given before. -/
theorem stored_later (hp : p <:+ h) {u : Versioned}
    (hu : (after s p).stored m = some u) :
    ∃ v, (after s h).stored m = some v
      ∧ (v = u ∨ (after s p).store.revision < v.revision) := by
  induction h with
  | nil =>
      rw [List.suffix_nil.mp hp] at hu
      cases hu
  | cons e h ih =>
      rcases List.suffix_cons_iff.mp hp with rfl | hp'
      · exact ⟨u, hu, Or.inl rfl⟩
      · obtain ⟨v, hv, hor⟩ := ih hp'
        rcases step_store (after s h) e with
          ⟨hrec, -⟩ | ⟨i, ch, r, t, w, rfl, hi, hw, hfit, hst⟩
        · refine ⟨v, ?_, hor⟩
          rw [← hv, stored, stored, after_cons, hrec]
        · rw [after_cons, stored_apply w hst]
          split
          · refine ⟨_, rfl, Or.inr ?_⟩
            have := revision_mono s hp'
            show (after s p).store.revision
              < (after s h).store.revision + 1
            omega
          · exact ⟨v, hv, hor⟩

/-- Two versions of a machine with one revision are one version. -/
theorem version_unique (hp : p <:+ h) {u v : Versioned}
    (hu : (after s p).stored m = some u)
    (hv : (after s h).stored m = some v)
    (hr : v.revision = u.revision) : v = u := by
  obtain ⟨v', hv', hor⟩ := stored_later hp hu
  cases hv.symm.trans hv'
  rcases hor with h | h
  · exact h
  · have := (sane s p).revision m u hu
    omega

/-- A write that is taken is over the very version that its call read,
which is the latest one. -/
theorem write_current (hq : p <:+ h) {g : Fleet}
    (hd : Drafted (after s p) ch g m μ w)
    (hfit : w.Fits (after s h).store) :
    w.base? = (after s h).stored m ∧ (after s p).stored m = w.base? := by
  have hkey := hd.key_eq (sane s p)
  unfold Write.Fits at hfit
  rw [hkey] at hfit
  change ((after s h).stored m).map _ = _ at hfit
  cases hb : w.base? with
  | none =>
      rw [hb, Option.map_none, Option.map_eq_none_iff] at hfit
      refine ⟨hfit.symm, ?_⟩
      cases hu : (after s p).stored m with
      | none => rfl
      | some u =>
          obtain ⟨v, hv, -⟩ := stored_later hq hu
          rw [hfit] at hv
          cases hv
  | some old =>
      rw [hb, Option.map_some] at hfit
      obtain ⟨v, hv, hr⟩ := Option.map_eq_some_iff.mp hfit
      rcases hd.read with h | ⟨h, -⟩
      · rw [hb] at h
        rw [hv, version_unique hq h.symm hv hr]
        exact ⟨rfl, h.symm⟩
      · rw [hb] at h
        cases h

-- ============================================================= the chain

/-- The step that call `i` takes after `h` puts `v` over the latest
version of `m`, which the call read at an earlier moment and of which it
made `v`. -/
structure Follows (s : Setting) (h : History) (i : Nat) (ch : Choice)
    (m : String) (μ : Mutation) (v : Versioned) : Prop where
  stored : (after s (.step i ch :: h)).stored m = some v
  /-- The call is about this machine, and not given up. -/
  call : ∃ r t, (after s h).slots[i]? = some ⟨r, t, false⟩
    ∧ t.machine = m ∧ t.mutation? = some μ
  /-- The version read, the one before `v`, and what `v` was made of are
  the same one; the time of the change is a new reading of the clock. -/
  made : ∃ ch q, (.step i ch :: q) <:+ h
    ∧ (after s q).stored m = (after s h).stored m
    ∧ μ.apply m (after s q).ambient
        (((after s h).stored m).map Versioned.record) = some v.record
    ∧ (after s q).ambient.clock < v.record.changedAt
    ∧ v.record.changedAt = (after s (.step i ch :: q)).ambient.clock
  /-- The revision is one that was never given before. -/
  revision : v.revision = (after s h).store.revision + 1
    ∧ (after s (.step i ch :: h)).store.revision = v.revision

/-- A write that is taken follows the latest version. -/
theorem follows_of_fits (ch : Choice)
    (hi : (after s h).slots[i]? = some ⟨r, t, false⟩)
    (hw : t.write? = some w) (hfit : w.Fits (after s h).store)
    (hst : (after s (.step i ch :: h)).store
      = w.apply (after s h).store) :
    w.key = t.machine ∧ ∃ μ, Follows s h i ch t.machine μ
      ⟨w.record, (after s h).store.revision + 1⟩ := by
  obtain ⟨ch', q, μ, hq, hμ, hd⟩ := drafted hi hw
  have hqh : q <:+ h := (List.suffix_cons _ _).trans hq
  obtain ⟨hbase, hread⟩ := write_current hqh hd hfit
  have hkey := hd.key_eq (sane s q)
  have hmade := hd.made
  rw [hbase] at hmade
  refine ⟨hkey, μ, ?_, ⟨r, t, hi, rfl, hμ⟩, ?_, rfl, ?_⟩
  · rw [stored_apply w hst, if_pos hkey]
  · exact ⟨ch', q, hq, hread.trans hbase, hmade,
      Mutation.apply_clock hmade, hd.clock⟩
  · rw [hst, Write.apply_revision]

/-- The version is another one than before. -/
theorem Follows.moves {v : Versioned} (hfol : Follows s h i ch m μ v) :
    (after s (.step i ch :: h)).stored m ≠ (after s h).stored m := by
  intro hsame
  have hrev := (sane s h).revision m v (hsame.symm.trans hfol.stored)
  have hnew := hfol.revision.1
  omega

/-- The step of the call whose write it was. -/
theorem Follows.step {v : Versioned} (hfol : Follows s h i ch m μ v) :
    ∃ r t t' g, (after s h).slots[i]? = some ⟨r, t, false⟩
      ∧ t.machine = m ∧ t.mutation? = some μ
      ∧ TaskStep (after s h) r t ch t' g
      ∧ g.store ≠ (after s h).store
      ∧ (after s (.step i ch :: h)).slots[i]? = some ⟨r, t', false⟩ := by
  obtain ⟨r, t, hi, hm, hμ⟩ := hfol.call
  have hrev := hfol.revision
  obtain ⟨y, hy, -⟩ := slot_kept (.step i ch) hi
  have hs := slot_step hy
  rw [after_cons] at hrev ⊢
  generalize (after s h).step (.step i ch) = g at hs hrev hy ⊢
  -- the revision has grown, so the event did happen
  cases hs with
  | same hs he => exact absurd rfl he
  | idle hs => omega
  | @advanced ch r' t₀ t' g hs ht =>
      cases hs.symm.trans hi
      refine ⟨r, t, t', g, hi, hm, hμ, ht, ?_, hy⟩
      intro hst
      have hsame : g.store.revision = (after s h).store.revision := by
        rw [hst]
      have hset : (g.setSlot i ⟨r, t', false⟩).store.revision
        = g.store.revision := rfl
      omega

/-- An event leaves a machine's record as it is, or is the step of one
call that puts a version made of the latest one over it. -/
theorem stored_step (s : Setting) (h : History) (e : Event) (m : String) :
    (after s (e :: h)).stored m = (after s h).stored m
      ∨ ∃ i ch μ v, e = .step i ch ∧ Follows s h i ch m μ v := by
  rcases step_store (after s h) e with
    ⟨hrec, -⟩ | ⟨i, ch, r, t, w, rfl, hi, hw, hfit, hst⟩
  · left
    rw [stored, stored, after_cons, hrec]
  · obtain ⟨hkey, μ, hfol⟩ := follows_of_fits ch hi hw hfit hst
    by_cases hm : w.key = m
    · right
      rw [← hkey, hm] at hfol
      exact ⟨i, ch, μ, _, rfl, hfol⟩
    · left
      rw [after_cons, stored_apply w hst, if_neg hm]

/-- Once a machine's record carries an allocation, it carries one about
the same for ever. -/
theorem terms_step {terms : String × String × String}
    (ht : ((after s h).stored m).bind (fun v => v.record.terms?)
      = some terms) (e : Event) :
    ((after s (e :: h)).stored m).bind (fun v => v.record.terms?)
      = some terms := by
  rcases stored_step s h e m with hsame | ⟨i, ch, μ, v, rfl, hfol⟩
  · rw [hsame, ht]
  · obtain ⟨ch', q, -, -, hmade, -, -⟩ := hfol.made
    rw [hfol.stored]
    obtain ⟨u, hu, hterms⟩ := Option.bind_eq_some_iff.mp ht
    rw [hu] at hmade
    rcases Mutation.apply_terms hmade with
      ⟨req, r, -, hr, hnone, -⟩ | ⟨-, hx⟩
    · cases hr
      rw [hterms] at hnone
      cases hnone
    · exact hx.trans hterms

theorem allocated_iff : f.Allocated m
    ↔ ∃ terms, (f.stored m).bind (fun v => v.record.terms?)
      = some terms := by
  constructor
  · rintro ⟨v, hv, ha⟩
    rw [MachineRecord.isAllocated_eq] at ha
    obtain ⟨terms, ht⟩ := Option.isSome_iff_exists.mp ha
    exact ⟨terms, by rw [hv]; exact ht⟩
  · rintro ⟨terms, ht⟩
    obtain ⟨v, hv, hx⟩ := Option.bind_eq_some_iff.mp ht
    refine ⟨v, hv, ?_⟩
    rw [MachineRecord.isAllocated_eq, hx]
    rfl

/-- An allocation is never taken back. -/
theorem allocated_step (e : Event) (ha : (after s h).Allocated m) :
    (after s (e :: h)).Allocated m := by
  obtain ⟨terms, ht⟩ := allocated_iff.mp ha
  exact allocated_iff.mpr ⟨terms, terms_step ht e⟩

/-- A write of an allocation that is taken leaves the machine
allocated. -/
theorem Follows.allocated {v : Versioned} {req : AllocateRequest}
    (hfol : Follows s h i ch m (.change (.allocate req)) v) :
    (after s (.step i ch :: h)).Allocated m
      ∧ v.record.terms? = some req.terms
      ∧ ¬ (after s h).Allocated m := by
  obtain ⟨ch', q, -, -, hmade, -, -⟩ := hfol.made
  rcases Mutation.apply_terms hmade with
    ⟨req', x, heq, hx, hnone, hterms⟩ | ⟨hne, -⟩
  · cases heq
    refine ⟨⟨v, hfol.stored, ?_⟩, hterms, ?_⟩
    · rw [MachineRecord.isAllocated_eq, hterms]
      rfl
    · rintro ⟨u, hu, ha⟩
      rw [hu] at hx
      cases hx
      rw [MachineRecord.isAllocated_eq, hnone] at ha
      cases ha
  · exact absurd rfl (hne req)

/-- What an allocation is about to write is an allocation. -/
theorem allocate_mutation {c : Lifecycle.Call} {req : AllocateRequest}
    {μ : Mutation} (hop : c.operation = .allocate req)
    (hμ : (Task.lifecycle c).mutation? = some μ) :
    μ = .change (.allocate req) := by
  obtain ⟨machine, op, topic, retry, pacing, stage⟩ := c
  cases hop
  cases stage with
  | writing => cases hμ; rfl
  | _ => cases hμ

end Fleet

end ControlPlane
