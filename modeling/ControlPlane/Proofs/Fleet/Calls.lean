/-
What one step of a lifecycle call can be, guards included. `meet` runs
the call's own demand; `lifecycle_step` inverts it once into the cases
of `LifecycleStep`, and every invariant of fleets reads those cases
instead of the call.

# The three parts of a step

- Where the call stands before and after. What an answered write leads
  to is `Wrote`, what an entry in the history leads to is `Settles`, and
  what a failed attempt leads to is `FailedWith`.
- What it did to the store, the history and the bus, as an explicit
  fleet.
- Everything else is the log and the clock, which only moves forward:
  `Still`.

Chain: the inversion layer over Basic.lean and Writes.lean; its sibling
for wait calls is Waits.lean.
-/
import ControlPlane.Proofs.Clock
import ControlPlane.Proofs.Fleet.Writes

namespace ControlPlane.Fleet

-- ======================================================= quiet moves

/-- Nothing but the log and the clock is different in `g`. -/
def Still (f g : Fleet) : Prop :=
  ∃ a : Ambient, f.ambient.clock ≤ a.clock ∧ g = { f with ambient := a }

/-- A step that leaves the replica's signals alone. -/
def Quiet {κ : Type} (k : Move κ) : Prop :=
  ∀ l, (k l).2.registry = l.registry
    ∧ l.ambient.clock ≤ (k l).2.ambient.clock

/-- A quiet step changes nothing but what is around it. -/
theorem move_of_quiet {κ : Type} {f : Fleet} {i : Nat} {k : Move κ}
    (hk : Quiet k) :
    f.move i k = ((k ⟨f.registries i, f.ambient⟩).1,
      { f with ambient := (k ⟨f.registries i, f.ambient⟩).2.ambient }) := by
  have h := (hk ⟨f.registries i, f.ambient⟩).1
  unfold move
  rw [h, Function.update_eq_self]

theorem still_of_quiet {κ : Type} {f : Fleet} {i : Nat} {k : Move κ}
    (hk : Quiet k) : Still f (f.move i k).2 := by
  rw [move_of_quiet hk]
  exact ⟨_, (hk ⟨f.registries i, f.ambient⟩).2, rfl⟩

theorem Still.refl (f : Fleet) : Still f f := ⟨_, le_refl _, rfl⟩

/-- A step that only changes the call. -/
theorem quiet_pure {κ : Type} (c : κ) : Quiet fun l => (c, l) :=
  fun _ => ⟨rfl, le_refl _⟩

theorem quiet_say {κ : Type} (c : κ) (line : LogLine) :
    Quiet fun l => (c, l.say line) :=
  fun _ => ⟨rfl, le_refl _⟩

-- ============================================== where calls get to

open Lifecycle (Call)

variable {f : Fleet} {i : Nat} {ch : Choice} {c c' : Call}

/-- The call's record is final, and its entry for the history, if it has
one, is to be added. -/
def Settles (c : Call) (r : MachineRecord) (created : Bool) (c' : Call) :
    Prop :=
  (c.operation.entry created = none ∧ c' = c.goto (.finished (.ok r)))
    ∨ ∃ kind words now, c.operation.entry created = some (kind, words)
        ∧ c' = c.goto (.recording r ⟨kind, words, now⟩)

/-- The call has written `r`: an allocation is to be published first. -/
def Wrote (c : Call) (r : MachineRecord) (created : Bool) (c' : Call) :
    Prop :=
  (∃ req, c.operation = .allocate req ∧ c' = c.goto (.publishing r))
    ∨ ((∀ req, c.operation ≠ .allocate req) ∧ Settles c r created c')

/-- An attempt failed: the call ends, after its last attempt if this one
lost to another writer, or pauses before the next one. -/
def FailedWith (c : Call) (e : StoreError) (c' : Call) : Prop :=
  (c' = c.fail (.ofStore e)
      ∧ (e.isConflict = true → c.retry.budget ≤ c.pacing.attempts))
    ∨ (e.isConflict = true ∧ c.pacing.attempts < c.retry.budget
        ∧ ∃ d p, p.attempts = c.pacing.attempts + 1
          ∧ c' = { c with pacing := p, stage := .pausing d })

/-- The write that a lifecycle call is about to attempt. -/
def lifecycleWrite? (c : Call) : Option Write :=
  match c.stage with
  | .creating r => some (.create r)
  | .writing old next => some (.update old next)
  | _ => none

/-- Does the write create the record? -/
def Write.isCreate : Write → Bool
  | .create _ => true
  | .update _ _ => false

-- ==================================================== the cases

/-- What a step of a lifecycle call can be: the choice it takes, the
call after it, and the fleet after it. -/
inductive LifecycleStep (f : Fleet) (c : Call) :
    Choice → Call → Fleet → Prop
  /-- The record was read, and the change to it is to be written. -/
  | prepared {t v x a} (hs : c.stage = .reading)
      (hv : f.stored c.machine = some v)
      (hx : c.operation.change v.record f.ambient = (.ok (some x), a)) :
      LifecycleStep f c (.serve t)
        (c.goto (.writing v { x with changedAt := a.now.1 }))
        { f with ambient := a.now.2 }
  /-- The record is as it should be already. -/
  | kept {t v a c' g} (hs : c.stage = .reading)
      (hv : f.stored c.machine = some v)
      (hx : c.operation.change v.record f.ambient = (.ok none, a))
      (hc : Settles c v.record false c') (hg : Still f g) :
      LifecycleStep f c (.serve t) c' g
  /-- The record does not allow the operation. -/
  | rejected {t v e a g} (hs : c.stage = .reading)
      (hv : f.stored c.machine = some v)
      (hx : c.operation.change v.record f.ambient = (.error e, a))
      (hg : Still f g) :
      LifecycleStep f c (.serve t) (c.fail e) g
  /-- A registration takes the machine for a new one. -/
  | unknown {ch req id} (hs : c.stage = .reading)
      (hop : c.operation = .register req)
      (he : ch = .refuse (.notFound id)
        ∨ ((∃ t, ch = .serve t)
          ∧ f.store.find c.machine = .error (.notFound id))) :
      LifecycleStep f c ch
        (c.goto (.creating
          (Operation.created req c.machine f.ambient.now.1)))
        { f with ambient := f.ambient.now.2 }
  /-- The record could not be read. -/
  | unread {ch e c' g} (hs : c.stage = .reading)
      (he : ch = .refuse e
        ∨ ((∃ t, ch = .serve t) ∧ f.store.find c.machine = .error e))
      (hc : FailedWith c e c') (hg : Still f g) :
      LifecycleStep f c ch c' g
  /-- The write was taken. -/
  | wrote {t w c' g} (hw : lifecycleWrite? c = some w)
      (hon : f.store.offline = false) (hfit : w.Fits f.store)
      (hc : Wrote c w.record w.isCreate c')
      (hg : Still { f with store := w.apply f.store } g) :
      LifecycleStep f c (.serve t) c' g
  /-- The write was not taken. -/
  | unwritten {ch w e c' g} (hw : lifecycleWrite? c = some w)
      (he : ch = .refuse e
        ∨ ((∃ t, ch = .serve t) ∧ (w.run f.store).1 = .error e))
      (hc : FailedWith c e c') (hg : Still f g) :
      LifecycleStep f c ch c' g
  /-- What became of the write is not known. -/
  | lost {w e c' g} (hw : lifecycleWrite? c = some w)
      (hc : FailedWith c e c')
      (hg : Still { f with store := (w.run f.store).2 } g) :
      LifecycleStep f c (.lose e) c' g
  /-- The pause before another attempt is over. -/
  | resumed {t d g} (hs : c.stage = .pausing d) (hg : Still f g) :
      LifecycleStep f c (.serve t) (c.goto .reading) g
  /-- The allocation was published, or was not. -/
  | published {ch sent r c' g} (hs : c.stage = .publishing r)
      (hch : (∃ t, ch = .serve t ∧ sent = true)
        ∨ ∃ e, ch = .garble sent e)
      (hc : Settles c r false c')
      (hg : Still (if sent then
          f.post c.topic (Notifier.payload c.machine) else f) g) :
      LifecycleStep f c ch c' g
  /-- The entry was added to the history, or was not. -/
  | recorded {ch r event g} (added : Bool) (hs : c.stage = .recording r event)
      (hch : (∃ t, ch = .serve t ∧ added = true)
        ∨ (∃ e, ch = .refuse e ∧ added = false)
        ∨ ∃ e, ch = .lose e ∧ added = true)
      (hg : Still (if added then
          { f with events := f.events.append c.machine event }
        else f) g) :
      LifecycleStep f c ch (c.goto (.finished (.ok r))) g

-- =============================================== the parts of a call

theorem settles_record (c : Call) (r : MachineRecord) (created : Bool)
    (l : Local) : Settles c r created (c.record r created l).1 := by
  unfold Call.record
  split
  · rename_i kind words h
    exact Or.inr ⟨kind, words, _, h, rfl⟩
  · rename_i h
    exact Or.inl ⟨h, rfl⟩

theorem quiet_record (c : Call) (r : MachineRecord) (created : Bool) :
    Quiet (c.record r created) := by
  intro l
  unfold Call.record
  split
  · exact ⟨rfl, l.ambient.clock_le_now⟩
  · exact ⟨rfl, le_refl _⟩

theorem wrote_written (c : Call) (r : MachineRecord) (created : Bool)
    (l : Local) : Wrote c r created (c.written r created l).1 := by
  unfold Call.written
  split
  · rename_i req h
    refine Or.inr ⟨?_, settles_record c r created _⟩
    intro req' h'
    rw [h] at h'
    cases h'
  · rename_i req h
    exact Or.inl ⟨req, h, rfl⟩
  · rename_i hreg hall
    exact Or.inr ⟨hall, settles_record c r created _⟩

theorem quiet_written (c : Call) (r : MachineRecord) (created : Bool) :
    Quiet (c.written r created) := by
  intro l
  unfold Call.written
  split
  · exact quiet_record c r created (l.say _)
  · exact ⟨rfl, le_refl _⟩
  · exact quiet_record c r created l

/-- Another attempt is granted while the budget lasts, and counted. -/
theorem again_cases (op : String) (s : RetrySettings) (p : Pacing)
    (a : Ambient) :
    (p.again op s a = none ∧ s.budget ≤ p.attempts)
      ∨ ∃ d p' a', p.again op s a = some (d, p', a')
        ∧ p.attempts < s.budget ∧ p'.attempts = p.attempts + 1
        ∧ a'.clock = a.clock := by
  by_cases hb : p.attempts < s.budget
  · have h : p.next s a.chance.1
        = some (s.spread a.chance.1 p.interval,
          ⟨p.attempts + 1, s.grow p.interval⟩) := if_pos hb
    unfold Pacing.again
    simp only [h]
    exact Or.inr ⟨_, _, _, rfl, hb, rfl, rfl⟩
  · have h : p.next s a.chance.1 = none := if_neg hb
    unfold Pacing.again
    simp only [h]
    exact Or.inl ⟨trivial, Nat.le_of_not_lt hb⟩

theorem failed_attemptFailed (c : Call) (e : StoreError) (l : Local) :
    FailedWith c e (c.attemptFailed e l).1 := by
  unfold Call.attemptFailed
  split
  · rename_i he
    rcases again_cases c.operation.name c.retry c.pacing l.ambient with
      ⟨h, hb⟩ | ⟨d, p, a, h, hb, hp, -⟩
    · rw [h]
      exact Or.inl ⟨rfl, fun _ => hb⟩
    · rw [h]
      exact Or.inr ⟨he, hb, d, p, hp, rfl⟩
  · rename_i he
    exact Or.inl ⟨rfl, fun h => absurd h he⟩

theorem quiet_attemptFailed (c : Call) (e : StoreError) :
    Quiet (c.attemptFailed e) := by
  intro l
  unfold Call.attemptFailed
  split
  · rcases again_cases c.operation.name c.retry c.pacing l.ambient with
      ⟨h, -⟩ | ⟨d, p, a, h, -, -, ha⟩
    · rw [h]
      exact ⟨rfl, le_refl _⟩
    · rw [h]
      exact ⟨rfl, le_of_eq ha.symm⟩
  · exact ⟨rfl, le_refl _⟩

theorem settles_published (c : Call) (r : MachineRecord)
    (answer : Except BusError Unit) (l : Local) :
    Settles c r false (c.published r answer l).1 := by
  unfold Call.published
  split
  · exact settles_record c r false _
  · exact settles_record c r false _

theorem quiet_published (c : Call) (r : MachineRecord)
    (answer : Except BusError Unit) : Quiet (c.published r answer) := by
  intro l
  have hn : (Notifier.published c.machine c.topic answer l).registry
        = l.registry
      ∧ (Notifier.published c.machine c.topic answer l).ambient.clock
        = l.ambient.clock := by
    unfold Notifier.published
    split
    · exact ⟨rfl, rfl⟩
    · exact ⟨rfl, rfl⟩
  unfold Call.published
  split
  · obtain ⟨hr, hc⟩ := quiet_record c r false
      ((Notifier.published c.machine c.topic answer l).say _)
    exact ⟨hr.trans hn.1, hn.2 ▸ hc⟩
  · obtain ⟨hr, hc⟩ := quiet_record c r false
      (Notifier.published c.machine c.topic answer l)
    exact ⟨hr.trans hn.1, hn.2 ▸ hc⟩

theorem recorded_fst (c : Call) (r : MachineRecord) (kind : EventKind)
    (answer : Except StoreError Unit) (l : Local) :
    (c.recorded r kind answer l).1 = c.goto (.finished (.ok r)) := by
  unfold Call.recorded
  split
  · rfl
  · rfl

theorem quiet_recorded (c : Call) (r : MachineRecord) (kind : EventKind)
    (answer : Except StoreError Unit) :
    Quiet (c.recorded r kind answer) := by
  intro l
  unfold Call.recorded
  split
  · exact ⟨rfl, le_refl _⟩
  · exact ⟨rfl, le_refl _⟩

/-- A change reads the clock at most once and touches nothing else. -/
theorem change_clock (op : Operation) (r : MachineRecord) (a : Ambient) :
    a.clock ≤ (op.change r a).2.clock := by
  cases op with
  | register req => exact le_refl _
  | attach connections =>
      simp only [Operation.change]
      split <;> exact le_refl _
  | allocate req =>
      simp only [Operation.change]
      split
      · exact le_refl _
      · exact a.clock_le_now
  | assignVrf vrf =>
      simp only [Operation.change]
      split
      · exact le_refl _
      · split <;> exact le_refl _
  | report req =>
      simp only [Operation.change]
      split <;> exact le_refl _
  | abortReinstall diskWiped =>
      simp only [Operation.change]
      split
      · split <;> exact le_refl _
      · exact le_refl _

-- ====================================================== the inversion

/-- The step after the record was found. -/
theorem step_found {t : Moment} {v : Versioned} {g : Fleet}
    (hs : c.stage = .reading) (hv : f.stored c.machine = some v)
    (h : f.move i (c.found v) = (c', g)) :
    LifecycleStep f c (.serve t) c' g := by
  have hclock := change_clock c.operation v.record f.ambient
  cases hx : c.operation.change v.record f.ambient with
  | mk answer a =>
      rw [hx] at hclock
      unfold move at h
      simp only [Call.found, hx] at h
      cases answer with
      | error e =>
          simp only [Function.update_eq_self] at h
          cases h
          exact .rejected hs hv hx ⟨a, hclock, rfl⟩
      | ok change =>
          cases change with
          | none =>
              simp only at h
              have hq := quiet_record c v.record false
                (Local.say ⟨f.registries i, a⟩
                  (.nothingToWrite c.machine c.operation.name))
              have hc := settles_record c v.record false
                (Local.say ⟨f.registries i, a⟩
                  (.nothingToWrite c.machine c.operation.name))
              rw [hq.1] at h
              simp only [Local.say, Function.update_eq_self] at h
              cases h
              exact .kept hs hv hx hc ⟨_, le_trans hclock hq.2, rfl⟩
          | some x =>
              simp only [Local.now, Function.update_eq_self] at h
              cases h
              exact .prepared hs hv hx

/-- The step after the record was missed. -/
theorem step_missed {e : StoreError} {g : Fleet}
    (hs : c.stage = .reading)
    (he : ch = .refuse e
      ∨ ((∃ t, ch = .serve t) ∧ f.store.find c.machine = .error e))
    (h : f.move i (c.missed e) = (c', g)) :
    LifecycleStep f c ch c' g := by
  by_cases hreg : ∃ req id, c.operation = .register req ∧ e = .notFound id
  · obtain ⟨req, id, hop, rfl⟩ := hreg
    unfold move at h
    simp only [Call.missed, hop, Local.now, Function.update_eq_self] at h
    cases h
    exact .unknown hs hop he
  · have hm : c.missed e = c.attemptFailed e := by
      funext l
      unfold Call.missed
      split
      · rename_i req id hop
        exact absurd ⟨req, id, hop, rfl⟩ hreg
      · rfl
    rw [hm, move_of_quiet (quiet_attemptFailed c e)] at h
    cases h
    exact .unread hs he (failed_attemptFailed c e _)
      ⟨_, (quiet_attemptFailed c e _).2, rfl⟩

/-- The step after an attempt to write was answered. -/
theorem step_answered {t : Moment} {w : Write} {created : Bool}
    {g : Fleet} (hw : lifecycleWrite? c = some w)
    (hcr : w.isCreate = created)
    (h : ({ f with store := (w.run f.store).2 }).move i
        (match (w.run f.store).1 with
          | .ok v => c.written v.record created
          | .error e => c.attemptFailed e) = (c', g)) :
    LifecycleStep f c (.serve t) c' g := by
  subst hcr
  cases hr : w.run f.store with
  | mk answer s =>
      rw [hr] at h
      cases answer with
      | error e =>
          simp only [Write.run_error hr] at h
          rw [move_of_quiet (quiet_attemptFailed c e)] at h
          cases h
          exact .unwritten hw (Or.inr ⟨⟨t, rfl⟩, by rw [hr]⟩)
            (failed_attemptFailed c e _)
            ⟨_, (quiet_attemptFailed c e _).2, rfl⟩
      | ok v =>
          obtain ⟨hon, hfit, rfl, rfl⟩ := Write.run_ok hr
          simp only at h
          rw [move_of_quiet (quiet_written c _ _)] at h
          cases h
          exact .wrote hw hon hfit (wrote_written c _ _ _)
            ⟨_, (quiet_written c _ _ _).2, rfl⟩

/-- The step after an attempt to write was refused, or its answer was
lost. -/
theorem step_unanswered {w : Write} {e : StoreError} {g : Fleet}
    (hw : lifecycleWrite? c = some w)
    (h : (ch = .refuse e ∧ f.move i (c.attemptFailed e) = (c', g))
      ∨ (ch = .lose e ∧ ({ f with store := (w.run f.store).2 }).move i
          (c.attemptFailed e) = (c', g))) :
    LifecycleStep f c ch c' g := by
  rcases h with ⟨rfl, h⟩ | ⟨rfl, h⟩
  · rw [move_of_quiet (quiet_attemptFailed c e)] at h
    cases h
    exact .unwritten hw (Or.inl rfl) (failed_attemptFailed c e _)
      ⟨_, (quiet_attemptFailed c e _).2, rfl⟩
  · rw [move_of_quiet (quiet_attemptFailed c e)] at h
    cases h
    exact .lost hw (failed_attemptFailed c e _)
      ⟨_, (quiet_attemptFailed c e _).2, rfl⟩

/-- Every step of a lifecycle call is one of the cases. -/
theorem lifecycle_step {g : Fleet}
    (h : f.meet i ch c.demand = some (c', g)) :
    LifecycleStep f c ch c' g := by
  unfold Call.demand at h
  cases hs : c.stage with
  | reading =>
      simp only [hs] at h
      cases ch with
      | serve t =>
          have h := Option.some.inj h
          rcases f.store.find_cases c.machine with ⟨v, hv, hf⟩ | ⟨e, hf⟩
          · rw [hf] at h
            exact step_found hs hv h
          · rw [hf] at h
            exact step_missed hs (Or.inr ⟨⟨t, rfl⟩, hf⟩) h
      | refuse e => exact step_missed hs (Or.inl rfl) (Option.some.inj h)
      | _ => cases h
  | creating r =>
      have hw : lifecycleWrite? c = some (.create r) := by
        unfold lifecycleWrite?
        rw [hs]
      simp only [hs] at h
      cases ch with
      | serve t => exact step_answered hw rfl (Option.some.inj h)
      | refuse e =>
          exact step_unanswered hw (Or.inl ⟨rfl, Option.some.inj h⟩)
      | lose e =>
          exact step_unanswered hw (Or.inr ⟨rfl, Option.some.inj h⟩)
      | _ => cases h
  | writing old next =>
      have hw : lifecycleWrite? c = some (.update old next) := by
        unfold lifecycleWrite?
        rw [hs]
      simp only [hs] at h
      cases ch with
      | serve t => exact step_answered hw rfl (Option.some.inj h)
      | refuse e =>
          exact step_unanswered hw (Or.inl ⟨rfl, Option.some.inj h⟩)
      | lose e =>
          exact step_unanswered hw (Or.inr ⟨rfl, Option.some.inj h⟩)
      | _ => cases h
  | pausing d =>
      simp only [hs] at h
      cases ch with
      | serve t =>
          have h := Option.some.inj h
          rw [move_of_quiet (quiet_pure _)] at h
          cases h
          exact .resumed hs (Still.refl f)
      | _ => cases h
  | publishing r =>
      simp only [hs] at h
      cases ch with
      | serve t =>
          have h := Option.some.inj h
          rw [move_of_quiet (quiet_published c r (.ok ()))] at h
          cases h
          exact .published hs (Or.inl ⟨t, rfl, rfl⟩)
            (settles_published c r _ _)
            ⟨_, (quiet_published c r _ _).2, rfl⟩
      | garble sent e =>
          have h := Option.some.inj h
          rw [move_of_quiet (quiet_published c r (.error e))] at h
          cases h
          exact .published hs (Or.inr ⟨e, rfl⟩)
            (settles_published c r _ _)
            ⟨_, (quiet_published c r _ _).2, rfl⟩
      | _ => cases h
  | recording r event =>
      simp only [hs] at h
      cases ch with
      | serve t =>
          have h := Option.some.inj h
          rw [move_of_quiet (quiet_recorded c r event.kind (.ok ())),
            recorded_fst] at h
          cases h
          exact .recorded true hs (Or.inl ⟨t, rfl, rfl⟩)
            ⟨_, (quiet_recorded c r _ _ _).2, rfl⟩
      | refuse e =>
          have h := Option.some.inj h
          rw [move_of_quiet (quiet_recorded c r event.kind (.error e)),
            recorded_fst] at h
          cases h
          exact .recorded false hs
            (Or.inr (Or.inl ⟨e, rfl, rfl⟩))
            ⟨_, (quiet_recorded c r event.kind (.error e) _).2, rfl⟩
      | lose e =>
          have h := Option.some.inj h
          rw [move_of_quiet (quiet_recorded c r event.kind (.error e)),
            recorded_fst] at h
          cases h
          exact .recorded true hs
            (Or.inr (Or.inr ⟨e, rfl, rfl⟩))
            ⟨_, (quiet_recorded c r _ _ _).2, rfl⟩
      | _ => cases h
  | finished result =>
      simp only [hs] at h
      cases ch <;> cases h

-- ===================================================== behind the write

/-- The record that a call is going to return, once it has it. -/
def result? (c : Call) : Option MachineRecord :=
  match c.stage with
  | .publishing x | .recording x _ | .finished (.ok x) => some x
  | _ => none

theorem Settles.result {x : MachineRecord} {created : Bool}
    (h : Settles c x created c') :
    result? c' = some x ∧ c'.machine = c.machine
      ∧ c'.operation = c.operation := by
  rcases h with ⟨-, rfl⟩ | ⟨_, _, _, -, rfl⟩
  · exact ⟨rfl, rfl, rfl⟩
  · exact ⟨rfl, rfl, rfl⟩

theorem FailedWith.result {e : StoreError} (h : FailedWith c e c') :
    result? c' = none := by
  rcases h with ⟨rfl, -⟩ | ⟨-, -, _, _, -, rfl⟩ <;> rfl

/-- A call that has its record announces it and enters it, and does
nothing else. -/
theorem LifecycleStep.behind {x : MachineRecord} {g : Fleet}
    (h : LifecycleStep f c ch c' g) (hr : result? c = some x) :
    (c.stage = .publishing x ∧ Settles c x false c')
      ∨ ∃ event, c.stage = .recording x event
          ∧ c' = c.goto (.finished (.ok x)) := by
  have hreading : c.stage ≠ .reading := by
    intro hs
    rw [result?, hs] at hr
    cases hr
  have hwrite : ∀ w, lifecycleWrite? c ≠ some w := by
    intro w hw
    unfold lifecycleWrite? at hw
    unfold result? at hr
    cases hs : c.stage with
    | creating => rw [hs] at hr; cases hr
    | writing => rw [hs] at hr; cases hr
    | _ => rw [hs] at hw; cases hw
  cases h with
  | published hs hch hc =>
      rw [result?, hs] at hr
      cases hr
      exact Or.inl ⟨hs, hc⟩
  | recorded added hs =>
      rw [result?, hs] at hr
      cases hr
      exact Or.inr ⟨_, hs, rfl⟩
  | resumed hs =>
      rw [result?, hs] at hr
      cases hr
  | prepared hs => exact absurd hs hreading
  | kept hs => exact absurd hs hreading
  | rejected hs => exact absurd hs hreading
  | unknown hs => exact absurd hs hreading
  | unread hs => exact absurd hs hreading
  | wrote hw => exact absurd hw (hwrite _)
  | unwritten hw => exact absurd hw (hwrite _)
  | lost hw => exact absurd hw (hwrite _)

end ControlPlane.Fleet
