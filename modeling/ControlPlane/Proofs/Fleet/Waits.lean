/-
What one step of a wait call can be: `lifecycle_step`'s sibling. Beside
the store a wait call has one more thing to change, the signals of its
replica, and it changes them in two ways only: it registers once, on
entering (`entered`), and it lets go once, on leaving, whether it saw
the allocation (`saw`) or not (`left`).

The many ways of staying blocked are one case (`stays`): whatever the
call does while it holds its signal, it keeps the machine and the
generation of its registration.

Chain: Calls.lean's counterpart over Signals.lean.
-/
import ControlPlane.Proofs.Fleet.Calls
import ControlPlane.Proofs.Signals

namespace ControlPlane.Fleet

open Wait (Call)

variable {f : Fleet} {i : Nat} {ch : Choice} {c c' : Call}

-- ======================================================= moves, again

/-- What a step on a replica leaves: the replica's signals as the step
left them, and nothing else but the log and the clock. -/
theorem still_of_registry {κ : Type} {k : Move κ} {r : Registry}
    (hr : (k ⟨f.registries i, f.ambient⟩).2.registry = r)
    (hc : f.ambient.clock
      ≤ (k ⟨f.registries i, f.ambient⟩).2.ambient.clock) :
    Still (f.setRegistry i r) (f.move i k).2 := by
  subst hr
  exact ⟨_, hc, rfl⟩

/-- A quiet step, with what the call becomes. -/
theorem move_quiet_eq {κ : Type} {k : Move κ} {x : κ} {g : Fleet}
    (hk : Quiet k) (h : f.move i k = (x, g)) :
    x = (k ⟨f.registries i, f.ambient⟩).1 ∧ Still f g := by
  have hg := still_of_quiet (f := f) (i := i) hk
  rw [h] at hg
  exact ⟨(congrArg Prod.fst h).symm, hg⟩

-- ===================================================== the cases

/-- An attempt to clear the flag failed: the call is over, after its
last attempt if this one lost to another writer, or pauses before the
next one. -/
def ClearFailed (c : Call) (p : Pacing) (e : StoreError) (c' : Call) :
    Prop :=
  (c' = c.cleared
      ∧ (e.isConflict = true → c.retry.budget ≤ p.attempts))
    ∨ (e.isConflict = true ∧ p.attempts < c.retry.budget
        ∧ ∃ d p', p'.attempts = p.attempts + 1
          ∧ c' = c.goto (.clearing p' (.pausing d)))

/-- A call that fails to clear its flag neither registers nor holds a
signal. -/
theorem ClearFailed.away {p : Pacing} {e : StoreError}
    (h : ClearFailed c p e c') :
    c'.stage ≠ .entering ∧ c'.stage.block? = none := by
  rcases h with ⟨rfl, -⟩ | ⟨-, -, d, p', -, rfl⟩
  · exact ⟨(fun hs => by cases hs), rfl⟩
  · exact ⟨(fun hs => by cases hs), rfl⟩

/-- What a step of a wait call on replica `i` can be. -/
inductive WaitStep (f : Fleet) (i : Nat) (c : Call) :
    Choice → Call → Fleet → Prop
  | opened {t g} (hs : c.stage = .opening) (hg : Still f g) :
      WaitStep f i c (.serve t) (c.goto .reading) g
  /-- The machine was allocated before. -/
  | already {t v g} (hs : c.stage = .reading)
      (hv : f.stored c.machine = some v)
      (ha : v.record.isAllocated = true) (hg : Still f g) :
      WaitStep f i c (.serve t) (c.close (.ok .alreadyAllocated)) g
  /-- The flag is to be set. -/
  | prepared {t v} (hs : c.stage = .reading)
      (hv : f.stored c.machine = some v)
      (ha : v.record.isAllocated = false) :
      WaitStep f i c (.serve t)
        (c.goto (.marking v { v.record with
          waiting := true, changedAt := f.ambient.now.1 }))
        { f with ambient := f.ambient.now.2 }
  | unread {ch e g} (hs : c.stage = .reading)
      (he : ch = .refuse e
        ∨ ((∃ t, ch = .serve t) ∧ f.store.find c.machine = .error e))
      (hg : Still f g) :
      WaitStep f i c ch (c.close (.error (.ofStore e))) g
  /-- The flag was set. -/
  | marked {t old next g} (hs : c.stage = .marking old next)
      (hon : f.store.offline = false)
      (hfit : (Write.update old next).Fits f.store)
      (hg : Still
        { f with store := (Write.update old next).apply f.store } g) :
      WaitStep f i c (.serve t) (c.goto .entering) g
  | unmarked {ch e old next g} (hs : c.stage = .marking old next)
      (he : ch = .refuse e
        ∨ ((∃ t, ch = .serve t)
          ∧ ((Write.update old next).run f.store).1 = .error e))
      (hg : Still f g) :
      WaitStep f i c ch (c.close (.error (.ofStore e))) g
  /-- Whether the flag was set is not known. -/
  | markLost {e old next g} (hs : c.stage = .marking old next)
      (hg : Still
        { f with store := ((Write.update old next).run f.store).2 } g) :
      WaitStep f i c (.lose e) (c.close (.error (.ofStore e))) g
  /-- The call holds a signal now. -/
  | entered {t reg r g} (hs : c.stage = .entering)
      (hr : (f.registries i).register c.machine = (.ok reg, r))
      (hg : Still (f.setRegistry i r) g) :
      WaitStep f i c (.serve t)
        (c.goto (.blocked
          ⟨reg, t + c.settings.responseInterval.nanos, t, false⟩)) g
  /-- The signal was closed under another holder. -/
  | barred {t e g} (hs : c.stage = .entering)
      (hr : (f.registries i).register c.machine
        = (.error e, f.registries i))
      (hg : Still f g) :
      WaitStep f i c (.serve t) (c.close (.error (.ofRegistry e))) g
  /-- The call goes on holding its signal. -/
  | stays {ch b s b' g} (hs : c.stage.block? = some b)
      (hb : s.block? = some b')
      (hm : b'.registration.machine = b.registration.machine)
      (hn : b'.registration.generation = b.registration.generation)
      (hg : Still f g) :
      WaitStep f i c ch (c.goto s) g
  /-- The call saw the allocation and lets go. -/
  | saw {ch b g} (hs : c.stage.block? = some b)
      (how : (∃ reg, (f.registries i).woken b.registration
          = some (.allocated, reg))
        ∨ f.Allocated c.machine)
      (hg : Still (f.setRegistry i
        ((f.registries i).release b.registration)) g) :
      WaitStep f i c ch (c.goto (.clearing (.start c.retry) .reading)) g
  /-- The call lets go without having seen an allocation. -/
  | left {ch b e g} (hs : c.stage.block? = some b)
      (hg : Still (f.setRegistry i
        ((f.registries i).release b.registration)) g)
      (how : (∃ x, e = .ofStore x) ∨ (∃ cause, e = .cancelled cause)
        ∨ ch = .stall e) :
      WaitStep f i c ch (c.close (.error e)) g
  /-- The flag is to be cleared. -/
  | clearPrepared {t p v} (hs : c.stage = .clearing p .reading)
      (hv : f.stored c.machine = some v)
      (hw : v.record.waiting = true) :
      WaitStep f i c (.serve t)
        (c.goto (.clearing p (.writing v { v.record with
          waiting := false, changedAt := f.ambient.now.1 })))
        { f with ambient := f.ambient.now.2 }
  | clearKept {t p v g} (hs : c.stage = .clearing p .reading)
      (hv : f.stored c.machine = some v)
      (hw : v.record.waiting = false) (hg : Still f g) :
      WaitStep f i c (.serve t) c.cleared g
  /-- The flag was cleared. -/
  | cleared {t p old next g}
      (hs : c.stage = .clearing p (.writing old next))
      (hon : f.store.offline = false)
      (hfit : (Write.update old next).Fits f.store)
      (hg : Still
        { f with store := (Write.update old next).apply f.store } g) :
      WaitStep f i c (.serve t) c.cleared g
  | clearUnread {ch p e c' g} (hs : c.stage = .clearing p .reading)
      (he : ch = .refuse e
        ∨ ((∃ t, ch = .serve t) ∧ f.store.find c.machine = .error e))
      (hc : ClearFailed c p e c') (hg : Still f g) :
      WaitStep f i c ch c' g
  | unclear {ch p old next e c' g}
      (hs : c.stage = .clearing p (.writing old next))
      (he : ch = .refuse e
        ∨ ((∃ t, ch = .serve t)
          ∧ ((Write.update old next).run f.store).1 = .error e))
      (hc : ClearFailed c p e c') (hg : Still f g) :
      WaitStep f i c ch c' g
  /-- Whether the flag was cleared is not known. -/
  | clearLost {p old next e c' g}
      (hs : c.stage = .clearing p (.writing old next))
      (hc : ClearFailed c p e c')
      (hg : Still
        { f with store := ((Write.update old next).run f.store).2 } g) :
      WaitStep f i c (.lose e) c' g
  | clearResumed {t p d g} (hs : c.stage = .clearing p (.pausing d))
      (hg : Still f g) :
      WaitStep f i c (.serve t) (c.goto (.clearing p .reading)) g
  /-- The call says how it ended. -/
  | said {t result g} (hs : c.stage = .closing result)
      (hg : Still f g) :
      WaitStep f i c (.serve t) (c.goto (.ended result)) g

-- =============================================== the parts of a call

theorem quiet_report (c : Call)
    (result : Except WaitError Wait.Outcome) (s : Wait.Stage) :
    Quiet fun l => (c.goto s, c.report result l) := by
  intro l
  simp only [Call.report]
  split <;> exact ⟨rfl, le_refl _⟩

theorem clearFailed_fst (c : Call) (p : Pacing) (e : StoreError)
    (l : Local) : ClearFailed c p e (c.clearFailed p e l).1 := by
  unfold Call.clearFailed
  split
  · rename_i he
    rcases again_cases "clear_waiting" c.retry p l.ambient with
      ⟨h, hb⟩ | ⟨d, p', a, h, hb, hp, -⟩
    · rw [h]
      exact Or.inl ⟨rfl, fun _ => hb⟩
    · rw [h]
      exact Or.inr ⟨he, hb, d, p', hp, rfl⟩
  · rename_i he
    exact Or.inl ⟨rfl, fun h => absurd h he⟩

theorem quiet_clearFailed (c : Call) (p : Pacing) (e : StoreError) :
    Quiet (c.clearFailed p e) := by
  intro l
  unfold Call.clearFailed
  split
  · rcases again_cases "clear_waiting" c.retry p l.ambient with
      ⟨h, -⟩ | ⟨d, p', a, h, -, -, ha⟩
    · rw [h]
      exact ⟨rfl, le_refl _⟩
    · rw [h]
      exact ⟨rfl, le_of_eq ha.symm⟩
  · exact ⟨rfl, le_refl _⟩

/-- A blocked call lets go with an error. -/
theorem step_leave {b : Wait.Block} {e : WaitError} {g : Fleet}
    (hs : c.stage.block? = some b)
    (how : (∃ x, e = .ofStore x) ∨ (∃ cause, e = .cancelled cause)
      ∨ ch = .stall e)
    (h : f.move i (c.leave b e) = (c', g)) :
    WaitStep f i c ch c' g := by
  have hg := still_of_registry (f := f) (i := i) (k := c.leave b e)
    rfl (le_refl _)
  rw [h] at hg
  cases (congrArg Prod.fst h).symm
  exact .left hs hg how

/-- A blocked call that saw the allocation lets go. -/
theorem step_succeed {b : Wait.Block} {l : Local → Local} {g : Fleet}
    (hs : c.stage.block? = some b)
    (hl : ∀ x, (l x).registry = x.registry
      ∧ (l x).ambient.clock = x.ambient.clock)
    (how : (∃ reg, (f.registries i).woken b.registration
        = some (.allocated, reg))
      ∨ f.Allocated c.machine)
    (h : f.move i (fun x => c.succeed b (l x)) = (c', g)) :
    WaitStep f i c ch c' g := by
  have hg := still_of_registry (f := f) (i := i)
    (k := fun x => c.succeed b (l x))
    (r := (f.registries i).release b.registration)
    (by
      show (l _).registry.release b.registration = _
      rw [(hl _).1])
    (le_of_eq (hl ⟨f.registries i, f.ambient⟩).2.symm)
  rw [h] at hg
  cases (congrArg Prod.fst h).symm
  exact .saw hs how hg

/-- A look into the store decides whether a blocked call goes on. -/
theorem step_looked {b : Wait.Block} {s : Wait.Stage} {t : Moment}
    {k : Except StoreError Versioned → Move Call} {l : Local → Local}
    {g : Fleet} (hs : c.stage.block? = some b) (hb : s.block? = some b)
    (hl : ∀ x, (l x).registry = x.registry
      ∧ (l x).ambient.clock = x.ambient.clock)
    (hk : ∀ answer, k answer = fun x => match answer with
      | .error e => c.leave b (.ofStore e) x
      | .ok v => if v.record.isAllocated then c.succeed b (l x)
          else (c.goto s, x))
    (h : (ch = .serve t ∧ f.move i (k (f.store.find c.machine)) = (c', g))
      ∨ ∃ e, ch = .refuse e ∧ f.move i (k (.error e)) = (c', g)) :
    WaitStep f i c ch c' g := by
  rcases h with ⟨rfl, h⟩ | ⟨e, rfl, h⟩
  · rcases f.store.find_cases c.machine with ⟨v, hv, hf⟩ | ⟨e, hf⟩
    · rw [hf, hk] at h
      by_cases ha : v.record.isAllocated = true
      · simp only [if_pos ha] at h
        exact step_succeed hs hl (Or.inr ⟨v, hv, ha⟩) h
      · simp only [if_neg ha] at h
        obtain ⟨rfl, hg⟩ := move_quiet_eq (quiet_pure _) h
        exact .stays hs hb rfl rfl hg
    · rw [hf, hk] at h
      exact step_leave hs (Or.inl ⟨e, rfl⟩) h
  · rw [hk] at h
    exact step_leave hs (Or.inl ⟨e, rfl⟩) h

/-- A blocked call sees its signal. -/
theorem step_woken {b : Wait.Block} {t : Moment} {wake : Wake}
    {reg : Registration} {g : Fleet} (hs : c.stage = .blocked b)
    (hr : (f.registries i).woken b.registration = some (wake, reg))
    (h : f.move i (c.woken b wake reg t) = (c', g)) :
    WaitStep f i c ch c' g := by
  have hblock : c.stage.block? = some b := by rw [hs]; rfl
  have hreg : reg.machine = b.registration.machine
      ∧ reg.generation = b.registration.generation := by
    simp only [Registry.woken] at hr
    split at hr
    · cases hr
    · cases hr
      exact ⟨rfl, rfl⟩
  cases wake with
  | allocated =>
      have hg := still_of_registry (f := f) (i := i)
        (k := c.woken b .allocated reg t)
        (r := (f.registries i).release b.registration)
        (by
          show (f.registries i).release reg = _
          unfold Registry.release
          rw [hreg.1, hreg.2])
        (le_refl _)
      rw [h] at hg
      cases (congrArg Prod.fst h).symm
      exact .saw hblock (Or.inl ⟨reg, hr⟩) hg
  | closed =>
      obtain ⟨rfl, hg⟩ := move_quiet_eq (quiet_say _ _) h
      exact .stays (s := .rechecking { b with
        registration := reg, lastCheck := t, deaf := true })
        hblock rfl hreg.1 hreg.2 hg
  | pending =>
      obtain ⟨rfl, hg⟩ := move_quiet_eq (quiet_say _ _) h
      exact .stays (s := .rechecking { b with
        registration := reg, lastCheck := t }) hblock rfl hreg.1 hreg.2 hg
  | recheck =>
      obtain ⟨rfl, hg⟩ := move_quiet_eq (quiet_say _ _) h
      exact .stays (s := .rechecking { b with
        registration := reg, lastCheck := t }) hblock rfl hreg.1 hreg.2 hg

/-- The tick of a blocked call comes. -/
theorem step_ticked {b : Wait.Block} {t : Moment} {g : Fleet}
    (hs : c.stage = .blocked b)
    (h : f.move i (c.ticked b t) = (c', g)) :
    WaitStep f i c ch c' g := by
  have hblock : c.stage.block? = some b := by rw [hs]; rfl
  have hq : Quiet (c.ticked b t) := by
    intro l
    simp only [Call.ticked]
    split <;> exact ⟨rfl, le_refl _⟩
  obtain ⟨rfl, hg⟩ := move_quiet_eq hq h
  simp only [Call.ticked]
  split
  · exact .stays hblock rfl rfl rfl hg
  · exact .stays hblock rfl rfl rfl hg

/-- Registering succeeds, or fails and changes nothing. -/
theorem step_enter {t : Moment} {g : Fleet} (hs : c.stage = .entering)
    (h : f.move i (c.enter t) = (c', g)) :
    WaitStep f i c (.serve t) c' g := by
  rcases (f.registries i).register_cases c.machine with
    ⟨-, -, -, -, hr⟩ | ⟨-, reg, r, -, -, -, hr, -⟩ | ⟨reg, r, -, hr, -⟩
  · have hq : (c.enter t ⟨f.registries i, f.ambient⟩)
        = (c.close (.error (.ofRegistry (.closed c.machine))),
          ⟨f.registries i, f.ambient⟩) := by
      simp only [Call.enter, Local.register, hr]
    unfold move at h
    simp only [hq, Function.update_eq_self] at h
    cases h
    exact .barred hs hr (Still.refl f)
  all_goals
    have hq : (c.enter t ⟨f.registries i, f.ambient⟩).1
          = c.goto (.blocked
            ⟨reg, t + c.settings.responseInterval.nanos, t, false⟩)
        ∧ (c.enter t ⟨f.registries i, f.ambient⟩).2.registry = r
        ∧ (c.enter t ⟨f.registries i, f.ambient⟩).2.ambient.clock
          = f.ambient.clock := by
      unfold Call.enter Local.register
      simp only [hr]
      exact ⟨trivial, rfl, rfl⟩
    have hg := still_of_registry (f := f) (i := i) hq.2.1
      (le_of_eq hq.2.2.symm)
    rw [h] at hg
    cases (congrArg Prod.fst h).symm.trans hq.1
    exact .entered hs hr hg

-- ====================================================== the inversion

/-- Marking is answered, refused, or its answer is lost. -/
theorem step_marking {old : Versioned} {next : MachineRecord} {g : Fleet}
    (hs : c.stage = .marking old next)
    (h : f.meet i ch (c.demand ch.now) = some (c', g)) :
    WaitStep f i c ch c' g := by
  simp only [Call.demand, hs] at h
  cases ch with
  | serve t =>
      have h := Option.some.inj h
      cases hr : (Write.update old next).run f.store with
      | mk answer s =>
          have hr' : f.store.update old next = (answer, s) := hr
          rw [hr'] at h
          cases answer with
          | error e =>
              obtain ⟨rfl, hg⟩ := move_quiet_eq (quiet_pure _) h
              rw [Write.run_error hr] at hg
              exact .unmarked hs (Or.inr ⟨⟨t, rfl⟩, by rw [hr]⟩) hg
          | ok v =>
              obtain ⟨rfl, hg⟩ := move_quiet_eq (quiet_pure _) h
              obtain ⟨hon, hfit, -, rfl⟩ := Write.run_ok hr
              exact .marked hs hon hfit hg
  | refuse e =>
      obtain ⟨rfl, hg⟩ := move_quiet_eq (quiet_pure _)
        (Option.some.inj h)
      exact .unmarked hs (Or.inl rfl) hg
  | lose e =>
      obtain ⟨rfl, hg⟩ := move_quiet_eq (quiet_pure _)
        (Option.some.inj h)
      exact .markLost hs hg
  | _ => cases h

/-- The steps of a call that clears its flag. -/
theorem step_clearing {p : Pacing} {s : Wait.Clearing} {g : Fleet}
    (hs : c.stage = .clearing p s)
    (h : f.meet i ch (c.demand ch.now) = some (c', g)) :
    WaitStep f i c ch c' g := by
  simp only [Call.demand, hs] at h
  cases s with
  | reading =>
      cases ch with
      | serve t =>
          have h := Option.some.inj h
          rcases f.store.find_cases c.machine with ⟨v, hv, hf⟩ | ⟨e, hf⟩
          · rw [hf] at h
            unfold move at h
            by_cases hw : v.record.waiting = true
            · simp only [Call.clearFound, if_pos hw, Local.now,
                Function.update_eq_self] at h
              cases h
              exact .clearPrepared hs hv hw
            · simp only [Call.clearFound, if_neg hw,
                Function.update_eq_self] at h
              cases h
              exact .clearKept hs hv (by simpa using hw) (Still.refl f)
          · rw [hf] at h
            obtain ⟨rfl, hg⟩ := move_quiet_eq (quiet_clearFailed c p e) h
            exact .clearUnread hs (Or.inr ⟨⟨t, rfl⟩, hf⟩)
              (clearFailed_fst c p e _) hg
      | refuse e =>
          obtain ⟨rfl, hg⟩ := move_quiet_eq (quiet_clearFailed c p e)
            (Option.some.inj h)
          exact .clearUnread hs (Or.inl rfl) (clearFailed_fst c p e _) hg
      | _ => cases h
  | writing old next =>
      cases ch with
      | serve t =>
          have h := Option.some.inj h
          cases hr : (Write.update old next).run f.store with
          | mk answer s =>
              have hr' : f.store.update old next = (answer, s) := hr
              rw [hr'] at h
              cases answer with
              | error e =>
                  obtain ⟨rfl, hg⟩ :=
                    move_quiet_eq (quiet_clearFailed c p e) h
                  rw [Write.run_error hr] at hg
                  exact .unclear hs (Or.inr ⟨⟨t, rfl⟩, by rw [hr]⟩)
                    (clearFailed_fst c p e _) hg
              | ok v =>
                  obtain ⟨rfl, hg⟩ := move_quiet_eq (quiet_pure _) h
                  obtain ⟨hon, hfit, -, rfl⟩ := Write.run_ok hr
                  exact .cleared hs hon hfit hg
      | refuse e =>
          obtain ⟨rfl, hg⟩ := move_quiet_eq (quiet_clearFailed c p e)
            (Option.some.inj h)
          exact .unclear hs (Or.inl rfl) (clearFailed_fst c p e _) hg
      | lose e =>
          obtain ⟨rfl, hg⟩ := move_quiet_eq (quiet_clearFailed c p e)
            (Option.some.inj h)
          exact .clearLost hs (clearFailed_fst c p e _) hg
      | _ => cases h
  | pausing d =>
      cases ch with
      | serve t =>
          obtain ⟨rfl, hg⟩ := move_quiet_eq (quiet_pure _)
            (Option.some.inj h)
          exact .clearResumed hs hg
      | _ => cases h

/-- The steps of a call that reads its record first. -/
theorem step_reading {g : Fleet} (hs : c.stage = .reading)
    (h : f.meet i ch (c.demand ch.now) = some (c', g)) :
    WaitStep f i c ch c' g := by
  simp only [Call.demand, hs] at h
  cases ch with
  | serve t =>
      have h := Option.some.inj h
      rcases f.store.find_cases c.machine with ⟨v, hv, hf⟩ | ⟨e, hf⟩
      · rw [hf] at h
        unfold move at h
        by_cases ha : v.record.isAllocated = true
        · simp only [Call.found, if_pos ha,
            Function.update_eq_self] at h
          cases h
          exact .already hs hv ha (Still.refl f)
        · simp only [Call.found, if_neg ha, Local.now,
            Function.update_eq_self] at h
          cases h
          exact .prepared hs hv (by simpa using ha)
      · rw [hf] at h
        obtain ⟨rfl, hg⟩ := move_quiet_eq (quiet_pure _) h
        exact .unread hs (Or.inr ⟨⟨t, rfl⟩, hf⟩) hg
  | refuse e =>
      obtain ⟨rfl, hg⟩ := move_quiet_eq (quiet_pure _)
        (Option.some.inj h)
      exact .unread hs (Or.inl rfl) hg
  | _ => cases h

/-- The steps of a call that listens to its signal. -/
theorem step_blocked {b : Wait.Block} {g : Fleet}
    (hs : c.stage = .blocked b)
    (h : f.meet i ch (c.demand ch.now) = some (c', g)) :
    WaitStep f i c ch c' g := by
  simp only [Call.demand, hs] at h
  cases ch with
  | cancel =>
      exact step_leave (by rw [hs]; rfl) (Or.inr (Or.inl ⟨_, rfl⟩))
        (Option.some.inj h)
  | wake t =>
      by_cases hd : b.deaf = true
      · simp [hd, meet] at h
      · simp only [if_neg hd, meet] at h
        split at h
        · rename_i wake reg hr
          exact step_woken hs hr (Option.some.inj h)
        · cases h
  | tick t =>
      simp only [meet] at h
      split at h
      · exact step_ticked hs (Option.some.inj h)
      · cases h
  | _ => cases h

/-- Every step of a wait call is one of the cases. -/
theorem wait_step {g : Fleet}
    (h : f.meet i ch (c.demand ch.now) = some (c', g)) :
    WaitStep f i c ch c' g := by
  cases hs : c.stage with
  | opening =>
      simp only [Call.demand, hs] at h
      cases ch with
      | serve t =>
          obtain ⟨rfl, hg⟩ := move_quiet_eq (quiet_say _ _)
            (Option.some.inj h)
          exact .opened hs hg
      | _ => cases h
  | reading => exact step_reading hs h
  | marking old next => exact step_marking hs h
  | entering =>
      simp only [Call.demand, hs] at h
      cases ch with
      | serve t => exact step_enter hs (Option.some.inj h)
      | _ => cases h
  | blocked b => exact step_blocked hs h
  | rechecking b =>
      simp only [Call.demand, hs] at h
      have hblock : c.stage.block? = some b := by rw [hs]; rfl
      cases ch with
      | serve t =>
          exact step_looked (l := id) (s := .blocked b) (t := t) hblock rfl
            (fun _ => ⟨rfl, rfl⟩) (fun _ => rfl)
            (Or.inl ⟨rfl, Option.some.inj h⟩)
      | refuse e =>
          exact step_leave hblock (Or.inl ⟨e, rfl⟩) (Option.some.inj h)
      | _ => cases h
  | polling b =>
      simp only [Call.demand, hs] at h
      have hblock : c.stage.block? = some b := by rw [hs]; rfl
      cases ch with
      | serve t =>
          exact step_looked (l := fun x => x.say (.foundByPoll c.machine))
            (s := .sending b) (t := t) hblock rfl
            (fun _ => ⟨rfl, rfl⟩) (fun _ => rfl)
            (Or.inl ⟨rfl, Option.some.inj h⟩)
      | refuse e =>
          exact step_leave hblock (Or.inl ⟨e, rfl⟩) (Option.some.inj h)
      | _ => cases h
  | sending b =>
      simp only [Call.demand, hs] at h
      have hblock : c.stage.block? = some b := by rw [hs]; rfl
      cases ch with
      | serve t =>
          obtain ⟨rfl, hg⟩ := move_quiet_eq (quiet_pure _)
            (Option.some.inj h)
          exact .stays hblock rfl rfl rfl hg
      | stall e =>
          exact step_leave hblock (Or.inr (Or.inr rfl)) (Option.some.inj h)
      | _ => cases h
  | clearing p s => exact step_clearing hs h
  | closing result =>
      simp only [Call.demand, hs] at h
      cases ch with
      | serve t =>
          obtain ⟨rfl, hg⟩ := move_quiet_eq (quiet_report c result _)
            (Option.some.inj h)
          exact .said hs hg
      | _ => cases h
  | ended result =>
      simp only [Call.demand, hs] at h
      cases ch <;> cases h

-- ================================================== what a call comes to

/-- What a wait call has come to, whether it has said so or not. -/
def outcome? (c : Call) : Option (Except WaitError Wait.Outcome) :=
  match c.stage with
  | .closing result | .ended result => some result
  | _ => none

/-- A call that holds a signal has come to nothing yet. -/
theorem outcome_block {b : Wait.Block} (h : c.stage.block? = some b) :
    outcome? c = none := by
  unfold outcome?
  cases hs : c.stage with
  | closing => simp only [hs, Wait.Stage.block?, reduceCtorEq] at h
  | ended => simp only [hs, Wait.Stage.block?, reduceCtorEq] at h
  | _ => rfl

/-- A call that fails to clear its flag fails in nothing else. -/
theorem ClearFailed.outcome {p : Pacing} {e : StoreError} {result}
    (h : ClearFailed c p e c') (ho : outcome? c' = some result) :
    result = .ok .allocated := by
  rcases h with ⟨rfl, -⟩ | ⟨-, -, d, p', -, rfl⟩
  · cases ho
    rfl
  · cases ho

/-- A call fails by the store, by its sink or by the registry, or is
cancelled. -/
theorem WaitStep.failed {g : Fleet} {e : WaitError}
    (h : WaitStep f i c ch c' g) (ho : outcome? c' = some (.error e)) :
    outcome? c = some (.error e)
      ∨ ((∃ x, e = .ofStore x) ∨ (∃ cause, e = .cancelled cause)
        ∨ ch = .stall e)
      ∨ ∃ x, (f.registries i).register c.machine
          = (.error x, f.registries i) := by
  cases h with
  | unread hs he hg =>
      cases ho
      exact Or.inr (Or.inl (Or.inl ⟨_, rfl⟩))
  | unmarked hs he hg =>
      cases ho
      exact Or.inr (Or.inl (Or.inl ⟨_, rfl⟩))
  | markLost hs hg =>
      cases ho
      exact Or.inr (Or.inl (Or.inl ⟨_, rfl⟩))
  | barred hs hr hg => exact Or.inr (Or.inr ⟨_, hr⟩)
  | left hs hg how =>
      cases ho
      exact Or.inr (Or.inl how)
  | said hs hg =>
      simp only [outcome?, hs]
      exact Or.inl ho
  | stays hs hb =>
      cases (outcome_block (c := c.goto _) hb).symm.trans ho
  | clearUnread hs he hc => cases hc.outcome ho
  | unclear hs he hc => cases hc.outcome ho
  | clearLost hs hc => cases hc.outcome ho
  | _ => cases ho

end ControlPlane.Fleet
