/-
What a step of a call of either kind leaves alone, what it writes, and
what it does to the signals of its replica: `TaskStep` puts the
inversions of Calls.lean and Waits.lean under one roof, and each lemma
about it reads the cases once.

# What changes what

- The store changes by the write that a call was about to attempt, and
  by nothing else (`TaskStep.store`).
- A wait call takes hold of a signal once and lets go of it once; between
  these it keeps the machine and the generation that it holds
  (`TaskStep.grip`).
- What a call is about never changes (`TaskStep.same`).

Chain: over Calls.lean and Waits.lean; consumed by Events.lean, which
adds all that happens beside the calls.
-/
import ControlPlane.Proofs.Bus
import ControlPlane.Proofs.Fleet.Waits

namespace ControlPlane

/-- The signals after a call has let go of what it held. -/
def Registry.vacated (r : Registry) : Option Registration → Registry
  | some reg => r.release reg
  | none => r

/-- The signals after the one under a machine was fired. -/
def Registry.notified (r : Registry) (machine : String) : Registry :=
  match r.lookup machine with
  | some g => (r.fire g true).2
  | none => r

namespace Fleet

variable {f g : Fleet} {e : Event} {i r : Nat} {ch : Choice}
  {t t' : Task}

-- ==================================================== the step of a call

/-- What a step of a call on replica `r` can be. -/
inductive TaskStep (f : Fleet) (r : Nat) :
    Task → Choice → Task → Fleet → Prop
  | lifecycle {c ch c' g} (h : LifecycleStep f c ch c' g) :
      TaskStep f r (.lifecycle c) ch (.lifecycle c') g
  | wait {c ch c' g} (h : WaitStep f r c ch c' g) :
      TaskStep f r (.wait c) ch (.wait c') g

theorem task_step (h : f.meetTask r ch t = some (t', g)) :
    TaskStep f r t ch t' g := by
  cases t with
  | lifecycle c =>
      simp only [meetTask, Option.map_eq_some_iff] at h
      obtain ⟨⟨c', g'⟩, hm, he⟩ := h
      cases he
      exact .lifecycle (lifecycle_step hm)
  | wait c =>
      simp only [meetTask, Option.map_eq_some_iff] at h
      obtain ⟨⟨c', g'⟩, hm, he⟩ := h
      cases he
      exact .wait (wait_step hm)

/-- The write that a call is about to attempt. -/
def Task.write? : Task → Option Write
  | lifecycle c => lifecycleWrite? c
  | wait c =>
      match c.stage with
      | .marking old next => some (.update old next)
      | .clearing _ (.writing old next) => some (.update old next)
      | _ => none

/-- Two states of one call: only the stage and the pace differ. -/
inductive Task.Same : Task → Task → Prop
  | lifecycle (c : Lifecycle.Call) (p : Pacing) (s : Lifecycle.Stage) :
      Same (.lifecycle c) (.lifecycle { c with pacing := p, stage := s })
  | wait (c : Wait.Call) (s : Wait.Stage) :
      Same (.wait c) (.wait { c with stage := s })

theorem Task.Same.machine (h : t.Same t') : t'.machine = t.machine := by
  cases h <;> rfl

theorem Task.Same.refl (t : Task) : t.Same t := by
  cases t with
  | lifecycle c => exact .lifecycle c c.pacing c.stage
  | wait c => exact .wait c c.stage

theorem Task.Same.trans {t'' : Task} (h : t.Same t') (h' : t'.Same t'') :
    t.Same t'' := by
  cases h with
  | lifecycle c p s =>
      cases h' with
      | lifecycle _ p' s' => exact .lifecycle c p' s'
  | wait c s =>
      cases h' with
      | wait _ s' => exact .wait c s'

-- ==================================================== what a step keeps

/-- What a step of a call on replica `r` leaves alone. -/
structure Frame (f : Fleet) (r : Nat) (g : Fleet) : Prop where
  topic : g.topic = f.topic
  slots : g.slots = f.slots
  handlers : g.handlers = f.handlers
  deliveries : g.deliveries = f.deliveries
  subscriptions : g.bus.subscriptions = f.bus.subscriptions
  capacity : g.bus.capacity = f.bus.capacity
  clock : f.ambient.clock ≤ g.ambient.clock
  offline : g.store.offline = f.store.offline
  others : ∀ j, j ≠ r → g.registries j = f.registries j

/-- Nothing is left alone less by a still step than by the one before. -/
theorem Frame.still {f' : Fleet} (h : Frame f r f') (hg : Still f' g) :
    Frame f r g := by
  obtain ⟨a, ha, rfl⟩ := hg
  exact ⟨h.topic, h.slots, h.handlers, h.deliveries, h.subscriptions,
    h.capacity, le_trans h.clock ha, h.offline, h.others⟩

theorem Frame.refl (f : Fleet) (r : Nat) : Frame f r f :=
  ⟨rfl, rfl, rfl, rfl, rfl, rfl, le_refl _, rfl, fun _ _ => rfl⟩

theorem frame_setRegistry (reg : Registry) :
    Frame f r (f.setRegistry r reg) :=
  ⟨rfl, rfl, rfl, rfl, rfl, rfl, le_refl _, rfl,
    fun _ hj => Function.update_of_ne hj _ _⟩

/-- A call that lets go of its hold, and does nothing else. -/
theorem frame_vacated {reg : Registry}
    (hg : Still (f.setRegistry r reg) g) : Frame f r g :=
  (frame_setRegistry reg).still hg

/-- The one thing that a step of a call on replica `r` does beside the
log and the clock, if it does any. -/
inductive Effect (f : Fleet) (r : Nat) (t : Task) : Fleet → Prop
  | none : Effect f r t f
  /-- The write that the call was about to attempt is taken. -/
  | wrote {w} (hw : t.write? = some w) (hfit : w.Fits f.store) :
      Effect f r t { f with store := w.apply f.store }
  /-- The signals of the replica change. -/
  | signals (reg : Registry) : Effect f r t (f.setRegistry r reg)
  /-- The allocation is published. -/
  | posted {c x} (ht : t = .lifecycle c) (hs : c.stage = .publishing x) :
      Effect f r t (f.post c.topic (Notifier.payload c.machine))
  /-- The entry is added to the machine's history. -/
  | recorded {c x event} (ht : t = .lifecycle c)
      (hs : c.stage = .recording x event) :
      Effect f r t { f with events := f.events.append c.machine event }

/-- An attempt has the effect of its write, or none. -/
theorem effect_run {w : Write} (hw : t.write? = some w)
    (hg : Still { f with store := (w.run f.store).2 } g) :
    ∃ f', Effect f r t f' ∧ Still f' g := by
  rcases w.run_store f.store with h | ⟨hfit, h⟩
  · rw [h] at hg
    exact ⟨f, .none, hg⟩
  · rw [h] at hg
    exact ⟨_, .wrote hw hfit, hg⟩

theorem effect_still (hg : Still f g) :
    ∃ f', Effect f r t f' ∧ Still f' g :=
  ⟨f, .none, hg⟩

theorem LifecycleStep.effect {c c' : Lifecycle.Call}
    (h : LifecycleStep f c ch c' g) :
    ∃ f', Effect f r (.lifecycle c) f' ∧ Still f' g := by
  cases h with
  | @prepared t v x a hs hv hx =>
      have ha := change_clock c.operation v.record f.ambient
      rw [hx] at ha
      exact effect_still ⟨_, le_trans ha a.clock_le_now, rfl⟩
  | unknown => exact effect_still ⟨_, f.ambient.clock_le_now, rfl⟩
  | kept hs hv hx hc hg => exact effect_still hg
  | rejected hs hv hx hg => exact effect_still hg
  | unread hs he hc hg => exact effect_still hg
  | unwritten hw he hc hg => exact effect_still hg
  | resumed hs hg => exact effect_still hg
  | wrote hw hon hfit hc hg => exact ⟨_, .wrote hw hfit, hg⟩
  | lost hw hc hg => exact effect_run hw hg
  | @published ch sent x c' g hs hch hc hg =>
      cases sent with
      | false => exact effect_still hg
      | true => exact ⟨_, .posted rfl hs, hg⟩
  | recorded added hs hch hg =>
      cases added with
      | false => exact effect_still hg
      | true => exact ⟨_, .recorded rfl hs, hg⟩

theorem WaitStep.effect {c c' : Wait.Call} (h : WaitStep f r c ch c' g) :
    ∃ f', Effect f r (.wait c) f' ∧ Still f' g := by
  cases h with
  | prepared => exact effect_still ⟨_, f.ambient.clock_le_now, rfl⟩
  | clearPrepared => exact effect_still ⟨_, f.ambient.clock_le_now, rfl⟩
  | marked hs hon hfit hg =>
      exact ⟨_, .wrote (by simp only [Task.write?, hs]) hfit, hg⟩
  | cleared hs hon hfit hg =>
      exact ⟨_, .wrote (by simp only [Task.write?, hs]) hfit, hg⟩
  | markLost hs hg =>
      exact effect_run (by simp only [Task.write?, hs]) hg
  | clearLost hs hc hg =>
      exact effect_run (by simp only [Task.write?, hs]) hg
  | entered hs hr hg => exact ⟨_, .signals _, hg⟩
  | saw hs how hg => exact ⟨_, .signals _, hg⟩
  | left hs hg => exact ⟨_, .signals _, hg⟩
  | opened hs hg => exact effect_still hg
  | already hs hv ha hg => exact effect_still hg
  | unread hs he hg => exact effect_still hg
  | unmarked hs he hg => exact effect_still hg
  | barred hs hr hg => exact effect_still hg
  | stays hs hb hm hn hg => exact effect_still hg
  | clearKept hs hv hw hg => exact effect_still hg
  | clearUnread hs he hc hg => exact effect_still hg
  | unclear hs he hc hg => exact effect_still hg
  | clearResumed hs hg => exact effect_still hg
  | said hs hg => exact effect_still hg

theorem TaskStep.effect (h : TaskStep f r t ch t' g) :
    ∃ f', Effect f r t f' ∧ Still f' g := by
  cases h with
  | lifecycle h => exact h.effect
  | wait h => exact h.effect

theorem Effect.frame (h : Effect f r t g) : Frame f r g := by
  cases h with
  | none => exact Frame.refl f r
  | signals reg => exact frame_setRegistry reg
  | posted =>
      exact ⟨rfl, rfl, rfl, rfl, MemoryBus.publish_subscriptions _,
        MemoryBus.publish_capacity _, MemoryBus.publish_clock _, rfl,
        fun _ _ => rfl⟩
  | _ => exact ⟨rfl, rfl, rfl, rfl, rfl, rfl, le_refl _, rfl, fun _ _ => rfl⟩

theorem TaskStep.frame (h : TaskStep f r t ch t' g) : Frame f r g := by
  obtain ⟨f', he, hg⟩ := h.effect
  exact he.frame.still hg

/-- A step leaves the store as it is, or carries out the write that the
call was about to attempt. -/
theorem TaskStep.store (h : TaskStep f r t ch t' g) :
    g.store = f.store
      ∨ ∃ w, t.write? = some w ∧ w.Fits f.store
          ∧ g.store = w.apply f.store := by
  obtain ⟨f', he, a, -, rfl⟩ := h.effect
  cases he with
  | wrote hw hfit => exact Or.inr ⟨_, hw, hfit, rfl⟩
  | _ => exact Or.inl rfl

/-- A step leaves the bus alone, or is the publication of an
allocation. -/
theorem TaskStep.posts (h : TaskStep f r t ch t' g) :
    (g.bus = f.bus ∧ g.posted = f.posted)
      ∨ ∃ c x, t = .lifecycle c ∧ c.stage = .publishing x
          ∧ g.bus = (f.post c.topic (Notifier.payload c.machine)).bus
          ∧ g.posted
            = (c.topic, Notifier.payload c.machine) :: f.posted := by
  obtain ⟨f', he, a, -, rfl⟩ := h.effect
  cases he with
  | posted ht hs => exact Or.inr ⟨_, _, ht, hs, rfl, rfl⟩
  | _ => exact Or.inl ⟨rfl, rfl⟩

/-- A step leaves the histories of machines alone, or adds the entry of
its own operation. -/
theorem TaskStep.events (h : TaskStep f r t ch t' g) :
    g.events = f.events
      ∨ ∃ c x event, t = .lifecycle c ∧ c.stage = .recording x event
          ∧ g.events = f.events.append c.machine event := by
  obtain ⟨f', he, a, -, rfl⟩ := h.effect
  cases he with
  | recorded ht hs => exact Or.inr ⟨_, _, _, ht, hs, rfl⟩
  | _ => exact Or.inl rfl

-- ================================================== writes that are taken

/-- A lifecycle call whose write is taken knows it, if the store says so:
it goes on to what comes behind the write. -/
theorem LifecycleStep.taken {c c' : Lifecycle.Call}
    (h : LifecycleStep f c ch c' g) (hch : ch.faithful = true)
    (hst : g.store ≠ f.store) :
    ∃ w, lifecycleWrite? c = some w ∧ Wrote c w.record w.isCreate c' := by
  have hstill : ∀ {P : Prop}, Still f g → P := by
    rintro P ⟨a, -, rfl⟩
    exact absurd rfl hst
  cases h with
  | wrote hw hon hfit hc hg => exact ⟨_, hw, hc⟩
  | lost => cases hch
  | prepared => exact absurd rfl hst
  | unknown => exact absurd rfl hst
  | kept hs hv hx hc hg => exact hstill hg
  | rejected hs hv hx hg => exact hstill hg
  | unread hs he hc hg => exact hstill hg
  | unwritten hw he hc hg => exact hstill hg
  | resumed hs hg => exact hstill hg
  | @published ch sent x c' g hs hch' hc hg =>
      obtain ⟨a, -, rfl⟩ := hg
      cases sent <;> exact absurd rfl hst
  | recorded added hs hch' hg =>
      obtain ⟨a, -, rfl⟩ := hg
      cases added <;> exact absurd rfl hst

/-- The same for a wait call: its flag is set, or cleared. -/
theorem WaitStep.taken {c c' : Wait.Call} (h : WaitStep f r c ch c' g)
    (hch : ch.faithful = true) (hst : g.store ≠ f.store) :
    (∃ old next, c.stage = .marking old next ∧ c' = c.goto .entering)
      ∨ ∃ p old next, c.stage = .clearing p (.writing old next)
          ∧ c' = c.cleared := by
  have hstill : ∀ {P : Prop}, Still f g → P := by
    rintro P ⟨a, -, rfl⟩
    exact absurd rfl hst
  have hsignals : ∀ {P : Prop} {reg : Registry},
      Still (f.setRegistry r reg) g → P := by
    rintro P reg ⟨a, -, rfl⟩
    exact absurd rfl hst
  cases h with
  | marked hs => exact Or.inl ⟨_, _, hs, rfl⟩
  | cleared hs => exact Or.inr ⟨_, _, _, hs, rfl⟩
  | markLost => cases hch
  | clearLost => cases hch
  | prepared => exact absurd rfl hst
  | clearPrepared => exact absurd rfl hst
  | entered hs hr hg => exact hsignals hg
  | saw hs how hg => exact hsignals hg
  | left hs hg => exact hsignals hg
  | opened hs hg => exact hstill hg
  | already hs hv ha hg => exact hstill hg
  | unread hs he hg => exact hstill hg
  | unmarked hs he hg => exact hstill hg
  | barred hs hr hg => exact hstill hg
  | stays hs hb hm hn hg => exact hstill hg
  | clearKept hs hv hw hg => exact hstill hg
  | clearUnread hs he hc hg => exact hstill hg
  | unclear hs he hc hg => exact hstill hg
  | clearResumed hs hg => exact hstill hg
  | said hs hg => exact hstill hg

-- ================================================== one and the same call

theorem Settles.same {c c' : Lifecycle.Call} {m : MachineRecord}
    {created : Bool} (h : Settles c m created c') :
    (Task.lifecycle c).Same (.lifecycle c') := by
  rcases h with ⟨-, rfl⟩ | ⟨_, _, _, -, rfl⟩
  · exact .lifecycle c c.pacing _
  · exact .lifecycle c c.pacing _

theorem FailedWith.same {c c' : Lifecycle.Call} {x : StoreError}
    (h : FailedWith c x c') : (Task.lifecycle c).Same (.lifecycle c') := by
  rcases h with ⟨rfl, -⟩ | ⟨-, -, d, p, -, rfl⟩
  · exact .lifecycle c c.pacing _
  · exact .lifecycle c p _

theorem ClearFailed.same {c c' : Wait.Call} {p : Pacing} {x : StoreError}
    (h : ClearFailed c p x c') : (Task.wait c).Same (.wait c') := by
  rcases h with ⟨rfl, -⟩ | ⟨-, -, d, p', -, rfl⟩
  · exact .wait c _
  · exact .wait c _

/-- A step keeps what the call is about. -/
theorem TaskStep.same (h : TaskStep f r t ch t' g) : t.Same t' := by
  cases h with
  | @lifecycle c ch c' g h =>
      cases h with
      | prepared => exact .lifecycle c c.pacing _
      | kept hs hv hx hc => exact hc.same
      | rejected => exact .lifecycle c c.pacing _
      | unknown => exact .lifecycle c c.pacing _
      | unread hs he hc => exact hc.same
      | wrote hw hon hfit hc =>
          rcases hc with ⟨req, -, rfl⟩ | ⟨-, hc⟩
          · exact .lifecycle c c.pacing _
          · exact hc.same
      | unwritten hw he hc => exact hc.same
      | lost hw hc => exact hc.same
      | resumed => exact .lifecycle c c.pacing _
      | published hs hch hc => exact hc.same
      | recorded => exact .lifecycle c c.pacing _
  | @wait c ch c' g h =>
      cases h with
      | clearUnread hs he hc => exact hc.same
      | unclear hs he hc => exact hc.same
      | clearLost hs hc => exact hc.same
      | _ => exact .wait c _

-- ======================================================= holds of signals

/-- What a step of a call about a machine does to the signals of its
replica, and to the call's own hold. -/
inductive Grip (machine : String) (r : Registry) :
    Registry → Option Registration → Option Registration → Prop
  | free : Grip machine r r none none
  | kept {a b} (hm : b.machine = a.machine)
      (hg : b.generation = a.generation) : Grip machine r r (some a) (some b)
  | taken {r' a} (h : r.register machine = (.ok a, r')) :
      Grip machine r r' none (some a)
  | released {a} : Grip machine r (r.release a) (some a) none

/-- Without a hold there is nothing to let go of. -/
theorem Grip.vacated (machine : String) (r : Registry)
    (hold : Option Registration) :
    Grip machine r (r.vacated hold) hold none := by
  cases hold with
  | none => exact .free
  | some a => exact .released

theorem registry_still {f' : Fleet} (hg : Still f' g) (j : Nat) :
    g.registries j = f'.registries j := by
  obtain ⟨a, -, rfl⟩ := hg
  rfl

@[simp] theorem setRegistry_self (reg : Registry) :
    (f.setRegistry i reg).registries i = reg :=
  Function.update_self ..

theorem setRegistry_of_ne (reg : Registry) {j : Nat} (h : j ≠ i) :
    (f.setRegistry i reg).registries j = f.registries j :=
  Function.update_of_ne h _ _

@[simp] theorem setRegistry_eq_self :
    f.setRegistry i (f.registries i) = f := by
  unfold setRegistry
  rw [Function.update_eq_self]

/-- A lifecycle call has nothing to do with signals. -/
theorem LifecycleStep.registries {c c' : Lifecycle.Call}
    (h : LifecycleStep f c ch c' g) : g.registries = f.registries := by
  funext j
  have h0 := (TaskStep.lifecycle (r := j + 1) h).frame
  exact h0.others j (Nat.ne_of_lt (Nat.lt_succ_self j))

theorem TaskStep.grip (h : TaskStep f r t ch t' g) :
    Grip t.machine (f.registries r) (g.registries r) t.hold? t'.hold? := by
  cases h with
  | lifecycle h =>
      rw [h.registries]
      exact .free
  | @wait c ch c' g h =>
      -- most steps hold nothing, neither before nor after
      have hfree : g.registries r = f.registries r →
          c.stage.block? = none → c'.stage.block? = none →
          Grip c.machine (f.registries r) (g.registries r)
            (Task.wait c).hold? (Task.wait c').hold? := by
        intro hr hb hb'
        rw [hr]
        simp only [Task.hold?, hb, hb', Option.map_none]
        exact .free
      cases h with
      | entered hs hr hg =>
          rw [registry_still hg, setRegistry_self]
          simp only [Task.hold?, hs, Wait.Stage.block?, Option.map_none]
          exact .taken hr
      | stays hs hb hm hn hg =>
          rw [registry_still hg]
          simp only [Task.hold?, Wait.Call.goto, hs, hb]
          exact .kept hm hn
      | saw hs how hg =>
          rw [registry_still hg, setRegistry_self]
          simp only [Task.hold?, hs]
          exact .released
      | left hs hg =>
          rw [registry_still hg, setRegistry_self]
          simp only [Task.hold?, hs]
          exact .released
      | clearUnread hs he hc hg =>
          exact hfree (registry_still hg r) (by rw [hs]; rfl) hc.away.2
      | unclear hs he hc hg =>
          exact hfree (registry_still hg r) (by rw [hs]; rfl) hc.away.2
      | clearLost hs hc hg =>
          exact hfree (registry_still hg r) (by rw [hs]; rfl) hc.away.2
      | prepared hs hv ha => exact hfree rfl (by rw [hs]; rfl) rfl
      | clearPrepared hs hv hw => exact hfree rfl (by rw [hs]; rfl) rfl
      | opened hs hg =>
          exact hfree (registry_still hg r) (by rw [hs]; rfl) rfl
      | already hs hv ha hg =>
          exact hfree (registry_still hg r) (by rw [hs]; rfl) rfl
      | unread hs he hg =>
          exact hfree (registry_still hg r) (by rw [hs]; rfl) rfl
      | marked hs hon hfit hg =>
          exact hfree (registry_still hg r) (by rw [hs]; rfl) rfl
      | unmarked hs he hg =>
          exact hfree (registry_still hg r) (by rw [hs]; rfl) rfl
      | markLost hs hg =>
          exact hfree (registry_still hg r) (by rw [hs]; rfl) rfl
      | barred hs hr hg =>
          exact hfree (registry_still hg r) (by rw [hs]; rfl) rfl
      | clearKept hs hv hw hg =>
          exact hfree (registry_still hg r) (by rw [hs]; rfl) rfl
      | cleared hs hon hfit hg =>
          exact hfree (registry_still hg r) (by rw [hs]; rfl) rfl
      | clearResumed hs hg =>
          exact hfree (registry_still hg r) (by rw [hs]; rfl) rfl
      | said hs hg =>
          exact hfree (registry_still hg r) (by rw [hs]; rfl) rfl

end Fleet

end ControlPlane
