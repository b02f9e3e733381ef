/-
A wait call that ends well is right. When it says that its machine is
allocated, the machine's record carries an allocation at that moment, on
whatever replica the call was made and however its wake-up came about
(`wake_sound`). The call looks into the store on its way in and on its
ticks, but a wake-up it believes without looking, so the truth of it
must travel with the message.

# What carries the truth

- `Tidings` (News.lean): all that travels on the allocation topic tells
  of machines that are allocated.
- `Wakes` (Tenancy.lean): a signal belongs to one machine, and fired it
  tells the truth about that machine, whoever joins it or replaces it.
- `Task.sure`: the stages of a call that rest on an allocation.

The three hold each other up, so they are proved together (`sound`); an
allocation is never taken back (`allocated_step`), so what was true when
it was said stays true.

Chain: over News.lean, Tenancy.lean and Versions.lean.
-/
import ControlPlane.Proofs.Fleet.News
import ControlPlane.Proofs.Fleet.Tenancy
import ControlPlane.Proofs.Fleet.Versions

namespace ControlPlane.Fleet

variable {s : Setting} {f g : Fleet} {h : History} {i r : Nat}
  {ch : Choice} {t t' : Task} {m : String} {payload : Json}

-- ============================================================== signals

/-- Firing the signal under a machine that is allocated keeps signals
sound: the signal belongs to that machine and to no other. -/
theorem Wakes.heard (hw : Wakes f) (i : Nat) (hn : News f payload) :
    Wakes (f.heard i payload) := by
  obtain ⟨m, rfl, ha⟩ := hn
  unfold Fleet.heard
  rw [told_payload]
  simp only
  cases hl : (f.registries i).lookup m with
  | none =>
      have hsame : (f.registries i).notified m = f.registries i := by
        unfold Registry.notified
        rw [hl]
      rw [hsame, setRegistry_eq_self]
      exact hw
  | some k =>
      have hnot : (f.registries i).notified m
          = ((f.registries i).fire k true).2 := by
        unfold Registry.notified
        rw [hl]
      refine hw.beside (r := i) rfl
        (fun j hj => setRegistry_of_ne _ hj) ?_ ?_ ?_ (fun _ ha => ha)
      · intro n m' hl'
        rw [setRegistry_self, hnot, Registry.lookup,
          Registry.fire_entries] at hl'
        exact hl'
      · rw [setRegistry_self, hnot, Registry.fire_length]
      · intro n m' ht hs
        rw [setRegistry_self, hnot, Registry.fire_signal] at hs
        split at hs
        · rename_i hnk
          right
          rw [hnk.1] at ht
          rw [hw.unique i k m' m ht (Or.inl hl)]
          exact ha
        · exact Or.inl hs

/-- Closing a signal says nothing about its machine. -/
theorem Wakes.close (hw : Wakes f) (i k : Nat) :
    Wakes (f.setRegistry i ((f.registries i).close k)) := by
  refine hw.beside (r := i) rfl (fun j hj => setRegistry_of_ne _ hj)
    ?_ ?_ ?_ (fun _ ha => ha)
  · intro n m hl
    rw [setRegistry_self, Registry.lookup, Registry.close_entries] at hl
    exact hl
  · rw [setRegistry_self, Registry.close_length]
  · intro n m ht hs
    rw [setRegistry_self, Registry.close_signal] at hs
    split at hs
    · rename_i hnk
      rw [hnk.1]
      exact Or.inl ((Signal.close_allocated _).mp hs)
    · exact Or.inl hs

/-- Taking an entry away makes nobody a tenant. -/
theorem Wakes.remove (hw : Wakes f) (i : Nat) (m : String) :
    Wakes (f.setRegistry i ((f.registries i).remove m)) := by
  rcases (f.registries i).remove_cases m with ⟨-, hr⟩ | ⟨k, -, hr⟩
  · rw [hr, setRegistry_eq_self]
    exact hw
  · refine (hw.close i k).beside (r := i) rfl ?_ ?_ ?_ ?_ (fun _ ha => ha)
    · intro j hj
      rw [setRegistry_of_ne _ hj, setRegistry_of_ne _ hj]
    · intro n m' hl
      rw [setRegistry_self, hr, Registry.lookup, Table.get?_erase] at hl
      rw [setRegistry_self]
      split at hl
      · cases hl
      · exact hl
    · rw [setRegistry_self, setRegistry_self, hr]
    · intro n m' ht hs
      rw [setRegistry_self, hr] at hs
      rw [setRegistry_self]
      exact Or.inl hs

theorem Wakes.same (hw : Wakes f) (hslots : g.slots = f.slots)
    (hreg : g.registries = f.registries)
    (hall : ∀ m, f.Allocated m → g.Allocated m) : Wakes g :=
  hw.beside (r := 0) hslots (fun _ _ => by rw [hreg])
    (fun _ _ hl => by rw [← hreg]; exact hl) (by rw [hreg])
    (fun _ _ _ hs => Or.inl (by rw [← hreg]; exact hs)) hall

/-- Signals stay sound, whatever happens beside the calls. -/
theorem Wakes.aside (hw : Wakes f) (ht : Tidings f) {a : Aside}
    (h : AsideStep f a g) : Wakes g := by
  cases h with
  | clock hg =>
      obtain ⟨b, -, rfl⟩ := hg
      exact hw.same rfl rfl (fun _ ha => ha)
  | @delivered k other m n g hk hg =>
      rcases f.received_cases n m.payload with hr | ⟨i, hi, hr⟩
      · rw [hr] at hg
        obtain ⟨b, -, rfl⟩ := hg
        exact hw.same rfl rfl (fun _ ha => ha)
      · obtain ⟨sub, hsub, hst⟩ := ht.handled n i hi
        have hn := ht.underway n sub m (List.mem_of_getElem? hk) hsub hst
        rw [hr] at hg
        obtain ⟨b, -, rfl⟩ := hg
        exact (hw.heard i hn).same rfl rfl (fun _ ha => ha)
  | @redelivered name k payload i g hk hg =>
      obtain ⟨b, -, rfl⟩ := hg
      exact (hw.heard i (ht.posted payload (List.mem_of_getElem? hk))).same
        rfl rfl (fun _ ha => ha)
  | removed => exact hw.remove _ _
  | closed => exact hw.close _ _
  | _ => exact hw.same rfl rfl (fun _ ha => ha)

-- ================================================================ calls

/-- Does a call go on as if its machine were allocated? -/
def Task.sure : Task → Bool
  | lifecycle c =>
      match c.stage with
      | .publishing _ => true
      | _ => false
  | wait c =>
      match c.stage with
      | .clearing _ _ | .closing (.ok _) | .ended (.ok _) => true
      | _ => false

/-- What holds of a fleet at every moment of its history. -/
structure Sound (f : Fleet) : Prop where
  wakes : Wakes f
  tidings : Tidings f
  calls : ∀ (i : Nat) (x : Slot), f.slots[i]? = some x →
    x.task.sure = true → f.Allocated x.task.machine

theorem Settles.sure {c c' : Lifecycle.Call} {x : MachineRecord}
    {created : Bool} (h : Settles c x created c') :
    (Task.lifecycle c').sure = false := by
  rcases h with ⟨-, rfl⟩ | ⟨_, _, _, -, rfl⟩ <;> rfl

theorem FailedWith.sure {c c' : Lifecycle.Call} {e : StoreError}
    (h : FailedWith c e c') : (Task.lifecycle c').sure = false := by
  rcases h with ⟨rfl, -⟩ | ⟨-, -, _, _, -, rfl⟩ <;> rfl

/-- A call that has become sure has a reason: it was so before, it wrote
the allocation, it found it in the store, or its signal told. -/
theorem sure_step (hs : Sound (after s h))
    (hi : (after s h).slots[i]? = some ⟨r, t, false⟩)
    (ht : TaskStep (after s h) r t ch t' g)
    (hg : after s (.step i ch :: h) = g.setSlot i ⟨r, t', false⟩)
    (hsure : t'.sure = true) :
    (after s (.step i ch :: h)).Allocated t.machine := by
  have hstay : (after s h).Allocated t.machine →
      (after s (.step i ch :: h)).Allocated t.machine :=
    fun ha => allocated_step _ ha
  have hbefore : t.sure = true →
      (after s (.step i ch :: h)).Allocated t.machine :=
    fun hb => hstay (hs.calls i _ hi hb)
  cases ht with
  | @lifecycle c ch c' g hstep =>
      cases hstep with
      | @wrote tm w c' g hw hon hfit hwr hst =>
          rcases hwr with ⟨req, hop, rfl⟩ | ⟨-, hset⟩
          · -- the call has just allocated the machine itself
            obtain ⟨-, μ, hfol⟩ := follows_of_fits (.serve tm) hi hw
              hfit (by
                rw [hg]
                obtain ⟨a, -, rfl⟩ := hst
                rfl)
            obtain ⟨r', t', hi', -, hμ⟩ := hfol.call
            cases hi.symm.trans hi'
            rw [allocate_mutation hop hμ] at hfol
            exact hfol.allocated.1
          · rw [hset.sure] at hsure
            cases hsure
      | kept h1 hv hx hset => rw [hset.sure] at hsure; cases hsure
      | unread h1 he hfail => rw [hfail.sure] at hsure; cases hsure
      | unwritten h1 he hfail => rw [hfail.sure] at hsure; cases hsure
      | lost h1 hfail => rw [hfail.sure] at hsure; cases hsure
      | published h1 hch hset => rw [hset.sure] at hsure; cases hsure
      | _ => cases hsure
  | @wait c ch c' g hstep =>
      cases hstep with
      | already h1 hv ha => exact hstay ⟨_, hv, ha⟩
      | @saw ch b g h1 how =>
          rcases how with ⟨reg, hreg⟩ | ha
          · -- the call goes by its signal, which is one of its machine's
            refine hstay ?_
            have hhold : (Task.wait c).hold? = some b.registration := by
              simp only [Task.hold?, h1, Option.map_some]
            have hmach := hold_machine hi hhold
            have hst : ((after s h).registries r |>.signal
                b.registration.generation).state = .allocated := by
              unfold Registry.woken at hreg
              simp only at hreg
              split at hreg
              · cases hreg
              · exact congrArg Prod.fst (Option.some.inj hreg)
            refine hs.wakes.sound r b.registration.generation _
              (Or.inr ⟨i, _, _, hi, rfl, ?_, rfl, hmach⟩) hst
            exact hhold
          · exact hstay ha
      | clearPrepared h1 => exact hbefore (by simp only [Task.sure, h1])
      | clearKept h1 => exact hbefore (by simp only [Task.sure, h1])
      | cleared h1 => exact hbefore (by simp only [Task.sure, h1])
      | clearUnread h1 => exact hbefore (by simp only [Task.sure, h1])
      | unclear h1 => exact hbefore (by simp only [Task.sure, h1])
      | clearLost h1 => exact hbefore (by simp only [Task.sure, h1])
      | clearResumed h1 => exact hbefore (by simp only [Task.sure, h1])
      | @said tm result g h1 =>
          refine hbefore ?_
          simp only [Task.sure, h1]
          cases result with
          | ok outcome => rfl
          | error e => cases hsure
      | @stays ch b x b' g h1 hb =>
          cases x with
          | clearing => cases hb
          | closing => cases hb
          | ended => cases hb
          | _ => cases hsure
      | _ => cases hsure

-- ============================================================== all along

theorem sound_initial (s : Setting) : Sound (initial s) where
  wakes := by
    have hten : ∀ i k m, ¬ (initial s).Tenant i k m := by
      rintro i k m (hl | ⟨j, x, a, hj, -⟩)
      · cases hl
      · cases hj
    exact ⟨fun i k m ht => absurd ht (hten i k m),
      fun i k m _ ht => absurd ht (hten i k m),
      fun i k m ht => absurd ht (hten i k m)⟩
  tidings := by
    refine ⟨?_, ?_, ?_, ?_, ?_, ?_, rfl⟩
    · intro p hp
      cases hp
    · intro k e he
      cases he
    · intro k sub e he
      cases he
    · intro k sub e he
      cases he
    · intro k e he
      cases he
    · intro k i hk
      cases hk
  calls := by
    intro i x hx
    cases hx

/-- A call that has just begun holds no signal. -/
theorem Wakes.begun (hw : Wakes f) {x : Slot} (hx : x.hold? = none)
    (hslots : g.slots = f.slots ++ [x]) (hreg : g.registries = f.registries)
    (hall : ∀ m, f.Allocated m → g.Allocated m) : Wakes g := by
  refine hw.fewer ?_ ?_ ?_ hall
  · rintro i k m (hl | ⟨j, y, a, hj, hr, ha, hk⟩)
    · rw [hreg] at hl
      exact Or.inl hl
    · rw [hslots] at hj
      rcases append_get? hj with hj | ⟨-, rfl⟩
      · exact Or.inr ⟨j, y, a, hj, hr, ha, hk⟩
      · rw [hx] at ha
        cases ha
  · intro i
    rw [hreg]
  · intro i k m ht hs
    rw [hreg] at hs
    exact Or.inl hs

/-- Signals stay sound through every event. -/
theorem Sound.wakes_event (hs : Sound (after s h)) (e : Event) :
    Wakes (after s (e :: h)) := by
  have hall : ∀ m, (after s h).Allocated m →
      ((after s h).step e).Allocated m := fun m ha => allocated_step e ha
  have hgrip := gripped (after s h) e
  rw [after_cons]
  generalize (after s h).step e = g at hgrip hall
  cases hgrip with
  | begun hx hslots hreg => exact hs.wakes.begun hx hslots hreg hall
  | moved hi hslots hr hgrip hothers =>
      exact hs.wakes.grip hi hslots hr hgrip hothers hall
  | aside ha => exact hs.wakes.aside hs.tidings ha
  | idle => exact hs.wakes

/-- And so does the news: a call publishes what it is sure of. -/
theorem Sound.tidings_event (hs : Sound (after s h)) (e : Event) :
    Tidings (after s (e :: h)) := by
  have hh := happened (after s h) e
  have hall : ∀ m, (after s h).Allocated m →
      ((after s h).step e).Allocated m := fun m ha => allocated_step e ha
  rw [after_cons]
  generalize (after s h).step e = g at hh hall
  cases hh with
  | submitted => exact hs.tidings.same rfl rfl rfl rfl rfl hall
  | awaited => exact hs.tidings.same rfl rfl rfl rfl rfl hall
  | @advanced i r ch t t' g hi ht =>
      have hframe := ht.frame
      have hgall : ∀ m, (after s h).Allocated m → g.Allocated m :=
        fun m ha => hall m ha
      have hg : Tidings g := by
        rcases ht.posts with ⟨hbus, hposted⟩ | ⟨c, x, rfl, hst, hbus, hposted⟩
        · exact hs.tidings.same hframe.topic hbus hposted
            hframe.deliveries hframe.handlers hgall
        · refine (hs.tidings.post c.topic (fun _ => ?_)).same
            hframe.topic hbus hposted hframe.deliveries
            hframe.handlers hgall
          refine ⟨c.machine, rfl, hs.calls i _ hi ?_⟩
          simp only [Task.sure, hst]
      exact hg.same rfl rfl rfl rfl rfl (fun _ ha => ha)
  | expired hi hu hg =>
      obtain ⟨a, -, rfl⟩ := hg
      exact hs.tidings.same rfl rfl rfl rfl rfl hall
  | dropped hi hg =>
      obtain ⟨a, -, rfl⟩ := hg
      exact hs.tidings.same rfl rfl rfl rfl rfl hall
  | aside ha => exact hs.tidings.aside ha
  | idle he => exact hs.tidings

theorem sound (s : Setting) (h : History) : Sound (after s h) := by
  induction h with
  | nil => exact sound_initial s
  | cons e h ih =>
      refine ⟨ih.wakes_event e, ih.tidings_event e, ?_⟩
      intro i x hx hsure
      have hstep := slot_step hx
      generalize hg : (after s h).step e = g at hstep
      cases hstep with
      | same hs he => exact allocated_step e (ih.calls i x hs hsure)
      | idle hs => exact allocated_step e (ih.calls i x hs hsure)
      | submitted hs => cases hsure
      | awaited hs => cases hsure
      | advanced hs ht =>
          rw [show (⟨_, _, false⟩ : Slot).task.machine = _
            from ht.same.machine]
          exact sure_step ih hs ht hg hsure
      | expired hs hu => cases hsure
      | dropped hs =>
          exact allocated_step _ (ih.calls i ⟨_, _, false⟩ hs hsure)

/-- When a wait call ends well, or is about to, its machine's record
carries an allocation. -/
theorem wake_sound {c : Wait.Call} {o : Wait.Outcome} {d : Bool}
    (hi : (after s h).slots[i]? = some ⟨r, .wait c, d⟩)
    (ho : c.stage = .closing (.ok o) ∨ c.stage = .ended (.ok o)) :
    (after s h).Allocated c.machine := by
  refine (sound s h).calls i _ hi ?_
  rcases ho with ho | ho
  · simp only [Task.sure, ho]
  · simp only [Task.sure, ho]

/-- A machine is registered and waits on replica 1; it is allocated on
replica 0, the message reaches replica 1, and the wait call ends. -/
def wakeUp : History :=
  [.step 1 (.serve 3), .step 1 (.serve 3), .step 1 (.serve 3),
    .step 1 (.serve 3), .step 1 (.wake 2), .aside (.deliver 0 .handled),
    .aside (.turn 0), .aside (.turn 0), .step 2 (.serve 0),
    .step 2 (.serve 0), .step 2 (.serve 0),
    .submit 0 labRetry "m" (.allocate
      { project := "a", hostname := "h", image := "i" }),
    .step 1 (.serve 1), .step 1 (.serve 1), .step 1 (.serve 1),
    .step 1 (.serve 1),
    .await 1 "n" ⟨⟨5⟩, ⟨9⟩⟩ labRetry "m",
    .aside (.listen 1 "n" ⟨1, ⟨9⟩, ⟨1000⟩⟩),
    .step 0 (.serve 0), .step 0 (.serve 0),
    .submit 0 labRetry "m" (.register {})]

theorem wake_sound_wakeUp : (after lab wakeUp).Allocated "m" :=
  wake_sound (i := 1) (r := 1) (h := wakeUp) (s := lab) (d := false)
    (c := ⟨"m", "n", ⟨⟨5⟩, ⟨9⟩⟩, labRetry, .ended (.ok .allocated)⟩)
    (o := .allocated) (by rfl) (Or.inr rfl)

end ControlPlane.Fleet
