/-
Deliveries may come again and in any order. Once a replica has handled
the message about a machine, another one about it changes none of its
signals and wakes nobody, for ever after; and what a number of
deliveries makes of a replica's signals depends on the machines they
tell of, not on how often or in which order they come
(`duplicates_harmless`). The first of the two needs that nothing comes
between a marking write and the registration.

# Why a second delivery finds nothing to do

A delivery fires the signal that stands under the machine, and firing
leaves it final (`Registry.spent_notified`). That alone would not last:
a call that registers for the machine afterwards would put a new signal
in its place. But the message goes out behind the allocation, and nobody
takes hold of a signal for an allocated machine (`enters_before`); what
else happens to signals, their closing and taking away included, leaves
the machine without one that could still be fired (`spent_step`).

# A call that is overtaken

If other events did come in between, the machine of a call that has set
the flag could be allocated, and the message handled, before the call
registers. It then brings in a signal that nobody has fired, and a
second delivery wakes it (`woken_again`).

# Why the order does not matter

A delivery changes no entry, so each finds the same signal wherever it
stands in the row, and a signal that was fired once is final. So the
signals behind a row of deliveries are known one by one: those under a
machine that was told of are fired, the others are as they were
(`Registry.notified_all`).

Chain: over Arrivals.lean and WakeSoundness.lean.
-/
import ControlPlane.Proofs.Fleet.Arrivals
import ControlPlane.Proofs.WakeSoundness
import Mathlib.Data.List.GetD

namespace ControlPlane

-- ========================================================= spent signals

namespace Registry

variable {reg reg' : Registry} {m m' : String} {g k : Nat}

/-- What stands under a machine, if anything does, is final. -/
def Spent (reg : Registry) (m : String) : Prop :=
  ∀ g, reg.lookup m = some g → (reg.signal g).isClosed = true

theorem setSignal_signal (reg : Registry) (g : Nat) :
    reg.setSignal g (reg.signal g) = reg := by
  have hset : reg.signals.set g (reg.signal g) = reg.signals := by
    apply List.ext_getElem?
    intro k
    rw [List.getElem?_set]
    split
    · rename_i hk
      subst hk
      split
      · rename_i hlt
        show some (reg.signals.getD g {}) = _
        rw [List.getD_eq_getElem _ _ hlt, List.getElem?_eq_getElem hlt]
      · rename_i hlt
        rw [List.getElem?_eq_none (Nat.le_of_not_lt hlt)]
    · rfl
  unfold setSignal
  rw [hset]

/-- A delivery for a machine whose signal is final changes nothing. -/
theorem Spent.notified (h : reg.Spent m) : reg.notified m = reg := by
  unfold Registry.notified
  cases hl : reg.lookup m with
  | none => rfl
  | some g =>
      show reg.setSignal g ((reg.signal g).fire true).2 = reg
      rw [Signal.fire_of_closed (h g hl), setSignal_signal]

-- ======================================================= one delivery

theorem notified_entries (reg : Registry) (m : String) :
    (reg.notified m).entries = reg.entries := by
  unfold Registry.notified
  split <;> rfl

theorem notified_streams (reg : Registry) (m : String) :
    (reg.notified m).streams = reg.streams := by
  unfold Registry.notified
  split <;> rfl

theorem notified_length (reg : Registry) (m : String) :
    (reg.notified m).signals.length = reg.signals.length := by
  unfold Registry.notified
  split
  · exact fire_length true
  · rfl

theorem notified_lookup (reg : Registry) (m m' : String) :
    (reg.notified m).lookup m' = reg.lookup m' := by
  unfold lookup
  rw [notified_entries]

/-- A delivery fires the signal under its machine, and no other. -/
theorem notified_signal (reg : Registry) (m : String) (k : Nat) :
    (reg.notified m).signal k
      = if reg.lookup m = some k ∧ k < reg.signals.length then
          ((reg.signal k).fire true).2
        else reg.signal k := by
  unfold Registry.notified
  cases hl : reg.lookup m with
  | none => rw [if_neg (fun h => by cases h.1)]
  | some g =>
      show (reg.fire g true).2.signal k = _
      rw [fire_signal]
      by_cases hk : k = g
      · subst hk
        simp only [true_and]
      · rw [if_neg (fun h => hk h.1),
          if_neg (fun h => hk (Option.some.inj h.1).symm)]

/-- No delivery opens a signal again. -/
theorem isClosed_notified (h : (reg.signal k).isClosed = true)
    (m : String) : ((reg.notified m).signal k).isClosed = true := by
  rw [notified_signal]
  split
  · exact Signal.isClosed_fire _
  · exact h

/-- A delivery leaves the machine without a signal to fire. -/
theorem spent_notified
    (hb : ∀ g, reg.lookup m = some g → g < reg.signals.length) :
    (reg.notified m).Spent m := by
  intro g hl
  rw [notified_lookup] at hl
  rw [notified_signal, if_pos ⟨hl, hb g hl⟩]
  exact Signal.isClosed_fire _

theorem Spent.other (h : reg.Spent m) (m' : String) :
    (reg.notified m').Spent m := by
  intro g hl
  rw [notified_lookup] at hl
  exact isClosed_notified (h g hl) m'

-- ================================================ a number of deliveries

/-- What becomes of a replica's signals when it is told of machines, one
after the other. -/
def toldAll (reg : Registry) (ids : List String) : Registry :=
  ids.foldl Registry.notified reg

/-- Does signal `k` stand under one of some machines? -/
def Meant (reg : Registry) (ids : List String) (k : Nat) : Prop :=
  k < reg.signals.length ∧ ∃ m ∈ ids, reg.lookup m = some k

/-- A registry in which the signals of some machines have been fired. -/
structure FiredFor (reg : Registry) (ids : List String)
    (reg' : Registry) : Prop where
  entries : reg'.entries = reg.entries
  streams : reg'.streams = reg.streams
  length : reg'.signals.length = reg.signals.length
  fired : ∀ k, reg.Meant ids k →
    reg'.signal k = ((reg.signal k).fire true).2
  others : ∀ k, ¬ reg.Meant ids k → reg'.signal k = reg.signal k

theorem meant_notified (ids : List String) :
    (reg.notified m).Meant ids k ↔ reg.Meant ids k := by
  unfold Meant
  simp only [notified_length, notified_lookup]

theorem meant_cons (ids : List String) :
    reg.Meant (m :: ids) k
      ↔ (reg.lookup m = some k ∧ k < reg.signals.length)
        ∨ reg.Meant ids k := by
  unfold Meant
  simp only [List.mem_cons, exists_eq_or_imp]
  constructor
  · rintro ⟨hk, hl | hids⟩
    · exact Or.inl ⟨hl, hk⟩
    · exact Or.inr ⟨hk, hids⟩
  · rintro (⟨hl, hk⟩ | ⟨hk, hids⟩)
    · exact ⟨hk, Or.inl hl⟩
    · exact ⟨hk, Or.inr hids⟩

theorem notified_all (reg : Registry) (ids : List String) :
    FiredFor reg ids (reg.toldAll ids) := by
  induction ids generalizing reg with
  | nil =>
      refine ⟨rfl, rfl, rfl, ?_, fun _ _ => rfl⟩
      rintro k ⟨-, m, hm, -⟩
      cases hm
  | cons m ids ih =>
      have hrest := ih (reg.notified m)
      have hhere := notified_signal reg m
      refine ⟨hrest.entries.trans (notified_entries reg m),
        hrest.streams.trans (notified_streams reg m),
        hrest.length.trans (notified_length reg m), ?_, ?_⟩
      · intro k hk
        show ((reg.notified m).toldAll ids).signal k = _
        by_cases hids : reg.Meant ids k
        · -- fired by the rest, and perhaps here as well
          rw [hrest.fired k ((meant_notified ids).mpr hids), hhere]
          split
          · exact Signal.fire_of_closed (Signal.isClosed_fire _) true
          · rfl
        · rcases (meant_cons ids).mp hk with hm | hm
          · rw [hrest.others k (fun h => hids ((meant_notified ids).mp h)),
              hhere, if_pos hm]
          · exact absurd hm hids
      · intro k hk
        show ((reg.notified m).toldAll ids).signal k = _
        rw [meant_cons, not_or] at hk
        rw [hrest.others k (fun h => hk.2 ((meant_notified ids).mp h)),
          hhere, if_neg hk.1]

theorem eq_of_signal (he : reg'.entries = reg.entries)
    (hs : reg'.streams = reg.streams)
    (hl : reg'.signals.length = reg.signals.length)
    (hsig : ∀ k, reg'.signal k = reg.signal k) : reg' = reg := by
  have hlist : reg'.signals = reg.signals := by
    apply List.ext_getElem hl
    intro k hk hk'
    have h := hsig k
    unfold signal at h
    rw [List.getD_eq_getElem _ _ hk, List.getD_eq_getElem _ _ hk'] at h
    exact h
  cases reg
  cases reg'
  cases he
  cases hs
  cases hlist
  rfl

/-- Only the set of the machines that were told of matters. -/
theorem toldAll_eq {ids ids' : List String} (h : ∀ m, m ∈ ids ↔ m ∈ ids')
    (reg : Registry) : reg.toldAll ids = reg.toldAll ids' := by
  have hl := notified_all reg ids
  have hr := notified_all reg ids'
  refine eq_of_signal (hl.entries.trans hr.entries.symm)
    (hl.streams.trans hr.streams.symm) (hl.length.trans hr.length.symm) ?_
  intro k
  have hmeant : reg.Meant ids k ↔ reg.Meant ids' k := by
    unfold Meant
    simp only [h]
  by_cases hk : reg.Meant ids k
  · rw [hl.fired k hk, hr.fired k (hmeant.mp hk)]
  · rw [hl.others k hk, hr.others k (fun hk' => hk (hmeant.mpr hk'))]

-- =========================================== what else happens to signals

theorem isClosed_close_signal (h : (reg.signal k).isClosed = true)
    (n : Nat) : ((reg.close n).signal k).isClosed = true := by
  rw [close_signal]
  split
  · exact Signal.isClosed_close _
  · exact h

theorem Spent.close (h : reg.Spent m) (n : Nat) : (reg.close n).Spent m :=
  fun g hl => isClosed_close_signal (h g hl) n

theorem Spent.remove (h : reg.Spent m) (m' : String) :
    (reg.remove m').Spent m := by
  rcases reg.remove_cases m' with ⟨-, hr⟩ | ⟨n, -, hr⟩
  · rw [hr]
    exact h
  · intro g hl
    rw [hr] at hl ⊢
    refine isClosed_close_signal (h g ?_) n
    change (reg.entries.erase m').get? m = some g at hl
    rw [Table.get?_erase] at hl
    split at hl
    · cases hl
    · exact hl

theorem Spent.release (h : reg.Spent m) (a : Registration) :
    (reg.release a).Spent m := by
  intro g hl
  rw [release_lookup] at hl
  split at hl
  · cases hl
  · have hg := h g hl
    rw [release_signal]
    split
    · rename_i hk
      rw [hk.1] at hg
      exact lowered_closed hg
    · exact hg

/-- Registering for one machine leaves what stands under another. -/
theorem Spent.register (h : reg.Spent m) {a : Registration}
    (hreg : reg.register m' = (.ok a, reg')) (hm : m ≠ m') :
    reg'.Spent m := by
  intro g hl
  rcases (register_ok hreg).2 with ⟨-, -, -, hj⟩ | ⟨-, -, hi⟩
  · unfold lookup at hl
    rw [hj.entries] at hl
    unfold Signal.isClosed
    rw [hj.state]
    exact h g hl
  · unfold lookup at hl
    rw [hi.entries, Table.get?_set, if_neg hm.symm] at hl
    have hg := h g hl
    rw [hi.others g (Nat.ne_of_lt (lt_of_isClosed hg))]
    exact hg

end Registry

-- ============================================================ deliveries

/-- What tells a replica of machines. -/
inductive Delivery
  /-- The bus hands a message over to the handler of a subscription. -/
  | message (subscription : String) (payload : Json)
  /-- A notifier is told of a machine directly. -/
  | direct (subscription machine : String)

namespace Delivery

/-- The machine that a delivery tells of; a message that cannot be read
tells of none. -/
def machine? : Delivery → Option String
  | message _ payload => Fleet.told? payload
  | direct _ m => some m

def run : Delivery → Local → Local
  | message name payload, l => (Notifier.handle name payload l).2
  | direct name m, l => (Notifier.wake name m l).2

/-- The deliveries of a row, one after the other. -/
def runAll (ds : List Delivery) (l : Local) : Local :=
  ds.foldl (fun l d => d.run l) l

theorem run_registry (d : Delivery) (l : Local) :
    (d.run l).registry = l.registry.toldAll d.machine?.toList := by
  cases d with
  | direct name m => exact (Fleet.wake_registry name m l).1
  | message name payload =>
      show (Notifier.handle name payload l).2.registry
        = l.registry.toldAll ((Json.decode? AllocationEvent.form.read
          payload).map AllocationEvent.machineId).toList
      unfold Notifier.handle
      cases Json.decode? AllocationEvent.form.read payload with
      | none => rfl
      | some event => exact (Fleet.wake_registry name event.machineId l).1

theorem runAll_registry (ds : List Delivery) (l : Local) :
    (runAll ds l).registry
      = l.registry.toldAll (ds.filterMap machine?) := by
  induction ds generalizing l with
  | nil => rfl
  | cons d ds ih =>
      show (runAll ds (d.run l)).registry = _
      rw [ih, run_registry, List.filterMap_cons]
      cases d.machine? <;> rfl

end Delivery

namespace Fleet

variable {s : Setting} {f g : Fleet} {e : Event} {h p : History}
  {r : Nat} {m : String} {reg : Registry}

/-- In an event the handler of replica `r` runs on a message that tells
of machine `m`: one on its way, or one that was published before and
comes again. -/
inductive Handles (f : Fleet) (r : Nat) (m : String) : Event → Prop
  | delivered {k n : Nat} {x : Envelope} {other : DeliveryEnd}
      (hk : f.deliveries[k]? = some (n, x))
      (hr : f.handlers[n]? = some (some r))
      (hm : told? x.payload = some m) :
      Handles f r m (.aside (.deliver k other))
  | redelivered {k : Nat} {name : String} {payload : Json}
      (hk : f.posted[k]? = some (f.topic, payload))
      (hm : told? payload = some m) :
      Handles f r m (.aside (.redeliver r name k))

/-- The handler fires the signal under the machine, and no event beside
it touches another signal. -/
theorem Handles.registries (hh : Handles f r m e) :
    (f.step e).registries
      = Function.update f.registries r ((f.registries r).notified m) := by
  have hheard : ∀ {f' : Fleet} {payload : Json},
      f'.registries = f.registries → told? payload = some m →
      (f'.heard r payload).registries
        = Function.update f.registries r ((f.registries r).notified m) := by
    intro f' payload hreg hm
    unfold heard
    rw [hm, ← hreg]
    rfl
  cases hh with
  | @delivered k n x other hk hr hm =>
      rcases f.deliver_cases k other with ⟨hnone, -⟩ | ⟨n', x', hk', hg⟩
      · cases hnone.symm.trans hk
      · cases hk.symm.trans hk'
        obtain ⟨a, -, hg⟩ := hg
        show (f.deliver k other).registries = _
        rw [hg, ← hheard rfl hm, ← received_heard hr]
  | @redelivered k name payload hk hm =>
      have hstep : f.step (.aside (.redeliver r name k))
          = (f.handle r name payload).2 := by
        simp only [step, happen, hk, if_true]
      obtain ⟨a, -, hg⟩ := f.handle_still r name payload
      rw [hstep, hg, ← hheard rfl hm]

/-- What is told of is allocated. -/
theorem Handles.allocated (hh : Handles (after s h) r m e) :
    (after s h).Allocated m := by
  have ht := (sound s h).tidings
  have hnews : ∀ {payload}, News (after s h) payload →
      told? payload = some m → (after s h).Allocated m := by
    rintro payload ⟨m', rfl, ha⟩ hm
    rw [told_payload] at hm
    cases hm
    exact ha
  cases hh with
  | delivered hk hr hm =>
      obtain ⟨sub, hsub, htopic⟩ := ht.handled _ _ hr
      exact hnews (ht.underway _ sub _ (List.mem_of_getElem? hk) hsub
        htopic) hm
  | redelivered hk hm =>
      exact hnews (ht.posted _ (List.mem_of_getElem? hk)) hm

/-- Taking hold, keeping and letting go leave a machine without a signal
to fire, unless it is the one registered for. -/
theorem Grip.spent {m' : String} {reg' : Registry}
    {before later : Option Registration}
    (hgrip : Grip m' reg reg' before later) (hs : reg.Spent m)
    (hm : ∀ a, before = none → later = some a → a.machine ≠ m) :
    reg'.Spent m := by
  cases hgrip with
  | free => exact hs
  | kept => exact hs
  | taken hreg =>
      have hne := hm _ rfl rfl
      rw [(Registry.register_ok hreg).1] at hne
      exact hs.register hreg hne.symm
  | released => exact hs.release _

/-- No event gives an allocated machine a signal that can be fired. -/
theorem spent_step (hc : Cooperative s (e :: h))
    (ha : (after s (e :: h)).Allocated m)
    (hs : ((after s h).registries r).Spent m) :
    ((after s (e :: h)).registries r).Spent m := by
  have hsig := signalled (after s h) e r
  rw [← after_cons] at hsig
  generalize (after s (e :: h)).registries r = reg at hsig
  cases hsig with
  | same => exact hs
  | heard => exact hs.other _
  | removed => exact hs.remove _
  | closed => exact hs.close _
  | gripped hi hi' hr hgrip =>
      refine hgrip.spent hs ?_
      rintro a hfree hhold rfl
      -- a call that takes hold of a signal now would be too late
      refine enters_before hc ?_ hi' hhold ha
      intro y hy
      cases hy.symm.trans hi
      exact hfree

/-- From the first delivery on. -/
theorem spent (hc : Cooperative s h) (hp : (e :: p) <:+ h)
    (he : Handles (after s p) r m e) :
    (after s h).Allocated m ∧ ((after s h).registries r).Spent m := by
  induction h with
  | nil => cases List.suffix_nil.mp hp
  | cons e' h ih =>
      rcases List.suffix_cons_iff.mp hp with heq | hp'
      · cases heq
        refine ⟨allocated_step e he.allocated, ?_⟩
        rw [after_cons, he.registries, Function.update_self]
        exact Registry.spent_notified fun g hg =>
          (sound s p).wakes.bounded r g m (Or.inl hg)
      · obtain ⟨ha, hs⟩ := ih (hc.before (List.suffix_cons e' h)) hp'
        have ha' := allocated_step e' ha
        exact ⟨ha', spent_step hc ha' hs⟩

-- ============================================================ no harm done

/-- What a delivery that tells replica `r` of machine `m` does now:
nothing. -/
structure Harmless (s : Setting) (h : History) (r : Nat) (m : String) :
    Prop where
  /-- A notifier on the replica's signals says that nobody was woken, -/
  silent : ∀ name ambient,
    (Notifier.wake name m ⟨(after s h).registries r, ambient⟩).1 = false
  /-- and neither it nor a handler changes an entry or a signal; -/
  still : ∀ d ambient, Delivery.machine? d = some m →
    (d.run ⟨(after s h).registries r, ambient⟩).registry
      = (after s h).registries r
  /-- and no event in which the handler runs does. -/
  events : ∀ e, Handles (after s h) r m e →
    (after s (e :: h)).registries = (after s h).registries

theorem Harmless.of_spent (hs : ((after s h).registries r).Spent m) :
    Harmless s h r m where
  silent name ambient := by
    unfold Notifier.wake
    cases hl : ((after s h).registries r).lookup m with
    | none => rfl
    | some g =>
        show (((after s h).registries r).fire g true).1 = false
        exact Signal.fire_wakes (hs g hl)
  still d ambient hd := by
    rw [Delivery.run_registry, hd]
    exact hs.notified
  events e he := by
    rw [after_cons, he.registries, hs.notified, Function.update_eq_self]

/-- A delivery that comes again does nothing, and a row of deliveries
does what its machines, as a set, say. -/
theorem duplicates_harmless (hc : Cooperative s h) :
    (∀ e p r m, (e :: p) <:+ h → Handles (after s p) r m e →
      Harmless s h r m)
    ∧ ∀ (l l' : Local) (ds ds' : List Delivery),
      l.registry = l'.registry →
      (∀ m, m ∈ ds.filterMap Delivery.machine?
        ↔ m ∈ ds'.filterMap Delivery.machine?) →
      (Delivery.runAll ds l).registry
        = (Delivery.runAll ds' l').registry := by
  constructor
  · intro e p r m hp he
    exact Harmless.of_spent (spent hc hp he).2
  · intro l l' ds ds' hreg hids
    rw [Delivery.runAll_registry, Delivery.runAll_registry, hreg]
    exact Registry.toldAll_eq hids _

/-- A machine waits, is allocated and has its message handled. -/
def roused : History :=
  [.aside (.deliver 0 .handled), .aside (.turn 0), .aside (.turn 0),
    .step 2 (.serve 0), .step 2 (.serve 0), .step 2 (.serve 0),
    .submit 0 labRetry "m" (.allocate
      { project := "a", hostname := "h", image := "i" }),
    .step 1 (.serve 1), .step 1 (.serve 1), .step 1 (.serve 1),
    .step 1 (.serve 1), .await 0 "n" ⟨⟨5⟩, ⟨9⟩⟩ labRetry "m",
    .aside (.listen 0 "n" ⟨1, ⟨9⟩, ⟨1000⟩⟩),
    .step 0 (.serve 0), .step 0 (.serve 0),
    .submit 0 labRetry "m" (.register {})]

/-- The first delivery woke the call, and no other does anything. -/
theorem duplicates_harmless_roused :
    Cooperative lab roused
      ∧ (((after lab roused).registries 0).signal 0).state = .allocated
      ∧ Harmless lab roused 0 "m" :=
  have hc : Cooperative lab roused :=
    fun e p i hp hi => prompt_of_promptly (by rfl) hp hi.urgent
  ⟨hc, rfl, (duplicates_harmless hc).1 _ _ 0 "m" (List.suffix_refl _)
    (.delivered rfl rfl rfl)⟩

/-- The same, but the call registers only when all is over. -/
def overtaken : History :=
  [.step 1 (.serve 1),
    .aside (.deliver 0 .handled), .aside (.turn 0), .aside (.turn 0),
    .step 2 (.serve 0), .step 2 (.serve 0), .step 2 (.serve 0),
    .submit 0 labRetry "m" (.allocate
      { project := "a", hostname := "h", image := "i" }),
    .step 1 (.serve 1), .step 1 (.serve 1), .step 1 (.serve 1),
    .await 0 "n" ⟨⟨5⟩, ⟨9⟩⟩ labRetry "m",
    .aside (.listen 0 "n" ⟨1, ⟨9⟩, ⟨1000⟩⟩),
    .step 0 (.serve 0), .step 0 (.serve 0),
    .submit 0 labRetry "m" (.register {})]

/-- Where something may come between the mark and the registration, a
second delivery can wake a call. -/
theorem woken_again :
    ¬ ∀ (s : Setting) (h : History),
      ∀ e p r m, (e :: p) <:+ h → Handles (after s p) r m e →
        Harmless s h r m := by
  intro hall
  have hquiet := (hall lab overtaken _ _ 0 "m" (List.suffix_cons _ _)
    (.delivered rfl rfl rfl)).silent "n"
    (after lab overtaken).ambient
  have hwoken : (Notifier.wake "n" "m"
      ⟨(after lab overtaken).registries 0,
        (after lab overtaken).ambient⟩).1 = true := rfl
  cases hquiet.symm.trans hwoken

end Fleet

end ControlPlane
