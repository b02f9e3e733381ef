/-
What the operations on a replica's signals do, seen through `lookup`
(which signal stands under a machine) and `signal` (what it says and how
many hold it). Every operation changes at most one signal and one entry,
so each gets one lemma for either view.

Chain: the base layer below Fleet/Waits.lean; consumed by
Fleet/Tenancy.lean for the machine of a signal and by Fleet/Holds.lean
for its holders.
-/
import ControlPlane.Wake.Registry

namespace ControlPlane

namespace Signal

-- ======================================================= one signal

theorem close_holders (s : Signal) : s.close.holders = s.holders := by
  unfold close advance
  split <;> rfl

/-- Closing makes no signal say that its machine is allocated. -/
theorem close_allocated (s : Signal) :
    s.close.state = .allocated ↔ s.state = .allocated := by
  unfold close advance
  cases h : s.state <;> simp [Wake.isFinal, h]

theorem fire_holders (s : Signal) (allocated : Bool) :
    (s.fire allocated).2.holders = s.holders := by
  simp only [fire, advance]
  split <;> rfl

/-- Firing for an allocation leaves a signal that says so, unless it
was closed. -/
theorem fire_state (s : Signal) :
    (s.fire true).2.state
      = if s.state = .closed then .closed else .allocated := by
  simp only [fire, advance]
  cases h : s.state <;> simp [Wake.isFinal, h]

/-- A final signal stays as it is. -/
theorem fire_of_closed {s : Signal} (h : s.isClosed = true)
    (allocated : Bool) : (s.fire allocated).2 = s := by
  unfold isClosed at h
  simp only [fire, advance, h, if_true]

theorem isClosed_fire (s : Signal) :
    (s.fire true).2.isClosed = true := by
  unfold isClosed
  rw [fire_state]
  split <;> rfl

/-- Firing a final signal wakes nobody. -/
theorem fire_wakes {s : Signal} (h : s.isClosed = true) :
    (s.fire true).1 = false := by
  unfold isClosed at h
  simp only [fire, advance, h, if_true, Bool.false_and]

theorem isClosed_close (s : Signal) : s.close.isClosed = true := by
  unfold close advance isClosed
  cases h : s.state <;> simp [Wake.isFinal, h]

theorem acquire_state (s : Signal) : s.acquire.2.state = s.state := rfl

theorem acquire_holders (s : Signal) :
    s.acquire.2.holders = s.holders + 1 := rfl

end Signal

namespace Registry

variable {r : Registry} {m : String} {g k : Nat}

-- ============================================== replacing one signal

@[simp] theorem setSignal_entries (s : Signal) :
    (r.setSignal g s).entries = r.entries := rfl

@[simp] theorem setSignal_length (s : Signal) :
    (r.setSignal g s).signals.length = r.signals.length :=
  List.length_set

theorem signal_setSignal (s : Signal) :
    (r.setSignal g s).signal k
      = if k = g ∧ g < r.signals.length then s else r.signal k := by
  unfold signal setSignal
  rw [List.getD_eq_getElem?_getD, List.getElem?_set]
  by_cases hk : g = k
  · subst hk
    by_cases hg : g < r.signals.length
    · simp [hg]
    · simp [hg]
  · rw [if_neg hk, if_neg (fun h => hk h.1.symm),
      List.getD_eq_getElem?_getD]

-- ====================================================== registering

/-- A registry in which `m` has just got signal number `g`, its own and
new: the only holder is the newcomer. -/
structure Issued (r : Registry) (m : String) (r' : Registry) : Prop where
  entries : r'.entries = r.entries.set m r.signals.length
  length : r'.signals.length = r.signals.length + 1
  fresh : (r'.signal r.signals.length).state = .pending
  held : (r'.signal r.signals.length).holders = 1
  others : ∀ k, k ≠ r.signals.length → r'.signal k = r.signal k

/-- A registry in which signal `g` has one more holder. -/
structure Joined (r : Registry) (g : Nat) (r' : Registry) : Prop where
  entries : r'.entries = r.entries
  length : r'.signals.length = r.signals.length
  state : ∀ k, (r'.signal k).state = (r.signal k).state
  held : g < r.signals.length →
    (r'.signal g).holders = (r.signal g).holders + 1
  others : ∀ k, k ≠ g → r'.signal k = r.signal k

theorem signal_of_length_le (h : r.signals.length ≤ g) :
    r.signal g = {} := by
  unfold signal
  rw [List.getD_eq_getElem?_getD, List.getElem?_eq_none h]
  rfl

theorem lt_of_isClosed (h : (r.signal g).isClosed = true) :
    g < r.signals.length := by
  by_cases hg : g < r.signals.length
  · exact hg
  · rw [signal_of_length_le (Nat.le_of_not_lt hg)] at h
    cases h

theorem hold_joined (r : Registry) (m : String) (g : Nat) :
    Joined r g (r.hold m g).2 where
  entries := rfl
  length := setSignal_length _
  state k := by
    show ((r.setSignal g (r.signal g).acquire.2).signal k).state = _
    rw [signal_setSignal]
    split
    · rename_i hk
      rw [Signal.acquire_state, hk.1]
    · rfl
  held hg := by
    show ((r.setSignal g (r.signal g).acquire.2).signal g).holders = _
    rw [signal_setSignal, if_pos ⟨rfl, hg⟩, Signal.acquire_holders]
  others k hk := by
    show (r.setSignal g (r.signal g).acquire.2).signal k = _
    rw [signal_setSignal, if_neg (fun h => hk h.1)]

theorem issue_signal (r : Registry) (m : String) (k : Nat) :
    (r.issue m).2.signal k = r.signal k := by
  show (r.signals ++ [({} : Signal)]).getD k {} = r.signals.getD k {}
  rw [List.getD_eq_getElem?_getD, List.getD_eq_getElem?_getD]
  by_cases hk : k < r.signals.length
  · rw [List.getElem?_append_left hk]
  · rw [List.getElem?_append_right (by omega),
      List.getElem?_eq_none (by omega : r.signals.length ≤ k)]
    cases k - r.signals.length with
    | zero => rfl
    | succ n => rfl

theorem issue_hold_issued (r : Registry) (m : String) :
    Issued r m ((r.issue m).2.hold m (r.issue m).1).2 := by
  have hj := hold_joined (r.issue m).2 m (r.issue m).1
  have hlen : (r.issue m).2.signals.length = r.signals.length + 1 := by
    show (r.signals ++ [({} : Signal)]).length = _
    rw [List.length_append]
    rfl
  have hnew : r.signal r.signals.length = {} :=
    signal_of_length_le (Nat.le_refl _)
  refine ⟨hj.entries, hj.length.trans hlen, ?_, ?_, ?_⟩
  · rw [hj.state, issue_signal, hnew]
  · have h := hj.held (by rw [hlen]; exact Nat.lt_succ_self _)
    rw [issue_signal] at h
    exact h.trans (by rw [show (r.issue m).1 = r.signals.length from rfl,
      hnew])
  · intro k hk
    rw [hj.others k hk, issue_signal]

/-- Registering fails on a signal that was closed under a holder, joins
one that somebody holds, and issues a new one otherwise. -/
theorem register_cases (r : Registry) (m : String) :
    (∃ g, r.lookup m = some g ∧ (r.signal g).holders ≠ 0
        ∧ (r.signal g).state = .closed
        ∧ r.register m = (.error (.closed m), r))
      ∨ (∃ g reg r', r.lookup m = some g ∧ (r.signal g).holders ≠ 0
        ∧ (r.signal g).state ≠ .closed
        ∧ r.register m = (.ok reg, r') ∧ reg.machine = m
        ∧ reg.generation = g ∧ Joined r g r')
      ∨ ∃ reg r', (∀ g, r.lookup m = some g → (r.signal g).holders = 0)
        ∧ r.register m = (.ok reg, r') ∧ reg.machine = m
        ∧ reg.generation = r.signals.length ∧ Issued r m r' := by
  unfold register
  cases hl : r.lookup m with
  | none =>
      refine Or.inr (Or.inr ⟨_, _, ?_, rfl, rfl, rfl,
        issue_hold_issued r m⟩)
      intro g hg
      cases hg
  | some g =>
      by_cases hh : (r.signal g).holders = 0
      · simp only [if_pos hh]
        refine Or.inr (Or.inr ⟨_, _, ?_, rfl, rfl, rfl,
          issue_hold_issued r m⟩)
        intro g' hg'
        cases hg'
        exact hh
      · by_cases hc : (r.signal g).state = .closed
        · simp only [if_neg hh, if_pos hc]
          exact Or.inl ⟨g, rfl, hh, hc, trivial⟩
        · simp only [if_neg hh, if_neg hc]
          exact Or.inr (Or.inl ⟨g, _, _, rfl, hh, hc, rfl, rfl, rfl,
            hold_joined r m g⟩)

/-- A registration is for the machine, and joins its signal or got a new
one. -/
theorem register_ok {a : Registration} {r' : Registry}
    (h : r.register m = (.ok a, r')) :
    a.machine = m
      ∧ ((r.lookup m = some a.generation
          ∧ (r.signal a.generation).holders ≠ 0
          ∧ (r.signal a.generation).state ≠ .closed
          ∧ Joined r a.generation r')
        ∨ ((∀ g, r.lookup m = some g → (r.signal g).holders = 0)
          ∧ a.generation = r.signals.length ∧ Issued r m r')) := by
  rcases r.register_cases m with
    ⟨g, -, -, -, hr⟩ | ⟨g, b, t, hl, hh, hs, hr, hm, rfl, hj⟩
      | ⟨b, t, hl, hr, hm, hg, hi⟩
  · rw [hr] at h
    cases h
  · rw [hr] at h
    cases h
    exact ⟨hm, Or.inl ⟨hl, hh, hs, hj⟩⟩
  · rw [hr] at h
    cases h
    exact ⟨hm, Or.inr ⟨hl, hg, hi⟩⟩

theorem register_streams {a : Registration} {r' : Registry}
    (h : r.register m = (.ok a, r')) :
    r'.streams.getD 0 = r.streams.getD 0 + 1 := by
  unfold register at h
  split at h
  · split at h
    · cases h
      rfl
    · split at h
      · cases h
      · cases h
        rfl
  · cases h
    rfl

/-- A holder that takes note of its signal keeps it. -/
theorem woken_same {a b : Registration} {wake : Wake}
    (h : r.woken a = some (wake, b)) :
    b.machine = a.machine ∧ b.generation = a.generation := by
  simp only [woken] at h
  split at h
  · cases h
  · cases h
    exact ⟨rfl, rfl⟩

-- ======================================================== letting go

/-- A signal with one holder less; without holders it is closed. -/
def lowered (r : Registry) (g : Nat) : Signal :=
  if (r.signal g).holders - 1 = 0 then
    ({ r.signal g with holders := (r.signal g).holders - 1 } : Signal).close
  else { r.signal g with holders := (r.signal g).holders - 1 }

theorem lowered_holders (r : Registry) (g : Nat) :
    (r.lowered g).holders = (r.signal g).holders - 1 := by
  unfold lowered
  split
  · exact Signal.close_holders _
  · rfl

/-- Letting go makes no signal say that its machine is allocated. -/
theorem lowered_allocated (r : Registry) (g : Nat) :
    (r.lowered g).state = .allocated
      ↔ (r.signal g).state = .allocated := by
  unfold lowered
  split
  · exact Signal.close_allocated _
  · rfl

/-- A signal that others hold says what it said. -/
theorem lowered_state {r : Registry} {g : Nat}
    (h : (r.signal g).holders - 1 ≠ 0) :
    (r.lowered g).state = (r.signal g).state := by
  unfold lowered
  rw [if_neg h]

theorem lowered_closed (h : (r.signal g).isClosed = true) :
    (r.lowered g).isClosed = true := by
  unfold lowered
  split
  · exact Signal.isClosed_close _
  · exact h

/-- The last holder leaves a final signal. -/
theorem lowered_last (h : (r.signal g).holders - 1 = 0) :
    (r.lowered g).isClosed = true := by
  unfold lowered
  rw [if_pos h]
  exact Signal.isClosed_close _

theorem release_streams (r : Registry) (reg : Registration) :
    (r.release reg).streams = some (r.streams.getD 0 - 1) := by
  simp only [release]
  split
  · split <;> rfl
  · rfl

theorem release_signals (r : Registry) (reg : Registration) :
    (r.release reg).signals
      = r.signals.set reg.generation (r.lowered reg.generation) := by
  by_cases hh : (r.signal reg.generation).holders - 1 = 0
  · by_cases hl : r.lookup reg.machine = some reg.generation
    · have hl' : r.entries.get? reg.machine = some reg.generation := hl
      simp [release, lowered, setSignal, lookup, hh, hl', List.set_set]
    · have hl' : ¬ r.entries.get? reg.machine = some reg.generation := hl
      simp [release, lowered, setSignal, lookup, hh, hl', List.set_set]
  · simp [release, lowered, setSignal, hh]

/-- Letting go lowers the signal, and no other. -/
theorem release_signal (r : Registry) (reg : Registration) (k : Nat) :
    (r.release reg).signal k
      = if k = reg.generation ∧ reg.generation < r.signals.length then
          r.lowered reg.generation
        else r.signal k := by
  unfold signal
  rw [release_signals]
  exact signal_setSignal (r := r) (g := reg.generation) _

theorem release_length (r : Registry) (reg : Registration) :
    (r.release reg).signals.length = r.signals.length := by
  rw [release_signals, List.length_set]

/-- The entry goes with the last holder, if it is still this signal's. -/
theorem release_lookup (r : Registry) (reg : Registration) (m : String) :
    (r.release reg).lookup m
      = if (r.signal reg.generation).holders - 1 = 0
          ∧ r.lookup reg.machine = some reg.generation
          ∧ reg.machine = m
        then none else r.lookup m := by
  unfold release
  by_cases hh : (r.signal reg.generation).holders - 1 = 0
  · by_cases hl : r.entries.get? reg.machine = some reg.generation
    · simp [hh, hl, lookup]
    · simp [hh, hl, lookup]
  · simp [hh, lookup]

-- =================================================== firing, removing

@[simp] theorem fire_entries (allocated : Bool) :
    (r.fire g allocated).2.entries = r.entries := rfl

@[simp] theorem fire_length (allocated : Bool) :
    (r.fire g allocated).2.signals.length = r.signals.length :=
  setSignal_length _

theorem fire_signal (allocated : Bool) :
    (r.fire g allocated).2.signal k
      = if k = g ∧ g < r.signals.length then
          ((r.signal g).fire allocated).2
        else r.signal k :=
  signal_setSignal _

@[simp] theorem close_entries : (r.close g).entries = r.entries := rfl

@[simp] theorem close_length :
    (r.close g).signals.length = r.signals.length :=
  setSignal_length _

theorem close_signal :
    (r.close g).signal k
      = if k = g ∧ g < r.signals.length then (r.signal g).close
        else r.signal k :=
  signal_setSignal _

/-- Taking an entry away closes its signal and no other. -/
theorem remove_cases (r : Registry) (m : String) :
    (r.lookup m = none ∧ r.remove m = r)
      ∨ ∃ g, r.lookup m = some g
        ∧ r.remove m = { r.close g with entries := r.entries.erase m } := by
  unfold remove
  cases h : r.lookup m with
  | none => exact Or.inl ⟨rfl, rfl⟩
  | some g => exact Or.inr ⟨g, rfl, rfl⟩

end Registry

end ControlPlane
