/-
How many calls hold a signal. A signal counts its own holders, and the
registry goes by the count: the last one to let go closes the signal and
takes its entry away, and whoever registers next gets a new one. The
count is right (`Kept.counted`), so a signal that a call holds stands
under the call's machine and is open, and firing what stands there
reaches every call that waits for the machine.

# What would break it

Nobody but the calls may take an entry away or close a signal: a call
that holds it would be left behind, with a signal that is never fired.
The histories meant here are those without such events
(`Event.meddles`), on one replica or on all.

Chain: over WakeSoundness.lean, for the machine of a signal; consumed by
NoLostWakeup.lean and Releases.lean.
-/
import ControlPlane.Proofs.WakeSoundness

namespace ControlPlane.Fleet

variable {s : Setting} {f g : Fleet} {h : History} {i j k r : Nat}
  {m m' : String} {x x' : Slot} {a : Registration} {payload : Json}

/-- Does an event take signals away from those who hold them? -/
def Event.meddles : Event → Bool
  | aside (.remove _ _) | aside (.close _ _) => true
  | _ => false

/-- Does an event take signals of replica `r` away? -/
def Event.meddlesWith (r : Nat) : Event → Bool
  | aside (.remove i _) | aside (.close i _) => i == r
  | _ => false

theorem Event.meddlesWith_of_tame {e : Event} (h : e.meddles = false)
    (r : Nat) : e.meddlesWith r = false := by
  unfold meddles at h
  unfold meddlesWith
  split
  · cases h
  · cases h
  · rfl

-- ============================================================= the count

/-- Does a call on replica `r` hold signal `k`? -/
def Slot.holds (r k : Nat) (x : Slot) : Bool :=
  decide (x.replica = r) && (x.hold?.map Registration.generation == some k)

/-- How many calls on replica `r` hold signal `k`. -/
def holders (f : Fleet) (r k : Nat) : Nat :=
  f.slots.countP (Slot.holds r k)

theorem holds_iff : x.holds r k = true
    ↔ x.replica = r ∧ ∃ a, x.hold? = some a ∧ a.generation = k := by
  simp only [Slot.holds, Bool.and_eq_true, decide_eq_true_eq, beq_iff_eq,
    Option.map_eq_some_iff]

theorem holders_pos : 0 < f.holders r k ↔ ∃ m, f.Held r k m := by
  unfold holders
  rw [List.countP_pos_iff]
  constructor
  · rintro ⟨x, hx, hh⟩
    obtain ⟨hr, a, ha, hk⟩ := holds_iff.mp hh
    obtain ⟨n, hn⟩ := List.getElem?_of_mem hx
    exact ⟨a.machine, n, x, a, hn, hr, ha, hk, rfl⟩
  · rintro ⟨m, n, x, a, hn, hr, ha, hk, -⟩
    exact ⟨x, List.mem_of_getElem? hn, holds_iff.mpr ⟨hr, a, ha, hk⟩⟩

/-- What a hold counts for signal `k`. -/
def share : Option Registration → Nat → Nat
  | none, _ => 0
  | some a, k => if k = a.generation then 1 else 0

/-- The count after one call has moved. -/
theorem holders_set (hi : f.slots[i]? = some x)
    (hslots : g.slots = f.slots.set i x') (r k : Nat) :
    g.holders r k + (if x.holds r k then 1 else 0)
      = f.holders r k + (if x'.holds r k then 1 else 0) := by
  obtain ⟨hlt, hx⟩ := List.getElem?_eq_some_iff.mp hi
  unfold holders
  rw [hslots, List.countP_set hlt, hx]
  by_cases hh : x.holds r k = true
  · have hpos : 0 < f.slots.countP (Slot.holds r k) :=
      List.countP_pos_iff.mpr ⟨x, List.mem_of_getElem? hi, hh⟩
    rw [if_pos hh]
    omega
  · rw [if_neg hh]
    omega

theorem share_eq (x : Slot) (k : Nat) :
    (if x.holds x.replica k then 1 else 0) = share x.hold? k := by
  simp only [Slot.holds, decide_true, Bool.true_and]
  cases x.hold? with
  | none => rfl
  | some a =>
      have hiff : (a.generation == k) = decide (k = a.generation) := by
        rw [Bool.eq_iff_iff, beq_iff_eq, decide_eq_true_eq, eq_comm]
      simp [share, hiff]

theorem holders_move (hi : f.slots[i]? = some x)
    (hslots : g.slots = f.slots.set i x') (hr : x'.replica = x.replica)
    (k : Nat) : g.holders x.replica k + share x.hold? k
      = f.holders x.replica k + share x'.hold? k := by
  have hc := holders_set hi hslots x.replica k
  rw [share_eq, ← hr, share_eq] at hc
  rw [← hr]
  exact hc

/-- A call counts on its own replica only. -/
theorem holders_elsewhere (hi : f.slots[i]? = some x)
    (hslots : g.slots = f.slots.set i x') (hr : x'.replica = x.replica)
    (hne : r ≠ x.replica) (k : Nat) : g.holders r k = f.holders r k := by
  have hout : ∀ y : Slot, y.replica = x.replica → y.holds r k = false := by
    intro y hy
    refine Bool.eq_false_iff.mpr fun hh => hne ?_
    exact (holds_iff.mp hh).1.symm.trans hy
  have hc := holders_set hi hslots r k
  rw [hout x rfl, hout x' hr] at hc
  exact hc

-- ================================================== signals that are held

/-- The signals of replica `r` know who holds them: each has as many
holders as it counts, stands under the machine that it is held for, and
is open while it is held. -/
structure Kept (f : Fleet) (r : Nat) : Prop where
  counted : ∀ k, k < (f.registries r).signals.length →
    ((f.registries r).signal k).holders = f.holders r k
  entered : ∀ k m, f.Held r k m → (f.registries r).lookup m = some k
  opened : ∀ k m, f.Held r k m →
    ((f.registries r).signal k).state ≠ .closed

/-- Signals that are left alone stay as they are held. -/
theorem Kept.same (hk : Kept f r) (hreg : g.registries r = f.registries r)
    (hheld : ∀ k m, g.Held r k m → f.Held r k m)
    (hcount : ∀ k, g.holders r k = f.holders r k) : Kept g r where
  counted k hlt := by
    rw [hreg] at hlt ⊢
    rw [hcount, hk.counted k hlt]
  entered k m hh := by
    rw [hreg]
    exact hk.entered k m (hheld k m hh)
  opened k m hh := by
    rw [hreg]
    exact hk.opened k m (hheld k m hh)

/-- One more call holds the signal of its machine. -/
theorem Kept.joined (hk : Kept f r)
    (hl : (f.registries r).lookup m = some k)
    (hlt : k < (f.registries r).signals.length)
    (hs : ((f.registries r).signal k).state ≠ .closed)
    (hj : Registry.Joined (f.registries r) k (g.registries r))
    (hheld : ∀ n m', g.Held r n m' → f.Held r n m' ∨ (n = k ∧ m' = m))
    (hcount : ∀ n, g.holders r n
      = f.holders r n + (if n = k then 1 else 0)) : Kept g r where
  counted n hn := by
    rw [hj.length] at hn
    rw [hcount, ← hk.counted n hn]
    by_cases hnk : n = k
    · rw [hnk, if_pos rfl, hj.held hlt]
    · rw [if_neg hnk, hj.others n hnk, Nat.add_zero]
  entered n m' hh := by
    rw [Registry.lookup, hj.entries]
    rcases hheld n m' hh with hh | ⟨rfl, rfl⟩
    · exact hk.entered n m' hh
    · exact hl
  opened n m' hh := by
    rw [hj.state]
    rcases hheld n m' hh with hh | ⟨rfl, rfl⟩
    · exact hk.opened n m' hh
    · exact hs

/-- A call holds a new signal. The one that stood under its machine, if
any, is held by nobody. -/
theorem Kept.issued (hk : Kept f r)
    (hbound : ∀ n m', f.Held r n m' → n < (f.registries r).signals.length)
    (hl : ∀ n, (f.registries r).lookup m = some n →
      ((f.registries r).signal n).holders = 0)
    (hi : Registry.Issued (f.registries r) m (g.registries r))
    (hheld : ∀ n m', g.Held r n m' → f.Held r n m'
      ∨ (n = (f.registries r).signals.length ∧ m' = m))
    (hcount : ∀ n, g.holders r n = f.holders r n
      + (if n = (f.registries r).signals.length then 1 else 0)) :
    Kept g r where
  counted n hn := by
    rw [hi.length] at hn
    rw [hcount]
    by_cases hnk : n = (f.registries r).signals.length
    · -- nobody can have held a signal that was not there
      have hzero : f.holders r n = 0 := by
        refine Nat.eq_zero_of_not_pos fun hpos => ?_
        obtain ⟨m', hh⟩ := holders_pos.mp hpos
        exact absurd (hbound n m' hh) (by omega)
      rw [if_pos hnk, hzero, hnk, hi.held]
    · rw [if_neg hnk, Nat.add_zero, hi.others n hnk,
        hk.counted n (by omega)]
  entered n m' hh := by
    rw [Registry.lookup, hi.entries, Table.get?_set]
    rcases hheld n m' hh with hh | ⟨rfl, rfl⟩
    · -- a signal that is held would have been joined
      have hne : m ≠ m' := by
        rintro rfl
        have hpos : 0 < f.holders r n := holders_pos.mpr ⟨m, hh⟩
        have hzero := hl n (hk.entered n m hh)
        rw [hk.counted n (hbound n m hh)] at hzero
        omega
      rw [if_neg hne]
      exact hk.entered n m' hh
    · rw [if_pos rfl]
  opened n m' hh := by
    rcases hheld n m' hh with hh | ⟨rfl, rfl⟩
    · rw [hi.others n (Nat.ne_of_lt (hbound n m' hh))]
      exact hk.opened n m' hh
    · rw [hi.fresh]
      exact fun hc => by cases hc

/-- A call lets go of its signal. If others hold it, it stays where it
is and open. -/
theorem Kept.released (hk : Kept f r)
    (hbound : ∀ n m', f.Held r n m' → n < (f.registries r).signals.length)
    (hrel : g.registries r = (f.registries r).release a)
    (hheld : ∀ n m', g.Held r n m' → f.Held r n m')
    (hcount : ∀ n, f.holders r n
      = g.holders r n + (if n = a.generation then 1 else 0)) :
    Kept g r := by
  -- a signal that is still held has been held twice
  have hleft : ∀ m', g.Held r a.generation m' →
      ((f.registries r).signal a.generation).holders - 1 ≠ 0 := by
    intro m' hh
    have hpos : 0 < g.holders r a.generation := holders_pos.mpr ⟨m', hh⟩
    have hlt := hbound _ _ (hheld _ _ hh)
    have hc := hcount a.generation
    rw [if_pos rfl] at hc
    rw [hk.counted _ hlt]
    omega
  refine ⟨?_, ?_, ?_⟩
  · intro n hn
    rw [hrel, Registry.release_length] at hn
    have hc := hcount n
    have hn' := hk.counted n hn
    rw [hrel, Registry.release_signal]
    by_cases hna : n = a.generation
    · rw [if_pos ⟨hna, hna ▸ hn⟩, Registry.lowered_holders, ← hna]
      rw [if_pos hna] at hc
      omega
    · rw [if_neg (fun hc => hna hc.1)]
      rw [if_neg hna] at hc
      omega
  · intro n m' hh
    have hl := hk.entered n m' (hheld n m' hh)
    rw [hrel, Registry.release_lookup, if_neg, hl]
    rintro ⟨hzero, hla, rfl⟩
    cases hl.symm.trans hla
    exact hleft _ hh hzero
  · intro n m' hh
    rw [hrel, Registry.release_signal]
    split
    · rename_i hna
      have hn := hna.1
      subst hn
      rw [Registry.lowered_state (hleft m' hh)]
      exact hk.opened _ m' (hheld _ m' hh)
    · exact hk.opened n m' (hheld n m' hh)

-- ======================================================== steps of calls

/-- The signals of a replica know who holds them after a call has taken
hold of one, let go of one, or kept to what it has. -/
theorem Kept.grip (hk : Kept f r) (hw : Wakes f)
    (hi : f.slots[i]? = some x) (hslots : g.slots = f.slots.set i x')
    (hr : x'.replica = x.replica)
    (hgrip : Grip m (f.registries x.replica) (g.registries x.replica)
      x.hold? x'.hold?)
    (hothers : ∀ j, j ≠ x.replica → g.registries j = f.registries j) :
    Kept g r := by
  have hheld : ∀ k m', g.Held r k m' → f.Held r k m'
      ∨ (r = x.replica ∧ ∃ a, x'.hold? = some a
        ∧ a.generation = k ∧ a.machine = m') :=
    fun k m' hh => held_set hi hslots hr hh
  by_cases hrx : r = x.replica
  · subst hrx
    have hbound : ∀ n m', f.Held x.replica n m' →
        n < (f.registries x.replica).signals.length :=
      fun n m' hh => hw.bounded _ n m' (Or.inr hh)
    have hcount := holders_move hi hslots hr
    generalize hb : x.hold? = before at hgrip hcount
    generalize x'.hold? = later at hgrip hcount hheld
    generalize hreg : g.registries x.replica = reg at hgrip
    -- without a hold of its own the call adds no holder
    have hnone : later = none →
        ∀ k m', g.Held x.replica k m' → f.Held x.replica k m' := by
      rintro rfl k m' hh
      rcases hheld k m' hh with hh | ⟨-, a, ha, -⟩
      · exact hh
      · cases ha
    cases hgrip with
    | free => exact hk.same hreg (hnone rfl) hcount
    | @kept a b hm hg =>
        refine hk.same hreg ?_ ?_
        · intro k m' hh
          rcases hheld k m' hh with hh | ⟨-, b', hb', rfl, rfl⟩
          · exact hh
          · cases hb'
            exact ⟨i, x, a, hi, rfl, hb, hg.symm, hm.symm⟩
        · intro k
          have hc := hcount k
          simp only [share, hg] at hc
          exact Nat.add_right_cancel hc
    | @taken _ a hreg' =>
        have hnew : ∀ n m', g.Held x.replica n m' →
            f.Held x.replica n m' ∨ (n = a.generation ∧ m' = m) := by
          intro n m' hh
          rcases hheld n m' hh with hh | ⟨-, b, hb', rfl, rfl⟩
          · exact Or.inl hh
          · cases hb'
            exact Or.inr ⟨rfl, (Registry.register_ok hreg').1⟩
        rcases (Registry.register_ok hreg').2 with
          ⟨hl, -, hs, hj⟩ | ⟨hl, hgen, hiss⟩
        · exact hk.joined hl (hw.bounded _ _ m (Or.inl hl)) hs
            (hreg ▸ hj) hnew hcount
        · simp only [share, hgen] at hcount hnew
          exact hk.issued hbound hl (hreg ▸ hiss) hnew hcount
    | @released a =>
        exact hk.released hbound hreg (hnone rfl)
          (fun n => (hcount n).symm)
  · refine hk.same (hothers r hrx) ?_
      (holders_elsewhere hi hslots hr hrx)
    intro k m' hh
    rcases hheld k m' hh with hh | ⟨heq, -⟩
    · exact hh
    · exact absurd heq hrx

-- ==================================================== all that can happen

/-- A call that has just begun holds no signal. -/
theorem Kept.begun (hk : Kept f r) (hx : x.hold? = none)
    (hslots : g.slots = f.slots ++ [x])
    (hreg : g.registries = f.registries) : Kept g r := by
  refine hk.same (by rw [hreg]) ?_ ?_
  · rintro k m ⟨n, y, a, hn, hr, ha, hk⟩
    rw [hslots] at hn
    rcases append_get? hn with hn | ⟨-, rfl⟩
    · exact ⟨n, y, a, hn, hr, ha, hk⟩
    · rw [hx] at ha
      cases ha
  · intro k
    have hnot : x.holds r k = false := by
      refine Bool.eq_false_iff.mpr fun hh => ?_
      obtain ⟨-, a, ha, -⟩ := holds_iff.mp hh
      rw [hx] at ha
      cases ha
    unfold holders
    rw [hslots, List.countP_append, List.countP_singleton, hnot]
    rfl

theorem Kept.still (hk : Kept f r) (hslots : g.slots = f.slots)
    (hreg : g.registries r = f.registries r) : Kept g r := by
  refine hk.same hreg (fun k m hh => held_same hslots hh) ?_
  intro k
  unfold holders
  rw [hslots]

/-- Firing changes what a signal says, not who holds it. -/
theorem Kept.heard (hk : Kept f r) (i : Nat) (payload : Json) :
    Kept (f.heard i payload) r := by
  unfold Fleet.heard
  cases told? payload with
  | none => exact hk
  | some m =>
      simp only
      by_cases hri : r = i
      · subst hri
        cases hl : (f.registries r).lookup m with
        | none =>
            refine hk.still rfl ?_
            rw [setRegistry_self, Registry.notified, hl]
        | some n =>
            have hnot : (f.registries r).notified m
                = ((f.registries r).fire n true).2 := by
              rw [Registry.notified, hl]
            refine ⟨?_, hnot ▸ ?_, ?_⟩
            · intro k hlt
              rw [setRegistry_self, hnot] at hlt ⊢
              rw [Registry.fire_length] at hlt
              rw [Registry.fire_signal]
              split
              · rename_i hkn
                rw [Signal.fire_holders, ← hkn.1]
                exact hk.counted k hlt
              · exact hk.counted k hlt
            · intro k m' hh
              rw [setRegistry_self, Registry.lookup, Registry.fire_entries]
              exact hk.entered k m' hh
            · intro k m' hh
              rw [setRegistry_self, hnot, Registry.fire_signal]
              split
              · rename_i hkn
                have hopen := hk.opened k m' hh
                rw [Signal.fire_state, if_neg (hkn.1 ▸ hopen)]
                exact fun hc => by cases hc
              · exact hk.opened k m' hh
      · exact hk.still rfl (setRegistry_of_ne _ hri)

theorem Kept.aside (hk : Kept f r) {a : Aside} (h : AsideStep f a g)
    (hm : (Event.aside a).meddlesWith r = false) : Kept g r := by
  cases h with
  | clock hg =>
      obtain ⟨b, -, rfl⟩ := hg
      exact hk.still rfl rfl
  | @delivered k other m n g hk' hg =>
      rcases f.received_cases n m.payload with hr | ⟨j, -, hr⟩
      · rw [hr] at hg
        obtain ⟨b, -, rfl⟩ := hg
        exact hk.still rfl rfl
      · rw [hr] at hg
        obtain ⟨b, -, rfl⟩ := hg
        exact (hk.heard j m.payload).still rfl rfl
  | @redelivered name k payload i g hk' hg =>
      obtain ⟨b, -, rfl⟩ := hg
      exact (hk.heard i payload).still rfl rfl
  | removed =>
      refine hk.still rfl (setRegistry_of_ne _ fun hri => ?_)
      exact Bool.false_ne_true (hm.symm.trans (beq_iff_eq.mpr hri.symm))
  | closed =>
      refine hk.still rfl (setRegistry_of_ne _ fun hri => ?_)
      exact Bool.false_ne_true (hm.symm.trans (beq_iff_eq.mpr hri.symm))
  | _ => exact hk.still rfl rfl

theorem kept_initial (s : Setting) (r : Nat) : Kept (initial s) r where
  counted k hlt := absurd hlt (Nat.not_lt_zero k)
  entered k m hh := by
    obtain ⟨n, x, a, hn, -⟩ := hh
    cases hn
  opened k m hh := by
    obtain ⟨n, x, a, hn, -⟩ := hh
    cases hn

/-- As long as nobody takes signals of a replica away from outside, they
know who holds them. -/
theorem kept_here (hm : ∀ e ∈ h, e.meddlesWith r = false) :
    Kept (after s h) r := by
  induction h with
  | nil => exact kept_initial s r
  | cons e h ih =>
      have hk := ih fun e' he => hm e' (List.mem_cons_of_mem e he)
      have hnot := hm e List.mem_cons_self
      have hw := (sound s h).wakes
      have hgrip := gripped (after s h) e
      rw [after_cons]
      generalize (after s h).step e = g at hgrip
      cases hgrip with
      | begun hx hslots hreg => exact hk.begun hx hslots hreg
      | moved hi hslots hr hgrip hothers =>
          exact hk.grip hw hi hslots hr hgrip hothers
      | aside ha => exact hk.aside ha hnot
      | idle => exact hk

/-- As long as nobody takes signals away, all of them know who holds
them. -/
theorem kept (hm : ∀ e ∈ h, e.meddles = false) (r : Nat) :
    Kept (after s h) r :=
  kept_here fun e he => Event.meddlesWith_of_tame (hm e he) r

end ControlPlane.Fleet
