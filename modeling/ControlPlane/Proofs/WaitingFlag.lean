/-
What becomes of the waiting flag when a wait ends well. A call sets the
flag of its machine before it blocks, and lowers it once it has seen the
allocation. Lowering may lose against other writers and is attempted
again, so whether the flag comes down depends on how many of them there
are (`flag_settled`).

# Why a flag that is down stays down

Only the mark of a wait call raises the flag, and a mark is taken only
while the machine is not allocated (`down_step`).

# How many attempts are lost

An attempt is lost only if somebody else has written to the machine
between its read and its write. So a call never has made more attempts
than there were rival writes, and one; between a read and a write it may
be one less, and then the version that it read is not the latest any
more (`Clears`).

# What does not come down

A call that finds its machine allocated in its first look ends at once
(`looked`). It leaves the flag as it is: one that is down stays down, but
one that an earlier call has left up stays up (`flag_left_up`).

Chain: over WakeSoundness.lean, for the allocation that a call has
seen.
-/
import ControlPlane.Proofs.WakeSoundness

namespace ControlPlane.Fleet

open Wait (Call)

variable {s : Setting} {f g : Fleet} {e : Event} {h h' p q : History}
  {i r : Nat} {ch : Choice} {m : String} {c c' : Call}

-- ==================================================== a flag that is down

theorem change_waiting {op : Operation} {x y : MachineRecord}
    {a b : Ambient} (h : op.change x a = (.ok (some y), b)) :
    y.waiting = x.waiting := by
  cases op with
  | register req =>
      cases h
      by_cases hp : req.partition = ""
      · rw [if_pos hp]
        rfl
      · rw [if_neg hp]
        rfl
  | attach connections =>
      simp only [Operation.change] at h
      split at h
      · cases h
      · cases h
        rfl
  | allocate req =>
      simp only [Operation.change] at h
      split at h
      · cases h
      · cases h
        rfl
  | assignVrf vrf =>
      simp only [Operation.change] at h
      split at h
      · cases h
      · split at h
        · cases h
        · cases h
          rfl
  | report req =>
      simp only [Operation.change] at h
      split at h
      · cases h
      · cases h
        rfl
  | abortReinstall diskWiped =>
      simp only [Operation.change] at h
      split at h
      · split at h
        · cases h
          rfl
        · cases h
      · cases h

/-- A machine is allocated, and no call waits for it by its record. -/
def Down (f : Fleet) (m : String) : Prop :=
  ∃ v, f.stored m = some v ∧ v.record.isAllocated = true
    ∧ v.record.waiting = false

/-- Clearing the flag of an allocated machine lowers it. -/
theorem Follows.lowers {v : Versioned}
    (hfol : Follows s h i ch m .clear v) (ha : (after s h).Allocated m) :
    (after s (.step i ch :: h)).Down m := by
  obtain ⟨u, hu, ha'⟩ := allocated_step (.step i ch) ha
  cases hfol.stored.symm.trans hu
  refine ⟨v, hu, ha', ?_⟩
  obtain ⟨ch', q, -, -, hmade, -, -⟩ := hfol.made
  have hmade := Mutation.apply_made hmade
  generalize v.record = x at hmade
  generalize Option.map Versioned.record _ = y at hmade
  cases hmade with
  | cleared hy => rfl

/-- A flag that is down on an allocated machine stays down. -/
theorem down_step (hd : (after s h).Down m) (e : Event) :
    (after s (e :: h)).Down m := by
  obtain ⟨v, hv, ha, hw⟩ := hd
  rcases stored_step s h e m with hsame | ⟨i, ch, μ, u, rfl, hfol⟩
  · exact ⟨v, hsame.trans hv, ha, hw⟩
  · obtain ⟨u', hu', ha'⟩ := allocated_step (.step i ch) ⟨v, hv, ha⟩
    cases hfol.stored.symm.trans hu'
    refine ⟨u, hu', ha', ?_⟩
    obtain ⟨ch', q, -, -, hmade, -, -⟩ := hfol.made
    have hmade := Mutation.apply_made hmade
    rw [hv, Option.map_some] at hmade
    generalize u.record = x at hmade
    generalize v.record = y at hmade ha hw
    cases hmade with
    | changed hy => exact (change_waiting hy).trans hw
    | marked hy => cases hy.symm.trans ha
    | cleared hy => rfl

theorem down_later (hp : p <:+ h) (hd : (after s p).Down m) :
    (after s h).Down m := by
  induction h with
  | nil =>
      rw [List.suffix_nil.mp hp] at hd
      exact hd
  | cons e h ih =>
      rcases List.suffix_cons_iff.mp hp with rfl | hp
      · exact hd
      · exact down_step (ih hp) e

-- ======================================================== during the call

/-- Is call `i` a wait call that has not come to its result? -/
def underWay (f : Fleet) (i : Nat) : Bool :=
  match f.slots[i]? with
  | some ⟨_, .wait c, false⟩ => (outcome? c).isNone
  | _ => false

/-- The writes of others to machine `m` while call `i` is under way. -/
def rivals (s : Setting) (i : Nat) (m : String) : History → Nat
  | [] => 0
  | e :: h =>
      rivals s i m h
        + if (after s h).underWay i = true ∧ e.caller? ≠ some i
            ∧ (after s (e :: h)).stored m ≠ (after s h).stored m
          then 1 else 0

/-- While call `i` is under way the store is within reach, and does what
it answers to the call. -/
structure Served (s : Setting) (h : History) (i : Nat) : Prop where
  online : ∀ e p, (e :: p) <:+ h → (after s p).underWay i = true →
    (after s p).store.offline = false
  faithful : ∀ ch p, (.step i ch :: p) <:+ h →
    (after s p).underWay i = true → ch.faithful = true

/-- While call `i` was under way the flag of machine `m` was down, and
from then on it is down for ever. -/
def Lowered (s : Setting) (h : History) (i : Nat) (m : String) : Prop :=
  ∃ e q, (e :: q) <:+ h ∧ (after s q).underWay i = true
    ∧ ∀ h', (e :: q) <:+ h' → (after s h').Down m

theorem Served.before (hs : Served s h i) (hp : p <:+ h) :
    Served s p i where
  online e q hq := hs.online e q (hq.trans hp)
  faithful ch q hq := hs.faithful ch q (hq.trans hp)

theorem Lowered.later (hl : Lowered s p i m) (hp : p <:+ h) :
    Lowered s h i m := by
  obtain ⟨e, q, hq, hu, hd⟩ := hl
  exact ⟨e, q, hq.trans hp, hu, hd⟩

theorem rivals_mono (s : Setting) (i : Nat) (m : String) (e : Event)
    (h : History) : rivals s i m h ≤ rivals s i m (e :: h) :=
  Nat.le_add_right _ _

theorem rivals_moved (hu : (after s h).underWay i = true)
    (he : e.caller? ≠ some i)
    (hst : (after s (e :: h)).stored m ≠ (after s h).stored m) :
    rivals s i m (e :: h) = rivals s i m h + 1 := by
  rw [rivals, if_pos ⟨hu, he, hst⟩]

theorem underWay_of_outcome
    (hi : f.slots[i]? = some ⟨r, .wait c, false⟩)
    (ho : outcome? c = none) : f.underWay i = true := by
  unfold underWay
  rw [hi]
  exact Option.isNone_iff_eq_none.mpr ho

-- ====================================================== lowering the flag

/-- How far a call has come with lowering its flag. -/
structure Clears (s : Setting) (h : History) (i : Nat) (c : Call) :
    Prop where
  /-- Every attempt but the first one follows a rival write. -/
  paced : ∀ a x, c.stage = .clearing a x →
    a.attempts ≤ rivals s i c.machine h + 1
  /-- What is about to be written over is the latest version, or there
  was another rival write. -/
  current : ∀ a old next, c.stage = .clearing a (.writing old next) →
    (after s h).stored c.machine = some old
      ∨ a.attempts ≤ rivals s i c.machine h
  lowered : outcome? c = some (.ok .allocated) →
    Lowered s h i c.machine
      ∨ c.retry.budget ≤ rivals s i c.machine h

/-- A call that is not about to lower its flag. -/
theorem clears_away (hs : ∀ a x, c.stage ≠ .clearing a x)
    (ho : outcome? c ≠ some (.ok .allocated)) : Clears s h i c where
  paced a x h := absurd h (hs a x)
  current a _ _ h := absurd h (hs a _)
  lowered h := absurd h ho

/-- A call that is about to read its record, or pauses before that. -/
theorem clears_reading {a : Pacing} {x : Wait.Clearing}
    (hx : ∀ old next, x ≠ .writing old next)
    (hle : a.attempts ≤ rivals s i c.machine h + 1) :
    Clears s h i (c.goto (.clearing a x)) where
  paced b y hs := by
    cases hs
    exact hle
  current b old next hs := by
    cases hs
    exact absurd rfl (hx old next)
  lowered ho := by
    cases ho

/-- A call that is over. -/
theorem clears_over {result : Except WaitError Wait.Outcome}
    (ho : outcome? c = some result)
    (hl : result = .ok .allocated → Lowered s h i c.machine
      ∨ c.retry.budget ≤ rivals s i c.machine h) : Clears s h i c where
  paced a x hs := by
    rw [outcome?, hs] at ho
    cases ho
  current a old next hs := by
    rw [outcome?, hs] at ho
    cases ho
  lowered h := hl (Option.some.inj (ho.symm.trans h))

/-- An event that leaves the record alone. -/
theorem Clears.still (hc : Clears s h i c)
    (hst : (after s (e :: h)).stored c.machine
      = (after s h).stored c.machine) : Clears s (e :: h) i c where
  paced a x hs := by
    have := hc.paced a x hs
    have := rivals_mono s i c.machine e h
    omega
  current a old next hs := by
    rw [hst]
    refine (hc.current a old next hs).imp_right fun hle => ?_
    exact Nat.le_trans hle (rivals_mono s i c.machine e h)
  lowered ho := by
    refine (hc.lowered ho).imp (fun hl => ?_) fun hle => ?_
    · exact hl.later (List.suffix_cons e h)
    · exact Nat.le_trans hle (rivals_mono s i c.machine e h)

/-- An event of somebody else. -/
theorem Clears.other (hc : Clears s h i c)
    (hi : (after s h).slots[i]? = some ⟨r, .wait c, false⟩)
    (he : e.caller? ≠ some i) : Clears s (e :: h) i c := by
  by_cases hst : (after s (e :: h)).stored c.machine
      = (after s h).stored c.machine
  · exact hc.still hst
  · refine ⟨?_, ?_, ?_⟩
    · intro a x hs
      exact Nat.le_trans (hc.paced a x hs)
        (Nat.succ_le_succ (rivals_mono s i c.machine e h))
    · intro a old next hs
      -- a rival write, if the version that was read was the latest
      have ho : outcome? c = none := by
        rw [outcome?, hs]
      rw [rivals_moved (underWay_of_outcome hi ho) he hst]
      exact Or.inr (hc.paced a _ hs)
    · intro ho
      refine (hc.lowered ho).imp (fun hl => ?_) fun hle => ?_
      · exact hl.later (List.suffix_cons e h)
      · exact Nat.le_trans hle (rivals_mono s i c.machine e h)

/-- The flag comes down in the call's own step. -/
theorem lowered_now (hi : (after s h).slots[i]? = some ⟨r, .wait c, false⟩)
    (ho : outcome? c = none) (hd : (after s (e :: h)).Down m) :
    Lowered s (e :: h) i m :=
  ⟨e, h, List.suffix_refl _, underWay_of_outcome hi ho,
    fun _ hp => down_later hp hd⟩

/-- An attempt that failed was lost to another writer: the call has one
attempt more, or has spent them all. -/
theorem Clears.lost {a : Pacing} {x : StoreError}
    (hle : a.attempts ≤ rivals s i c.machine h)
    (hx : x.isConflict = true) (hc : ClearFailed c a x c') :
    Clears s h i c' := by
  rcases hc with ⟨rfl, hspent⟩ | ⟨-, -, d, a', ha, rfl⟩
  · exact clears_over rfl fun _ => Or.inr (Nat.le_trans (hspent hx) hle)
  · refine clears_reading (fun _ _ hy => by cases hy) ?_
    rw [ha]
    exact Nat.succ_le_succ hle

/-- While a call lowers its flag, its machine is allocated, and the store
serves it. -/
theorem Served.clearing (hserved : Served s (.step i ch :: h) i)
    (hi : (after s h).slots[i]? = some ⟨r, .wait c, false⟩) {a : Pacing}
    {x : Wait.Clearing} (hs : c.stage = .clearing a x) :
    outcome? c = none ∧ (after s h).store.offline = false
      ∧ ch.faithful = true ∧ (after s h).Allocated c.machine := by
  have ho : outcome? c = none := by
    rw [outcome?, hs]
  have hu := underWay_of_outcome hi ho
  refine ⟨ho, hserved.online _ h (List.suffix_refl _) hu,
    hserved.faithful ch h (List.suffix_refl _) hu, ?_⟩
  refine (sound s h).calls i _ hi ?_
  simp only [Task.sure, hs]

/-- The write that clears the flag lowers it, if the store takes it, -/
theorem lowers_flag {a : Pacing} {old : Versioned} {next : MachineRecord}
    (hi : (after s h).slots[i]? = some ⟨r, .wait c, false⟩)
    (hs : c.stage = .clearing a (.writing old next))
    (hall : (after s h).Allocated c.machine)
    (hfit : (Write.update old next).Fits (after s h).store)
    (hst : (after s (.step i ch :: h)).store
      = (Write.update old next).apply (after s h).store) :
    (after s (.step i ch :: h)).Down c.machine := by
  obtain ⟨-, μ, hfol⟩ := follows_of_fits ch hi
    (by simp only [Task.write?, hs]) hfit hst
  have hμ : μ = .clear := by
    obtain ⟨r', t', hi', -, hμ⟩ := hfol.call
    cases hi.symm.trans hi'
    simp only [Task.mutation?, hs, Option.some.injEq] at hμ
    exact hμ.symm
  rw [hμ] at hfol
  exact hfol.lowers hall

/-- and if the store refuses it, there was another rival write. -/
theorem Clears.refused {a : Pacing} {old : Versioned}
    {next : MachineRecord} {x : StoreError} (hc : Clears s h i c)
    (hi : (after s h).slots[i]? = some ⟨r, .wait c, false⟩)
    (hs : c.stage = .clearing a (.writing old next))
    (hon : (after s h).store.offline = false)
    (hall : (after s h).Allocated c.machine)
    (he : ((Write.update old next).run (after s h).store).1 = .error x) :
    x.isConflict = true ∧ a.attempts ≤ rivals s i c.machine h := by
  obtain ⟨v, hv, -⟩ := hall
  obtain ⟨ch', q, μ, hq, -, hd⟩ := drafted (w := .update old next) hi
    (by simp only [Task.write?, hs])
  have hkey : old.record.id = c.machine := hd.key_eq (sane s q)
  obtain ⟨hx, hne⟩ := Write.update_error hon (hkey ▸ hv) he
  refine ⟨hx, (hc.current a old next hs).resolve_left fun hold => ?_⟩
  exact hne (Option.some.inj (hv.symm.trans hold))

/-- The call's own step. -/
theorem clears_step (hserved : Served s (.step i ch :: h) i)
    (hi : (after s h).slots[i]? = some ⟨r, .wait c, false⟩)
    (hw : WaitStep (after s h) r c ch c' g)
    (hg : after s (.step i ch :: h) = g.setSlot i ⟨r, .wait c', false⟩)
    (ih : Clears s h i c) : Clears s (.step i ch :: h) i c' := by
  have hstored : ∀ m, (after s (.step i ch :: h)).stored m
      = g.stored m := by
    intro m
    rw [hg]
    rfl
  have hmono := rivals_mono s i c.machine (.step i ch) h
  cases hw with
  | saw hs how hst =>
      exact clears_reading (fun _ _ hy => by cases hy)
        (Nat.succ_le_succ (Nat.zero_le _))
  | @clearPrepared t a v hs hv hwait =>
      refine ⟨?_, ?_, ?_⟩
      · intro b x hx
        cases hx
        exact Nat.le_trans (ih.paced a _ hs) (Nat.succ_le_succ hmono)
      · intro b old next hx
        cases hx
        rw [hstored]
        exact Or.inl hv
      · intro ho
        cases ho
  | @clearKept t a v g hs hv hwait hst =>
      obtain ⟨hnone, -, -, u, hu, hall⟩ := hserved.clearing hi hs
      cases hv.symm.trans hu
      refine clears_over rfl fun _ => Or.inl (lowered_now hi hnone ?_)
      obtain ⟨b, -, rfl⟩ := hst
      exact ⟨v, (hstored _).trans hv, hall, hwait⟩
  | @cleared t a old next g hs hon hfit hst =>
      obtain ⟨hnone, -, -, hall⟩ := hserved.clearing hi hs
      have hdown : (after s (.step i (.serve t) :: h)).Down c.machine := by
        refine lowers_flag hi hs hall hfit ?_
        rw [hg]
        obtain ⟨b, -, rfl⟩ := hst
        rfl
      exact clears_over rfl fun _ => Or.inl (lowered_now hi hnone hdown)
  | @clearUnread ch a x c' g hs he hc hst =>
      obtain ⟨-, hon, hch, v, hv, -⟩ := hserved.clearing hi hs
      -- the store is within reach and knows the machine
      rcases he with rfl | ⟨-, he⟩
      · cases hch
      · rw [MemoryStore.find_online hon hv] at he
        cases he
  | @unclear ch a old next x c' g hs he hc hst =>
      obtain ⟨-, hon, hch, hall⟩ := hserved.clearing hi hs
      rcases he with rfl | ⟨-, he⟩
      · cases hch
      · obtain ⟨hx, hle⟩ := ih.refused hi hs hon hall he
        exact Clears.lost (Nat.le_trans hle hmono) hx hc
  | @clearLost a old next x c' g hs hc hst =>
      obtain ⟨-, -, hch, -⟩ := hserved.clearing hi hs
      cases hch
  | @clearResumed t a d g hs hst =>
      exact clears_reading (fun _ _ hy => by cases hy)
        (Nat.le_trans (ih.paced a _ hs) (Nat.succ_le_succ hmono))
  | @said t result g hs hst =>
      refine clears_over rfl fun hres => ?_
      have ho : outcome? c = some (.ok .allocated) := by
        rw [outcome?, hs, hres]
      refine (ih.lowered ho).imp (fun hl => ?_) fun hle => ?_
      · exact hl.later (List.suffix_cons _ h)
      · exact Nat.le_trans hle hmono
  | @stays ch b st b' g hs hb =>
      refine clears_away ?_ ?_
      · intro a x hx
        cases (show st = .clearing a x from hx)
        cases hb
      · rw [outcome_block (c := c.goto st) hb]
        exact fun ho => by cases ho
  | _ =>
      refine clears_away ?_ ?_
      · intro a x hx
        cases hx
      · intro ho
        cases ho

/-- The invariant of every call that the store serves. -/
theorem clears (hs : Served s h i)
    (hi : (after s h).slots[i]? = some ⟨r, .wait c, false⟩) :
    Clears s h i c := by
  induction h generalizing c with
  | nil => cases hi
  | cons e h ih =>
      have ih := fun {c} => @ih c (hs.before (List.suffix_cons e h))
      have hi' := hi
      rw [after_cons] at hi'
      have hstep := slot_step hi'
      generalize hg : (after s h).step e = g at hstep
      cases hstep with
      | same hi he => exact (ih hi).other hi he
      | idle hi =>
          refine (ih hi).still ?_
          rw [after_cons, hg]
      | awaited =>
          exact clears_away (fun _ _ hx => by cases hx)
            (fun ho => by cases ho)
      | expired =>
          exact clears_away (fun _ _ hx => by cases hx)
            (fun ho => by cases ho)
      | advanced hi ht =>
          cases ht with
          | wait hw => exact clears_step hs hi hw hg (ih hi)

-- ======================================== a call that finds it allocated

/-- A call that has not gone beyond its first look. -/
def Early (c : Call) : Prop :=
  c.stage = .opening ∨ c.stage = .reading
    ∨ outcome? c = some (.ok .alreadyAllocated)

theorem Early.write? (he : Early c) : (Task.wait c).write? = none := by
  rcases he with hs | hs | ho
  · simp only [Task.write?, hs]
  · simp only [Task.write?, hs]
  · unfold outcome? at ho
    cases hs : c.stage with
    | closing => simp only [Task.write?, hs]
    | ended => simp only [Task.write?, hs]
    | _ => simp only [hs, reduceCtorEq] at ho

/-- Before its first look a call has only been opened. -/
theorem WaitStep.from_opening (h : WaitStep f r c ch c' g)
    (hs' : c'.stage = .opening ∨ c'.stage = .reading) :
    c.stage = .opening := by
  have hcleared : ∀ {a x}, ClearFailed c a x c' →
      ¬ (c'.stage = .opening ∨ c'.stage = .reading) := by
    intro a x hc hs'
    rcases hs' with hs' | hs'
    · rcases hc with ⟨rfl, -⟩ | ⟨-, -, d, a', -, rfl⟩ <;> cases hs'
    · rcases hc with ⟨rfl, -⟩ | ⟨-, -, d, a', -, rfl⟩ <;> cases hs'
  cases h with
  | opened hs => exact hs
  | @stays ch b st b' g hs hb =>
      rcases hs' with hx | hx
      · cases (show st = .opening from hx)
        cases hb
      · cases (show st = .reading from hx)
        cases hb
  | clearUnread hs _ hc => exact absurd hs' (hcleared hc)
  | unclear hs _ hc => exact absurd hs' (hcleared hc)
  | clearLost hs hc => exact absurd hs' (hcleared hc)
  | _ => rcases hs' with hx | hx <;> cases hx

/-- A call comes to find its machine allocated by its first look. -/
theorem WaitStep.looked (h : WaitStep f r c ch c' g)
    (ho : outcome? c' = some (.ok .alreadyAllocated)) :
    outcome? c = some (.ok .alreadyAllocated)
      ∨ c.stage = .reading ∧ f.Allocated c.machine := by
  cases h with
  | @already t v g hs hv ha => exact Or.inr ⟨hs, v, hv, ha⟩
  | said hs =>
      refine Or.inl ?_
      rw [outcome?, hs]
      exact ho
  | @stays ch b st b' g hs hb =>
      cases (outcome_block (c := c.goto st) hb).symm.trans ho
  | clearUnread hs _ hc => cases hc.outcome ho
  | unclear hs _ hc => cases hc.outcome ho
  | clearLost hs hc => cases hc.outcome ho
  | _ => cases ho

/-- No call comes back from beyond its first look. -/
theorem WaitStep.early (h : WaitStep f r c ch c' g) (he : Early c') :
    Early c := by
  rcases he with hs | hs | ho
  · exact Or.inl (h.from_opening (Or.inl hs))
  · exact Or.inl (h.from_opening (Or.inr hs))
  · rcases h.looked ho with ho | ⟨hs, -⟩
    · exact Or.inr (Or.inr ho)
    · exact Or.inr (Or.inl hs)

/-- A call that has not gone beyond its first look has not changed the
store. -/
theorem untouched (hi : (after s h).slots[i]? = some ⟨r, .wait c, false⟩)
    (he : Early c) (hp : (.step i ch :: p) <:+ h)
    (hu : (after s p).underWay i = true) :
    (after s (.step i ch :: p)).store = (after s p).store := by
  induction h generalizing c with
  | nil => cases hi
  | cons e h ih =>
      rw [after_cons] at hi
      have hstep := slot_step hi
      generalize hg : (after s h).step e = g at hstep
      cases hstep with
      | same hi hne =>
          rcases List.suffix_cons_iff.mp hp with heq | hp
          · cases heq
            exact absurd rfl hne
          · exact ih hi he hp
      | idle hi =>
          rcases List.suffix_cons_iff.mp hp with heq | hp
          · cases heq
            rw [after_cons, hg]
          · exact ih hi he hp
      | awaited hnone =>
          -- there was no such call before
          rcases List.suffix_cons_iff.mp hp with heq | hp
          · cases heq
          · have hp' := (List.suffix_cons _ p).trans hp
            unfold underWay at hu
            cases hx : (after s p).slots[i]? with
            | none =>
                rw [hx] at hu
                cases hu
            | some x =>
                obtain ⟨y, hy, -⟩ := slot_later hp' hx
                cases hnone.symm.trans hy
      | expired => rcases he with hx | hx | hx <;> cases hx
      | advanced hi ht =>
          cases ht with
          | @wait c₀ _ _ _ hw =>
              have hearly := hw.early he
              rcases List.suffix_cons_iff.mp hp with heq | hp
              · cases heq
                rw [after_cons, hg]
                rcases (TaskStep.wait hw).store with hst | ⟨w, hw', -⟩
                · exact hst
                · cases hearly.write?.symm.trans hw'
              · exact ih hi hearly hp

/-- A call that found its machine allocated did so in a look of its own. -/
theorem looked (hi : (after s h).slots[i]? = some ⟨r, .wait c, false⟩)
    (ho : outcome? c = some (.ok .alreadyAllocated)) :
    ∃ ch p, (.step i ch :: p) <:+ h ∧ (after s p).underWay i = true
      ∧ (after s p).Allocated c.machine := by
  induction h generalizing c with
  | nil => cases hi
  | cons e h ih =>
      have earlier : ∀ c₀, c₀.machine = c.machine →
          (after s h).slots[i]? = some ⟨r, .wait c₀, false⟩ →
            outcome? c₀ = some (.ok .alreadyAllocated) →
              ∃ ch p, (.step i ch :: p) <:+ e :: h
                ∧ (after s p).underWay i = true
                ∧ (after s p).Allocated c.machine := by
        intro c₀ hm hi₀ ho₀
        obtain ⟨ch, p, hp, hlook⟩ := ih hi₀ ho₀
        exact ⟨ch, p, hp.trans (List.suffix_cons e h), hm ▸ hlook⟩
      rw [after_cons] at hi
      have hstep := slot_step hi
      generalize (after s h).step e = f at hstep
      cases hstep with
      | same hi => exact earlier c rfl hi ho
      | idle hi => exact earlier c rfl hi ho
      | awaited => cases ho
      | expired => cases ho
      | advanced hi ht =>
          cases ht with
          | @wait c₀ _ _ _ hw =>
              have hm : c.machine = c₀.machine :=
                (TaskStep.wait hw).same.machine
              rcases hw.looked ho with ho₀ | ⟨hs, hall⟩
              · exact earlier c₀ hm.symm hi ho₀
              · have hnone : outcome? c₀ = none := by
                  rw [outcome?, hs]
                rw [hm]
                exact ⟨_, h, List.suffix_refl _,
                  underWay_of_outcome hi hnone, hall⟩

-- =================================================== how a wait ends well

/-- What becomes of the flag of a call's machine when the call ends
well. -/
structure FlagSettled (s : Setting) (h : History) (i : Nat) (c : Call) :
    Prop where
  /-- A call that waited until the allocation has lowered the flag, and
  nobody raises it again. -/
  allocated : outcome? c = some (.ok .allocated) →
    Lowered s h i c.machine
  /-- A call that found its machine allocated has left everything as it
  was. -/
  already : outcome? c = some (.ok .alreadyAllocated) →
    ∀ ch p, (.step i ch :: p) <:+ h → (after s p).underWay i = true →
      (after s (.step i ch :: p)).store = (after s p).store
  /-- It has found that in a look of its own, and if the flag was down
  then, nobody raises it any more. -/
  found : outcome? c = some (.ok .alreadyAllocated) →
    ∃ ch p, (.step i ch :: p) <:+ h ∧ (after s p).underWay i = true
      ∧ (after s p).Allocated c.machine
      ∧ ((after s p).Down c.machine → Lowered s h i c.machine)

/-- A call that the store serves, and that has fewer rivals than
attempts, lowers the flag of its machine if it has waited at all. -/
theorem flag_settled
    (hi : (after s h).slots[i]? = some ⟨r, .wait c, false⟩)
    (hs : Served s h i)
    (hr : rivals s i c.machine h < c.retry.budget) :
    FlagSettled s h i c where
  allocated ho := by
    rcases (clears hs hi).lowered ho with hl | hle
    · exact hl
    · exact absurd hr (Nat.not_lt_of_le hle)
  already ho ch p hp hu := untouched hi (Or.inr (Or.inr ho)) hp hu
  found ho := by
    obtain ⟨ch, p, hp, hu, ha⟩ := looked hi ho
    refine ⟨ch, p, hp, hu, ha, fun hd => ?_⟩
    exact ⟨.step i ch, p, hp, hu, fun _ hp' =>
      down_later hp' (down_step hd _)⟩

/-- `Served`, computed. -/
def serves (s : Setting) (i : Nat) : History → Bool
  | [] => true
  | e :: p =>
      (!(after s p).underWay i
        || !(after s p).store.offline
          && (e.caller? != some i || e.faithful))
        && serves s i p

theorem served_of_serves (hb : serves s i h = true) : Served s h i := by
  have hboth : ∀ e p, (e :: p) <:+ h → (after s p).underWay i = true →
      (after s p).store.offline = false
        ∧ (e.caller? = some i → e.faithful = true) := by
    intro e p hp hu
    induction h with
    | nil => cases List.suffix_nil.mp hp
    | cons e' h ih =>
        rw [serves, Bool.and_eq_true] at hb
        rcases List.suffix_cons_iff.mp hp with heq | hp
        · cases heq
          have hnow := hb.1
          simp only [hu, Bool.not_true, Bool.false_or, Bool.and_eq_true,
            Bool.not_eq_true'] at hnow
          refine ⟨hnow.1, fun hi => ?_⟩
          simpa [hi] using hnow.2
        · exact ih hb.2 hp
  exact ⟨fun e p hp hu => (hboth e p hp hu).1,
    fun ch p hp hu => (hboth (.step i ch) p hp hu).2 rfl⟩

/-- A call waits for machine `m` and is woken by its allocation. -/
def awaited : History :=
  [.step 1 (.serve 5), .step 1 (.serve 5), .step 1 (.serve 5),
    .step 1 (.wake 5), .aside (.deliver 0 .handled), .aside (.turn 0),
    .aside (.turn 0), .step 2 (.serve 0), .step 2 (.serve 0),
    .step 2 (.serve 0),
    .submit 0 labRetry "m" (.allocate
      { project := "a", hostname := "h", image := "i" }),
    .step 1 (.serve 1), .step 1 (.serve 1), .step 1 (.serve 1),
    .step 1 (.serve 1),
    .await 0 "n" ⟨⟨5⟩, ⟨9⟩⟩ labRetry "m",
    .aside (.listen 0 "n" ⟨1, ⟨9⟩, ⟨1000⟩⟩),
    .step 0 (.serve 0), .step 0 (.serve 0),
    .submit 0 labRetry "m" (.register {})]

theorem flag_settled_awaited :
    ∃ c, (after lab awaited).slots[1]? = some ⟨0, .wait c, false⟩
      ∧ outcome? c = some (.ok .allocated)
      ∧ Served lab awaited 1
      ∧ rivals lab 1 c.machine awaited < c.retry.budget
      ∧ FlagSettled lab awaited 1 c :=
  have hs : Served lab awaited 1 := served_of_serves (by rfl)
  have hr : rivals lab 1 "m" awaited < labRetry.budget := by decide +kernel
  ⟨_, rfl, rfl, hs, hr, flag_settled rfl hs hr⟩

/-- A call waits for machine `m` and goes away; the machine is allocated
and asks again. -/
def leftover : History :=
  [.step 3 (.serve 2), .step 3 (.serve 2), .step 3 (.serve 2),
    .await 0 "n" ⟨⟨5⟩, ⟨9⟩⟩ labRetry "m",
    .step 2 (.serve 0), .step 2 (.serve 0), .step 2 (.serve 0),
    .step 2 (.serve 0),
    .submit 0 labRetry "m" (.allocate
      { project := "a", hostname := "h", image := "i" }),
    .step 1 .cancel,
    .step 1 (.serve 1), .step 1 (.serve 1), .step 1 (.serve 1),
    .step 1 (.serve 1), .await 0 "n" ⟨⟨5⟩, ⟨9⟩⟩ labRetry "m",
    .step 0 (.serve 0), .step 0 (.serve 0),
    .submit 0 labRetry "m" (.register {})]

/-- The flag that the first call has left up is up all through the other
one, although nothing stands in its way. -/
theorem flag_left_up :
    ∃ c, (after lab leftover).slots[3]? = some ⟨0, .wait c, false⟩
      ∧ outcome? c = some (.ok .alreadyAllocated)
      ∧ Served lab leftover 3
      ∧ rivals lab 3 c.machine leftover < c.retry.budget
      ∧ ¬ Lowered lab leftover 3 c.machine := by
  refine ⟨_, rfl, rfl, served_of_serves (by rfl), by decide +kernel, ?_⟩
  rintro ⟨e, q, hq, -, hdown⟩
  obtain ⟨v, hv, -, hw⟩ := hdown leftover hq
  have hup : ((after lab leftover).stored "m").map
      (fun v => v.record.waiting) = some true := by rfl
  change (after lab leftover).stored "m" = some v at hv
  rw [hv, Option.map_some, hw] at hup
  cases hup

end ControlPlane.Fleet
