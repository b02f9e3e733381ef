/-
What becomes of a wait call that has seen the allocation. Its outcome is
decided; all that is left is to clear the waiting flag, as well as that
can be done. The store may conflict, be out of reach, forget the machine
or lose answers: the call says that its machine is allocated all the
same (`reset_kept`).

One thing does reach into the reset: the deadline of the call, which is
over the whole of it. A call whose deadline passes while it clears its
flag is cancelled although it has seen the allocation (`reset_overrun`).

# Why it ends

A reset is a retried write like any other: every step of it spends some
of what is left of the attempt and of the budget (`reserve`), so a call
that is served often enough has returned.

Chain: over Fleet/Ends.lean, whose count of turns is used again.
-/
import ControlPlane.Proofs.Fleet.Ends

namespace ControlPlane.Fleet

open Wait (Call)

variable {s : Setting} {f g : Fleet} {e : Event} {h p q : History}
  {i r : Nat} {ch : Choice} {c c' : Call}

-- ============================================================ the phases

/-- A call has seen the allocation and clears its flag. -/
def Resetting (c : Call) : Prop := ∃ a x, c.stage = .clearing a x

/-- Call `i` has seen the allocation and clears its flag. -/
def Resets (f : Fleet) (i : Nat) : Prop :=
  ∃ r c, f.slots[i]? = some ⟨r, .wait c, false⟩ ∧ Resetting c

/-- Behind `p` the deadline of call `i` passed while it cleared its
flag. -/
def Overrun (s : Setting) (p h : History) (i : Nat) : Prop :=
  ∃ q, p <:+ q ∧ (.expire i :: q) <:+ h ∧ Resets (after s q) i

/-- Where a call can be that cleared its flag at the moment `p`. -/
inductive Settling (s : Setting) (p h : History) (i : Nat) (c : Call) :
    Prop
  | resetting (hc : Resetting c)
  | allocated (ho : outcome? c = some (.ok .allocated))
  | overrun (ho : outcome? c
        = some (.error (.cancelled .deadlineExceeded)))
      (hover : Overrun s p h i)

theorem Overrun.later (ho : Overrun s p h i) (e : Event) :
    Overrun s p (e :: h) i := by
  obtain ⟨q, hp, hq, hr⟩ := ho
  exact ⟨q, hp, hq.trans (List.suffix_cons e h), hr⟩

theorem Settling.later (hs : Settling s p h i c) (e : Event) :
    Settling s p (e :: h) i c := by
  cases hs with
  | resetting hc => exact .resetting hc
  | allocated ho => exact .allocated ho
  | overrun ho hover => exact .overrun ho (hover.later e)

-- ========================================================= what is left

/-- How many steps a call can take at most from the reset on. -/
def reserve (c : Call) : Nat :=
  match c.stage with
  | .clearing a .reading => 4 + 3 * (c.retry.budget - a.attempts)
  | .clearing a (.writing _ _) => 3 + 3 * (c.retry.budget - a.attempts)
  | .clearing a (.pausing _) => 5 + 3 * (c.retry.budget - a.attempts)
  | .closing _ => 1
  | _ => 0

theorem reserve_le (c : Call) : reserve c ≤ 5 + 3 * c.retry.budget := by
  unfold reserve
  split <;> omega

/-- A failed attempt ends the reset, or costs it one of those left. -/
theorem ClearFailed.reserve {a : Pacing} {x : StoreError}
    (h : ClearFailed c a x c') :
    reserve c' ≤ 2 + 3 * (c.retry.budget - a.attempts) := by
  rcases h with ⟨rfl, -⟩ | ⟨-, hb, d, a', ha, rfl⟩
  · show 1 ≤ _
    omega
  · show 5 + 3 * (c.retry.budget - a'.attempts) ≤ _
    omega

/-- A failed attempt leads to another one, or ends the call well. -/
theorem ClearFailed.settling {a : Pacing} {x : StoreError}
    (h : ClearFailed c a x c') :
    Resetting c' ∨ outcome? c' = some (.ok .allocated) := by
  rcases h with ⟨rfl, -⟩ | ⟨-, -, d, a', -, rfl⟩
  · exact Or.inr rfl
  · exact Or.inl ⟨a', _, rfl⟩

-- ====================================================== the step of a call

/-- A step of the reset goes on with it or ends the call well, and
spends some of what is left. -/
theorem WaitStep.reset (h : WaitStep f r c ch c' g)
    (hc : Resetting c) :
    (Resetting c' ∨ outcome? c' = some (.ok .allocated))
      ∧ reserve c' < reserve c := by
  obtain ⟨a, x, hx⟩ := hc
  -- all other cases begin somewhere else
  have hblock : ∀ {b : Wait.Block}, c.stage.block? ≠ some b := by
    intro b hb
    rw [hx] at hb
    cases hb
  cases h with
  | clearPrepared hs =>
      refine ⟨Or.inl ⟨_, _, rfl⟩, ?_⟩
      simp only [reserve, hs, Call.goto]
      omega
  | clearKept hs =>
      refine ⟨Or.inr rfl, ?_⟩
      simp only [reserve, hs, Call.cleared, Call.close, Call.goto]
      omega
  | cleared hs =>
      refine ⟨Or.inr rfl, ?_⟩
      simp only [reserve, hs, Call.cleared, Call.close, Call.goto]
      omega
  | clearUnread hs he hf =>
      refine ⟨hf.settling, Nat.lt_of_le_of_lt hf.reserve ?_⟩
      simp only [reserve, hs]
      omega
  | unclear hs he hf =>
      refine ⟨hf.settling, Nat.lt_of_le_of_lt hf.reserve ?_⟩
      simp only [reserve, hs]
      omega
  | clearLost hs hf =>
      refine ⟨hf.settling, Nat.lt_of_le_of_lt hf.reserve ?_⟩
      simp only [reserve, hs]
      omega
  | clearResumed hs =>
      refine ⟨Or.inl ⟨_, _, rfl⟩, ?_⟩
      simp only [reserve, hs, Call.goto]
      omega
  | stays hs => exact absurd hs hblock
  | saw hs => exact absurd hs hblock
  | left hs => exact absurd hs hblock
  | _ => cases hx.symm.trans ‹c.stage = _›

/-- A call that has its outcome says it, and does nothing else. -/
theorem WaitStep.ending {result : Except WaitError Wait.Outcome}
    (h : WaitStep f r c ch c' g) (ho : outcome? c = some result) :
    c.stage = .closing result ∧ c' = c.goto (.ended result) := by
  have hstage : ∀ {x : Wait.Stage}, c.stage = x →
      x = .closing result ∨ x = .ended result := by
    intro x hx
    unfold outcome? at ho
    rw [hx] at ho
    cases x with
    | closing y => cases ho; exact Or.inl rfl
    | ended y => cases ho; exact Or.inr rfl
    | _ => cases ho
  cases h with
  | said hs =>
      rcases hstage hs with hx | hx
      · cases hx
        exact ⟨hs, rfl⟩
      · cases hx
  | stays hs => cases (outcome_block hs).symm.trans ho
  | saw hs => cases (outcome_block hs).symm.trans ho
  | left hs => cases (outcome_block hs).symm.trans ho
  | _ => rcases hstage ‹c.stage = _› with hx | hx <;> cases hx

/-- A call that has its outcome is not under its deadline any more. -/
theorem decided {result : Except WaitError Wait.Outcome}
    (ho : outcome? c = some result) : underDeadline c.stage = false := by
  unfold outcome? at ho
  cases hs : c.stage with
  | closing => rfl
  | ended => rfl
  | _ =>
      rw [hs] at ho
      cases ho

-- =========================================================== all along

/-- Whatever happens, a call that clears its flag goes on with it, or
ends well, or its deadline passes before it is through. -/
theorem settling (hp : p <:+ h) (hr : Resets (after s p) i) :
    ∃ r c d, (after s h).slots[i]? = some ⟨r, .wait c, d⟩
      ∧ Settling s p h i c := by
  induction h with
  | nil =>
      rw [List.suffix_nil.mp hp] at hr
      obtain ⟨r, c, hi, -⟩ := hr
      cases hi
  | cons e h ih =>
      rcases List.suffix_cons_iff.mp hp with rfl | hp'
      · obtain ⟨r, c, hi, hc⟩ := hr
        exact ⟨r, c, false, hi, .resetting hc⟩
      obtain ⟨r, c, d, hi, hs⟩ := ih hp'
      obtain ⟨x', hx', -⟩ := slot_kept e hi
      have hstep := slot_step hx'
      rw [after_cons]
      generalize hg : (after s h).step e = g at hstep hx' ⊢
      cases hstep with
      | same hi' he =>
          cases hi.symm.trans hi'
          exact ⟨r, c, d, hx', hs.later e⟩
      | idle hi' =>
          cases hi.symm.trans hi'
          exact ⟨r, c, d, hx', hs.later e⟩
      | submitted hi' => cases hi.symm.trans hi'
      | awaited hi' => cases hi.symm.trans hi'
      | dropped hi' =>
          cases hi.symm.trans hi'
          exact ⟨r, c, true, hx', hs.later _⟩
      | expired hi' hu =>
          cases hi.symm.trans hi'
          refine ⟨r, _, false, hx', ?_⟩
          cases hs with
          | resetting hc =>
              exact .overrun rfl ⟨h, hp', List.suffix_rfl, r, c, hi, hc⟩
          | allocated ho => cases (decided ho).symm.trans hu
          | overrun ho hover => cases (decided ho).symm.trans hu
      | advanced hi' ht =>
          cases hi.symm.trans hi'
          cases ht with
          | @wait _ ch c' _ hw =>
              refine ⟨r, c', false, hx', ?_⟩
              cases hs with
              | resetting hc =>
                  rcases (hw.reset hc).1 with hc' | ho
                  · exact .resetting hc'
                  · exact .allocated ho
              | allocated ho =>
                  rw [(hw.ending ho).2]
                  exact .allocated rfl
              | overrun ho hover =>
                  rw [(hw.ending ho).2]
                  exact .overrun rfl (hover.later _)

/-- A call that clears its flag, or has said how it ended, can be
served. -/
theorem meet_reset (f : Fleet) (r : Nat) (t : Moment)
    (hc : 0 < reserve c) :
    ∃ x, f.meet r (.serve t) (c.demand t) = some x := by
  unfold Call.demand
  unfold reserve at hc
  cases hs : c.stage with
  | clearing a x => cases x <;> exact ⟨_, rfl⟩
  | closing result => exact ⟨_, rfl⟩
  | _ =>
      rw [hs] at hc
      exact absurd hc (Nat.lt_irrefl 0)

-- ============================================================ the return

/-- What is left of a reset, as a measure of tasks. -/
def Task.reserve : Task → Nat
  | lifecycle _ => 0
  | wait c => Fleet.reserve c

/-- A wait call on its way from the reset to its good end. -/
def Task.EndsWell (t : Task) : Prop :=
  ∃ c, t = .wait c
    ∧ (Resetting c ∨ outcome? c = some (.ok .allocated))

theorem Resetting.reserve_pos (hc : Resetting c) : 0 < reserve c := by
  obtain ⟨a, x, hs⟩ := hc
  unfold Fleet.reserve
  rw [hs]
  cases x with
  | reading => show 0 < 4 + _; omega
  | writing => show 0 < 3 + _; omega
  | pausing => show 0 < 5 + _; omega

theorem spends_reserve : Spends Task.EndsWell Task.reserve where
  step := by
    rintro f g r ch t t' hstep ⟨c, rfl, hc⟩
    cases hstep with
    | wait h =>
        rcases hc with hc | ho
        · obtain ⟨hc', hlt⟩ := h.reset hc
          exact ⟨⟨_, rfl, hc'⟩, hlt⟩
        · obtain ⟨hs, rfl⟩ := h.ending ho
          refine ⟨⟨_, rfl, Or.inr rfl⟩, ?_⟩
          show 0 < Fleet.reserve c
          unfold Fleet.reserve
          rw [hs]
          exact Nat.one_pos
  serve := by
    rintro f r t now ⟨c, rfl, -⟩ hpos
    obtain ⟨x, hx⟩ := meet_reset f r now hpos
    refine ⟨(.wait x.1, x.2), ?_⟩
    simp only [meetTask, Choice.now, hx, Option.map_some]

/-- A call with its good end before it and nothing left to do has said
it. -/
theorem ended_well (hc : Resetting c ∨ outcome? c = some (.ok .allocated))
    (hzero : reserve c = 0) : c.stage = .ended (.ok .allocated) := by
  rcases hc with hc | ho
  · exact absurd hzero (Nat.ne_of_gt hc.reserve_pos)
  · unfold outcome? at ho
    cases hs : c.stage with
    | ended result =>
        rw [hs] at ho
        cases ho
        rfl
    | closing result =>
        unfold reserve at hzero
        rw [hs] at hzero
        cases hzero
    | _ =>
        rw [hs] at ho
        cases ho

-- ====================================================== the reset is kept

/-- What a call that cleared its flag at the moment `p` comes to. -/
structure ResetKept (s : Setting) (p h : History) (i : Nat) : Prop where
  /-- It says that its machine is allocated, unless its deadline passed
  while it cleared the flag; no failure of the reset shows. -/
  outcome : ∀ r c d result, (after s h).slots[i]? = some ⟨r, .wait c, d⟩ →
    outcome? c = some result →
      result = .ok .allocated
        ∨ (result = .error (.cancelled .deadlineExceeded)
          ∧ Overrun s p h i)
  /-- Without a deadline, and not given up, it does say so, whatever the
  store and the other calls do in the meantime. -/
  returns : ∀ l, h = l ++ p → Event.drop i ∉ l → Event.expire i ∉ l →
    ∀ r c, (after s p).slots[i]? = some ⟨r, .wait c, false⟩ →
      5 + 3 * c.retry.budget ≤ turns i l →
      ∃ c', (after s h).slots[i]? = some ⟨r, .wait c', false⟩
        ∧ c'.stage = .ended (.ok .allocated)

/-- The reset keeps the outcome, but for the deadline. -/
theorem reset_kept (hp : p <:+ h) (hr : Resets (after s p) i) :
    ResetKept s p h i where
  outcome r c d result hi ho := by
    obtain ⟨r', c', d', hi', hs⟩ := settling hp hr
    cases hi.symm.trans hi'
    cases hs with
    | resetting hc =>
        obtain ⟨a, x, hx⟩ := hc
        unfold outcome? at ho
        rw [hx] at ho
        cases ho
    | allocated ho' =>
        cases ho.symm.trans ho'
        exact Or.inl rfl
    | overrun ho' hover =>
        cases ho.symm.trans ho'
        exact Or.inr ⟨rfl, hover⟩
  returns l hl hd hx r c hi hturns := by
    subst hl
    obtain ⟨r', c', hi', hc⟩ := hr
    cases hi.symm.trans hi'
    obtain ⟨t', ht', ⟨c', rfl, hc'⟩, hor⟩ := spends_reserve.after hi
      ⟨c, rfl, Or.inl hc⟩ l hd (fun hmem => absurd hmem hx)
    replace hor : reserve c' = 0
        ∨ reserve c' + turns i l ≤ reserve c := hor
    have hle := reserve_le c
    exact ⟨c', ht', ended_well hc' (by omega)⟩

/-- A machine is allocated while a call waits for it; the call has seen
it and prepared the clearing of its flag. -/
def clearing : History :=
  [.step 1 (.serve 5), .step 1 (.wake 5), .aside (.deliver 0 .handled),
    .aside (.turn 0), .aside (.turn 0), .step 2 (.serve 0),
    .step 2 (.serve 0), .step 2 (.serve 0),
    .submit 0 labRetry "m" (.allocate
      { project := "a", hostname := "h", image := "i" }),
    .step 1 (.serve 1), .step 1 (.serve 1), .step 1 (.serve 1),
    .step 1 (.serve 1),
    .await 0 "n" ⟨⟨5⟩, ⟨9⟩⟩ labRetry "m",
    .aside (.listen 0 "n" ⟨1, ⟨9⟩, ⟨1000⟩⟩),
    .step 0 (.serve 0), .step 0 (.serve 0),
    .submit 0 labRetry "m" (.register {})]

/-- Another call changes the record first, so the clearing conflicts. -/
def contested : History :=
  [.step 1 (.serve 5), .step 3 (.serve 0), .step 3 (.serve 0),
    .submit 0 labRetry "m" (.assignVrf 42)] ++ clearing

theorem reset_kept_contested :
    clearing <:+ contested ∧ Resets (after lab clearing) 1
      ∧ ResetKept lab clearing contested 1 :=
  have hp : clearing <:+ contested := List.suffix_append _ _
  have hr : Resets (after lab clearing) 1 := ⟨_, _, rfl, _, _, rfl⟩
  ⟨hp, hr, reset_kept hp hr⟩

/-- The deadline passes while the call rests before its next attempt. -/
theorem reset_overrun :
    Resets (after lab clearing) 1
      ∧ Event.expire 1 ∉ clearing
      ∧ ∃ c, (after lab ([.step 1 (.serve 5), .expire 1]
          ++ contested)).slots[1]? = some ⟨0, .wait c, false⟩
        ∧ c.stage = .ended (.error (.cancelled .deadlineExceeded)) :=
  ⟨⟨_, _, rfl, _, _, rfl⟩, by simp [clearing], _, rfl, rfl⟩

end ControlPlane.Fleet
