/-
Operations end. A lifecycle call that is served often enough, and not
given up, has its result, whatever happens around it; conflicts cannot
keep it going for ever, since every attempt is counted.

# The measure

`patience` bounds the steps that a call can still take: what is left of
the current attempt, and three steps (a read, a write, a pause) for
every attempt that is left in the budget. Every step spends some of it
(`LifecycleStep.patience`), and a call that is not finished can always
be served (`meet_serve`).

That is all the argument needs, so it is made once, for any measure of
tasks that its steps spend (`Spends`): a call that is not given up stays,
and its measure runs out as it is served (`Spends.after`). A lifecycle
call that was served as often as its patience lasts is finished
(`served_out`).

Chain: over History.lean; consumed by SingleAllocation.lean, whose losers
do not only change nothing but get an answer, and by FlagReset.lean for
the measure of a reset.
-/
import ControlPlane.Proofs.Fleet.History

namespace ControlPlane.Fleet

open Lifecycle (Call)

variable {s : Setting} {f g : Fleet} {e : Event} {q : History} {i r : Nat}
  {ch : Choice} {c c' : Call}

-- =========================================================== the measure

/-- How many steps a call can take at most. -/
def patience (c : Call) : Nat :=
  match c.stage with
  | .finished _ => 0
  | .recording _ _ => 1
  | .publishing _ => 2
  | .creating _ | .writing _ _ =>
      3 + 3 * (c.retry.budget - c.pacing.attempts)
  | .reading => 4 + 3 * (c.retry.budget - c.pacing.attempts)
  | .pausing _ => 5 + 3 * (c.retry.budget - c.pacing.attempts)

theorem patience_eq_zero :
    patience c = 0 ↔ ∃ result, c.stage = .finished result := by
  unfold patience
  constructor
  · intro h
    split at h
    · rename_i result hs
      exact ⟨result, hs⟩
    all_goals omega
  · rintro ⟨result, hs⟩
    rw [hs]

-- ===================================================== the per-case drops

theorem Settles.patience {x : MachineRecord} {created : Bool}
    (h : Settles c x created c') : patience c' ≤ 1 := by
  rcases h with ⟨-, rfl⟩ | ⟨_, _, _, -, rfl⟩
  · exact Nat.zero_le 1
  · exact Nat.le_refl 1

/-- A failed attempt ends the call, or costs it one of those left. -/
theorem FailedWith.patience {e : StoreError} (h : FailedWith c e c') :
    patience c' ≤ 2 + 3 * (c.retry.budget - c.pacing.attempts) := by
  rcases h with ⟨rfl, -⟩ | ⟨-, hb, d, p, hp, rfl⟩
  · exact Nat.zero_le _
  · show 5 + 3 * (c.retry.budget - p.attempts) ≤ _
    omega

theorem patience_write {w : Write} (hw : lifecycleWrite? c = some w) :
    patience c = 3 + 3 * (c.retry.budget - c.pacing.attempts) := by
  unfold lifecycleWrite? at hw
  unfold Fleet.patience
  cases hs : c.stage with
  | creating => rfl
  | writing => rfl
  | _ =>
      rw [hs] at hw
      cases hw

theorem patience_reading (hs : c.stage = .reading) :
    patience c = 4 + 3 * (c.retry.budget - c.pacing.attempts) := by
  unfold Fleet.patience
  rw [hs]

/-- Every step spends patience. -/
theorem LifecycleStep.patience (h : LifecycleStep f c ch c' g) :
    patience c' < patience c := by
  cases h with
  | prepared hs =>
      rw [patience_reading hs]
      show 3 + 3 * (c.retry.budget - c.pacing.attempts) < _
      omega
  | kept hs hv hx hc =>
      have := hc.patience
      rw [patience_reading hs]
      omega
  | rejected hs =>
      rw [patience_reading hs]
      show 0 < _
      omega
  | unknown hs =>
      rw [patience_reading hs]
      show 3 + 3 * (c.retry.budget - c.pacing.attempts) < _
      omega
  | unread hs he hc =>
      have := hc.patience
      rw [patience_reading hs]
      omega
  | wrote hw hon hfit hc =>
      rw [patience_write hw]
      rcases hc with ⟨req, -, rfl⟩ | ⟨-, hc⟩
      · show 2 < _
        omega
      · have := hc.patience
        omega
  | unwritten hw he hc =>
      have := hc.patience
      rw [patience_write hw]
      omega
  | lost hw hc =>
      have := hc.patience
      rw [patience_write hw]
      omega
  | resumed hs =>
      show 4 + 3 * (c.retry.budget - c.pacing.attempts) < _
      unfold Fleet.patience
      rw [hs]
      show _ < 5 + 3 * (c.retry.budget - c.pacing.attempts)
      omega
  | published hs hch hc =>
      have := hc.patience
      unfold Fleet.patience at this ⊢
      rw [hs]
      show _ < 2
      omega
  | recorded added hs =>
      unfold Fleet.patience
      rw [hs]
      exact Nat.one_pos

-- ============================================================== the turns

/-- A call that is not finished can be served. -/
theorem meet_serve (f : Fleet) (r : Nat) (t : Moment)
    (hs : ∀ result, c.stage ≠ .finished result) :
    ∃ x, f.meet r (.serve t) c.demand = some x := by
  unfold Call.demand
  cases h : c.stage with
  | finished result => exact absurd h (hs result)
  | _ => exact ⟨_, rfl⟩

/-- A measure of calls of a kind that every step of them spends, and
that keeps them ready to be served until it is spent. -/
structure Spends (P : Task → Prop) (μ : Task → Nat) : Prop where
  step : ∀ {f g r ch t t'}, TaskStep f r t ch t' g → P t →
    P t' ∧ μ t' < μ t
  serve : ∀ f r t now, P t → 0 < μ t →
    ∃ x, meetTask f r (.serve now) t = some x

/-- Is an event a step in which call `i` is served? -/
def Event.serves (i : Nat) : Event → Bool
  | .step j (.serve _) => j == i
  | _ => false

/-- How often call `i` is served in a stretch of history. -/
def turns (i : Nat) (l : History) : Nat := l.countP (Event.serves i)

theorem turns_served (i : Nat) (now : Moment) (l : History) :
    turns i (.step i (.serve now) :: l) = turns i l + 1 := by
  unfold turns
  rw [List.countP_cons_of_pos (by simp [Event.serves])]

theorem turns_unserved (he : ¬ e.serves i = true) (l : History) :
    turns i (e :: l) = turns i l := by
  unfold turns
  rw [List.countP_cons_of_neg he]

theorem serves_iff : e.serves i = true ↔ ∃ t, e = .step i (.serve t) := by
  unfold Event.serves
  split
  · rename_i j t
    rw [beq_iff_eq]
    constructor
    · rintro rfl
      exact ⟨t, rfl⟩
    · rintro ⟨t', heq⟩
      cases heq
      rfl
  · rename_i hne
    constructor
    · intro h
      cases h
    · rintro ⟨t, rfl⟩
      exact absurd rfl (hne i t)

variable {P : Task → Prop} {μ : Task → Nat} {t : Task}

theorem Spends.served (hm : Spends P μ) (now : Moment)
    (hi : f.slots[i]? = some ⟨r, t, false⟩) (hP : P t) (hpos : 0 < μ t) :
    ∃ t', (f.step (.step i (.serve now))).slots[i]?
        = some ⟨r, t', false⟩ ∧ P t' ∧ μ t' < μ t := by
  obtain ⟨⟨t', g⟩, hx⟩ := hm.serve f r t now hP hpos
  have hstep := task_step hx
  refine ⟨t', ?_, hm.step hstep hP⟩
  have hadv : f.step (.step i (.serve now))
      = g.setSlot i ⟨r, t', false⟩ := by
    simp only [Fleet.step, Fleet.advance, hi, hx, Bool.false_eq_true,
      if_false]
  rw [hadv, setSlot_get? hi hstep.frame.slots, if_pos rfl]

/-- Whatever happens, a call that is not given up stays, and its measure
runs out as it is served. -/
theorem Spends.after (hm : Spends P μ)
    (hi : (after s q).slots[i]? = some ⟨r, t, false⟩) (hP : P t)
    (l : History) (hd : Event.drop i ∉ l)
    (hx : Event.expire i ∈ l → ∀ c, ¬ P (.wait c)) :
    ∃ t', (after s (l ++ q)).slots[i]? = some ⟨r, t', false⟩ ∧ P t'
      ∧ (μ t' = 0 ∨ μ t' + turns i l ≤ μ t) := by
  induction l with
  | nil => exact ⟨t, hi, hP, Or.inr (Nat.le_refl _)⟩
  | cons e l ih =>
      obtain ⟨t₁, h₁, hP₁, hor⟩ := ih
        (fun h => hd (List.mem_cons_of_mem e h))
        (fun h => hx (List.mem_cons_of_mem e h))
      show ∃ t', ((Fleet.after s (l ++ q)).step e).slots[i]? = _ ∧ _
      by_cases hserve : e.serves i = true ∧ 0 < μ t₁
      · -- the call is served: it spends some of what is left
        obtain ⟨now, rfl⟩ := serves_iff.mp hserve.1
        obtain ⟨t', ht', hP', hlt⟩ := hm.served now h₁ hP₁ hserve.2
        refine ⟨t', ht', hP', ?_⟩
        rw [turns_served]
        omega
      · -- it is not served, or it is through: it can only have spent more
        have hturns : μ t₁ = 0 ∨ turns i (e :: l) = turns i l := by
          by_cases hzero : μ t₁ = 0
          · exact Or.inl hzero
          · exact Or.inr (turns_unserved
              (fun h => hserve ⟨h, Nat.pos_of_ne_zero hzero⟩) l)
        have hkeep : ∀ t', μ t' ≤ μ t₁ →
            μ t' = 0 ∨ μ t' + turns i (e :: l) ≤ μ t := by
          intro t' hle
          omega
        obtain ⟨x', hx', -⟩ := slot_kept e h₁
        have hs := slot_step hx'
        generalize (Fleet.after s (l ++ q)).step e = g at hs hx' ⊢
        cases hs with
        | same hs he =>
            cases hs.symm.trans h₁
            exact ⟨t₁, hx', hP₁, hkeep t₁ (Nat.le_refl _)⟩
        | idle hs =>
            cases hs.symm.trans h₁
            exact ⟨t₁, hx', hP₁, hkeep t₁ (Nat.le_refl _)⟩
        | submitted hs => rw [hs] at h₁; cases h₁
        | awaited hs => rw [hs] at h₁; cases h₁
        | advanced hs ht =>
            cases hs.symm.trans h₁
            obtain ⟨hP', hlt⟩ := hm.step ht hP₁
            exact ⟨_, hx', hP', hkeep _ (Nat.le_of_lt hlt)⟩
        | expired hs hu =>
            cases hs.symm.trans h₁
            exact absurd hP₁ (hx List.mem_cons_self _)
        | dropped hs => exact absurd List.mem_cons_self hd

/-- The patience of a lifecycle call, as one of tasks. -/
def Task.patience : Task → Nat
  | lifecycle c => Fleet.patience c
  | wait _ => 0

/-- Is it a lifecycle call? -/
def Task.IsLifecycle (t : Task) : Prop := ∃ c, t = .lifecycle c

theorem spends_patience : Spends Task.IsLifecycle Task.patience where
  step := by
    rintro f g r ch t t' hstep ⟨c, rfl⟩
    cases hstep with
    | lifecycle h => exact ⟨⟨_, rfl⟩, h.patience⟩
  serve := by
    rintro f r t now ⟨c, rfl⟩ hpos
    have hopen : ∀ result, c.stage ≠ .finished result := by
      intro result hr
      have hzero : Fleet.patience c = 0 :=
        patience_eq_zero.mpr ⟨result, hr⟩
      exact Nat.ne_of_gt hpos hzero
    obtain ⟨x, hx⟩ := meet_serve f r now hopen
    refine ⟨(.lifecycle x.1, x.2), ?_⟩
    simp only [meetTask, hx, Option.map_some]

/-- A call that was served as often as its patience lasts, and was not
given up, is finished. -/
theorem served_out (hi : (after s q).slots[i]?
      = some ⟨r, .lifecycle c, false⟩) {l : History}
    (hd : Event.drop i ∉ l) (hl : patience c ≤ turns i l) :
    ∃ c' result, (after s (l ++ q)).slots[i]?
        = some ⟨r, .lifecycle c', false⟩
      ∧ c'.stage = .finished result := by
  have hno : ∀ c, ¬ Task.IsLifecycle (.wait c) := by
    rintro c ⟨_, hc⟩
    cases hc
  obtain ⟨t', ht', ⟨c', rfl⟩, hor⟩ :=
    spends_patience.after hi ⟨c, rfl⟩ l hd (fun _ => hno)
  replace hor : patience c' = 0
      ∨ patience c' + turns i l ≤ patience c := hor
  have h0 : patience c' = 0 := by omega
  obtain ⟨result, hr⟩ := patience_eq_zero.mp h0
  exact ⟨c', result, ht', hr⟩

end ControlPlane.Fleet
