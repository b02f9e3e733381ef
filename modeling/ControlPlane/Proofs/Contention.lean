/-
How much contention costs. An attempt of a call ends in a conflict only
if somebody else has written to the machine since the call looked, and
each such write spoils one attempt at most. So conflicts are paid for by
the writes of others to the same machine (`contention`):

- The conflicts of a call are no more than the writes of others between
  its first look and its last attempt (`Paid`).
- A call returns a conflict only if it had as many of those as it has
  attempts, and a wait call is aborted by one only if there was a write
  between its look and its mark.
- Operations that share a machine with nobody else, and are no more than
  their attempts, all get past the conflicts.

# How an attempt is charged

After each look the call holds what is stored, and has as many attempts
behind it as it had conflicts. When its write is refused, the record is
not what it holds any more: there was one more write of somebody else
than the conflicts before could account for. Until then `Contends.aimed`
keeps both possibilities open.

# What counts as an attempt

An operation attempts to write until it gets through, and a wait call
that was allocated attempts to clear its flag; before it blocks, a wait
call attempts to set its flag once. The attempts of one wait call are
told apart by `Task.clears`: a call whose mark failed never comes to
clear its flag, so its conflicts are of one kind.

Chain: over Linearizability.lean and Fleet/Ends.lean.
-/
import Mathlib.Data.Finset.Card
import ControlPlane.Proofs.Fleet.Ends
import ControlPlane.Proofs.Linearizability

namespace ControlPlane.Fleet

variable {s : Setting} {f g : Fleet} {e : Event} {h p q : History}
  {i j n r : Nat} {ch : Choice} {t t' : Task} {m : String} {w : Write}
  {late : Bool}

-- ============================================================== counting

/-- Those who write to machine `m` in the events behind the first `n`,
the latest first. -/
def writers (s : Setting) (m : String) (n : Nat) : History → List Nat
  | [] => []
  | e :: h =>
      if n ≤ h.length ∧ (after s (e :: h)).stored m ≠ (after s h).stored m
      then e.caller?.toList ++ writers s m n h
      else writers s m n h

/-- The writes of others than call `i` to machine `m` behind the first
`n` events. -/
def others (s : Setting) (i : Nat) (m : String) (n : Nat) (h : History) :
    Nat :=
  (writers s m n h).countP (· ≠ i)

/-- Does the store answer the attempt with a conflict? -/
def Write.clashes (w : Write) (store : MemoryStore) : Bool :=
  match (w.run store).1 with
  | .ok _ => false
  | .error e => e.isConflict

/-- Does the event answer an attempt of call `i` with a conflict? -/
def outrun (f : Fleet) (i : Nat) : Event → Bool
  | .step j (.serve _) =>
      j = i && match f.slots[i]? with
        | some ⟨_, t, false⟩ => t.write?.any fun w => w.clashes f.store
        | _ => false
  | _ => false

/-- The attempts of call `i` that ended in a conflict. -/
def conflicts (s : Setting) (i : Nat) : History → Nat
  | [] => 0
  | e :: h => conflicts s i h + if outrun (after s h) i e then 1 else 0

theorem writers_moved (hn : n ≤ h.length)
    (hst : (after s (e :: h)).stored m ≠ (after s h).stored m) :
    writers s m n (e :: h) = e.caller?.toList ++ writers s m n h :=
  if_pos ⟨hn, hst⟩

theorem others_le (s : Setting) (i : Nat) (m : String) (n : Nat)
    (e : Event) (h : History) :
    others s i m n h ≤ others s i m n (e :: h) := by
  simp only [others, writers]
  split
  · rw [List.countP_append]
    omega
  · exact Nat.le_refl _

theorem others_mono (hp : p <:+ h) :
    others s i m n p ≤ others s i m n h := by
  induction h with
  | nil => rw [List.suffix_nil.mp hp]
  | cons e h ih =>
      rcases List.suffix_cons_iff.mp hp with rfl | hp
      · exact Nat.le_refl _
      · exact Nat.le_trans (ih hp) (others_le s i m n e h)

/-- A write of somebody else counts. -/
theorem others_moved (hn : n ≤ h.length) (he : e.caller? ≠ some i)
    (hst : (after s (e :: h)).stored m ≠ (after s h).stored m) :
    others s i m n (e :: h) = others s i m n h + 1 := by
  rcases stored_step s h e m with hsame | ⟨j, ch, μ, v, rfl, -⟩
  · exact absurd hsame hst
  · have hj : j ≠ i := fun hji => he (congrArg some hji)
    have hcaller : (Event.step j ch).caller?.toList = [j] := rfl
    have hone : [j].countP (· ≠ i) = 1 := by simp [hj]
    unfold others
    rw [writers_moved hn hst, hcaller, List.countP_append, hone]
    omega

theorem conflicts_same (ho : outrun (after s h) i e = false) :
    conflicts s i (e :: h) = conflicts s i h := by
  simp [conflicts, ho]

theorem conflicts_outrun (ho : outrun (after s h) i e = true) :
    conflicts s i (e :: h) = conflicts s i h + 1 := by
  simp [conflicts, ho]

theorem outrun_own (hi : f.slots[i]? = some ⟨r, t, false⟩)
    (now : Moment) :
    outrun f i (.step i (.serve now))
      = t.write?.any fun w => w.clashes f.store := by
  simp [outrun, hi]

/-- An attempt that is outrun is one that the store was asked for. -/
theorem outrun_cases (ho : outrun f i e = true) :
    ∃ now r t w, e = .step i (.serve now)
      ∧ f.slots[i]? = some ⟨r, t, false⟩ ∧ t.write? = some w
      ∧ w.clashes f.store = true := by
  unfold outrun at ho
  split at ho
  · rename_i j now
    rw [Bool.and_eq_true, decide_eq_true_eq] at ho
    obtain ⟨rfl, ho⟩ := ho
    split at ho
    · rename_i r t hi
      cases hw : t.write? with
      | none =>
          rw [hw] at ho
          cases ho
      | some w =>
          rw [hw] at ho
          exact ⟨now, r, t, w, rfl, hi, hw, ho⟩
    · cases ho
  · cases ho

theorem outrun_other (he : e.caller? ≠ some i) : outrun f i e = false := by
  cases ho : outrun f i e with
  | false => rfl
  | true =>
      obtain ⟨now, r, t, w, rfl, -⟩ := outrun_cases ho
      exact absurd rfl he

theorem outrun_absent (hi : f.slots[i]? = none) (e : Event) :
    outrun f i e = false := by
  cases ho : outrun f i e with
  | false => rfl
  | true =>
      obtain ⟨now, r, t, w, -, hi', -⟩ := outrun_cases ho
      cases hi.symm.trans hi'

/-- A call that has not begun had no conflict. -/
theorem conflicts_none (hi : (after s h).slots[i]? = none) :
    conflicts s i h = 0 := by
  induction h with
  | nil => rfl
  | cons e h ih =>
      have hbefore := slot_absent hi
      rw [conflicts_same (outrun_absent hbefore e), ih hbefore]

-- ============================================================== attempts

/-- Does a call attempt to clear its flag? -/
def Task.clears : Task → Bool
  | lifecycle _ => false
  | wait c =>
      match c.stage with
      | .clearing _ _ => true
      | _ => false

/-- The number of the attempt that a call is at, until it is through. -/
def Task.attempt? : Task → Option Nat
  | lifecycle c =>
      match c.stage with
      | .reading | .creating _ | .writing _ _ | .pausing _ =>
          some c.pacing.attempts
      | _ => none
  | wait c =>
      match c.stage with
      | .clearing p _ => some p.attempts
      | .closing _ | .ended _ => none
      | _ => some 1

/-- A call is about to look at its machine's record for the first
time. -/
inductive Task.First : Task → Prop
  | lifecycle {c} (hs : c.stage = .reading) (hp : c.pacing.attempts = 1) :
      First (.lifecycle c)
  | mark {c} (hs : c.stage = .reading) : First (.wait c)
  | clear {c p} (hs : c.stage = .clearing p .reading)
      (hp : p.attempts = 1) : First (.wait c)

/-- How many conflicts it takes to return what a call has returned. -/
def Task.beaten? : Task → Option Nat
  | lifecycle c =>
      match c.stage with
      | .finished (.error (.store e)) =>
          if e.isConflict then some c.retry.budget else none
      | _ => none
  | wait _ => none

/-- At the moment `p` before `h` call `i` looks for the first time, to
clear its flag or to do what it is there for. -/
structure FirstLook (s : Setting) (p h : History) (i : Nat)
    (late : Bool) : Prop where
  step : ∃ ch, (.step i ch :: p) <:+ h
  task : ∃ r t, (after s p).slots[i]? = some ⟨r, t, false⟩ ∧ t.First
    ∧ t.clears = late
  fresh : conflicts s i p = 0

/-- The conflicts of call `i` are paid for: by writes of others to
machine `m`, between its first look and the last attempt that ended in a
conflict. -/
def Paid (s : Setting) (h : History) (i : Nat) (m : String)
    (late : Bool) : Prop :=
  ∃ p q ch r t, FirstLook s p q i late ∧ (.step i ch :: q) <:+ h
    ∧ (after s q).slots[i]? = some ⟨r, t, false⟩ ∧ t.clears = late
    ∧ outrun (after s q) i (.step i ch) = true
    ∧ conflicts s i (.step i ch :: q) = conflicts s i h
    ∧ conflicts s i h ≤ others s i m p.length q

theorem FirstLook.later {p q h : History} (hl : FirstLook s p q i late)
    (hq : q <:+ h) : FirstLook s p h i late where
  step := by
    obtain ⟨ch, hp⟩ := hl.step
    exact ⟨ch, hp.trans hq⟩
  task := hl.task
  fresh := hl.fresh

theorem FirstLook.length_le {p h : History}
    (hl : FirstLook s p h i late) : p.length ≤ h.length := by
  obtain ⟨ch, hp⟩ := hl.step
  have hlen := hp.length_le
  rw [List.length_cons] at hlen
  omega

theorem Paid.later {p h : History} (hpaid : Paid s p i m late)
    (hp : p <:+ h) (hsame : conflicts s i h = conflicts s i p) :
    Paid s h i m late := by
  obtain ⟨p', q, ch, r, t, hl, hq, hi, ht, ho, hc, hle⟩ := hpaid
  refine ⟨p', q, ch, r, t, hl, hq.trans hp, hi, ht, ho, ?_, ?_⟩
  · rw [hsame, hc]
  · rw [hsame]
    exact hle

/-- A write that clashes is one whose base is not the latest version. -/
theorem Write.unfit_of_clashes {store : MemoryStore}
    (hc : w.clashes store = true) : ¬ w.Fits store := by
  intro hfit
  unfold Write.clashes at hc
  cases hoff : store.offline with
  | true =>
      rw [run_offline hoff] at hc
      cases hc
  | false =>
      rw [run_fits hoff hfit] at hc
      cases hc

-- ========================================================== the invariant

/-- What the conflicts of a call have to do with the writes of others. -/
structure Contends (s : Setting) (h : History) (i : Nat) (t : Task) :
    Prop where
  /-- Each conflict has cost one attempt. -/
  counted : ∀ n, t.attempt? = some n → n = conflicts s i h + 1
  /-- What the call is about to write over is the latest version, or
  there was one more write of somebody else. -/
  aimed : ∀ w, t.write? = some w → ∃ p, FirstLook s p h i t.clears
    ∧ (((after s h).stored t.machine = w.base?
        ∧ conflicts s i h ≤ others s i t.machine p.length h)
      ∨ conflicts s i h + 1 ≤ others s i t.machine p.length h)
  paid : conflicts s i h ≠ 0 → ∃ late, Paid s h i t.machine late
    ∧ (t.attempt? ≠ none → late = t.clears)
  beaten : ∀ n, t.beaten? = some n →
    n ≤ conflicts s i h ∧ Paid s h i t.machine false

/-- A call without a conflict that is not about to write. -/
theorem contends_fresh (hn : conflicts s i h = 0)
    (ha : ∀ n, t.attempt? = some n → n = 1) (hw : t.write? = none)
    (hb : t.beaten? = none) : Contends s h i t where
  counted n hx := by rw [ha n hx, hn]
  aimed w hx := by rw [hw] at hx; cases hx
  paid hx := absurd hn hx
  beaten n hx := by rw [hb] at hx; cases hx

/-- An event that is no conflict of the call takes nothing back. -/
theorem Contends.later (hc : Contends s h i t)
    (ho : outrun (after s h) i e = false)
    (haimed : ∀ w, t.write? = some w → ∃ p, FirstLook s p h i t.clears
      ∧ (((after s (e :: h)).stored t.machine = w.base?
          ∧ conflicts s i h ≤ others s i t.machine p.length (e :: h))
        ∨ conflicts s i h + 1 ≤ others s i t.machine p.length (e :: h))) :
    Contends s (e :: h) i t where
  counted n hx := by
    rw [conflicts_same ho]
    exact hc.counted n hx
  aimed w hw := by
    obtain ⟨p, hl, hor⟩ := haimed w hw
    rw [conflicts_same ho]
    exact ⟨p, hl.later (List.suffix_cons e h), hor⟩
  paid hx := by
    rw [conflicts_same ho] at hx
    obtain ⟨late, hp, hlate⟩ := hc.paid hx
    exact ⟨late, hp.later (List.suffix_cons e h) (conflicts_same ho),
      hlate⟩
  beaten n hx := by
    obtain ⟨hn, hp⟩ := hc.beaten n hx
    rw [conflicts_same ho]
    exact ⟨hn, hp.later (List.suffix_cons e h) (conflicts_same ho)⟩

/-- An event that leaves the machine alone. -/
theorem Contends.quiet (hc : Contends s h i t)
    (ho : outrun (after s h) i e = false)
    (hst : (after s (e :: h)).stored t.machine
      = (after s h).stored t.machine) : Contends s (e :: h) i t := by
  refine hc.later ho fun w hw => ?_
  obtain ⟨p, hl, hor⟩ := hc.aimed w hw
  have hle := others_le s i t.machine p.length e h
  refine ⟨p, hl, ?_⟩
  rw [hst]
  rcases hor with ⟨hbase, hcount⟩ | hcount
  · exact Or.inl ⟨hbase, by omega⟩
  · exact Or.inr (by omega)

/-- An event of somebody else. -/
theorem Contends.other (hc : Contends s h i t) (he : e.caller? ≠ some i) :
    Contends s (e :: h) i t := by
  have ho := outrun_other (f := after s h) he
  by_cases hst : (after s (e :: h)).stored t.machine
      = (after s h).stored t.machine
  · exact hc.quiet ho hst
  · refine hc.later ho fun w hw => ?_
    obtain ⟨p, hl, hor⟩ := hc.aimed w hw
    -- the version that the call holds is not the latest any more
    have hmoved := others_moved hl.length_le he hst
    refine ⟨p, hl, Or.inr ?_⟩
    rcases hor with ⟨-, hcount⟩ | hcount
    · omega
    · omega

/-- A call that looks has a first look behind it. -/
theorem Contends.looks (hc : Contends s h i t)
    (hi : (after s h).slots[i]? = some ⟨r, t, false⟩)
    (ha : t.attempt? = some n) (hfirst : n = 1 → t.First) :
    ∃ p, FirstLook s p (.step i ch :: h) i t.clears
      ∧ conflicts s i h ≤ others s i t.machine p.length h := by
  have hcount := hc.counted n ha
  by_cases hn : conflicts s i h = 0
  · have hf := hfirst (by omega)
    refine ⟨h, ⟨⟨ch, List.suffix_rfl⟩, ⟨r, t, hi, hf, rfl⟩, hn⟩, ?_⟩
    omega
  · obtain ⟨late, hp, hlate⟩ := hc.paid hn
    obtain ⟨p, q, ch', r', t', hl, hq, -, -, -, -, hle⟩ := hp
    have hqh : q <:+ h := (List.suffix_cons _ q).trans hq
    rw [← hlate (by rw [ha]; exact nofun)]
    exact ⟨p, hl.later (hqh.trans (List.suffix_cons _ h)),
      Nat.le_trans hle (others_mono hqh)⟩

/-- When an attempt is outrun, there was one more write of somebody else
than the conflicts before. -/
theorem Contends.owed (hc : Contends s h i t)
    (hi : (after s h).slots[i]? = some ⟨r, t, false⟩)
    (ho : outrun (after s h) i (.step i ch) = true) :
    ∃ p, FirstLook s p h i t.clears
      ∧ conflicts s i h < others s i t.machine p.length h := by
  obtain ⟨now, r', t', w, he, hi', hw, hclash⟩ := outrun_cases ho
  cases hi.symm.trans hi'
  obtain ⟨p, hl, hor⟩ := hc.aimed w hw
  refine ⟨p, hl, ?_⟩
  rcases hor with ⟨hbase, -⟩ | hcount
  · -- the version that it holds is the latest: it cannot clash
    refine absurd ?_ (Write.unfit_of_clashes hclash)
    have hkey : w.key = t.machine := write_key hi hw
    unfold Write.Fits
    rw [hkey]
    change ((after s h).stored t.machine).map _ = _
    rw [hbase]
  · exact hcount

theorem Contends.pays (hc : Contends s h i t)
    (hi : (after s h).slots[i]? = some ⟨r, t, false⟩)
    (ho : outrun (after s h) i (.step i ch) = true) :
    Paid s (.step i ch :: h) i t.machine t.clears := by
  obtain ⟨p, hl, hlt⟩ := hc.owed hi ho
  refine ⟨p, h, ch, r, t, hl, List.suffix_rfl, hi, rfl, ho, rfl, ?_⟩
  rw [conflicts_outrun ho]
  exact hlt

-- =========================================================== single steps

/-- A call that is not about to write is not outrun. -/
theorem outrun_idle (hi : f.slots[i]? = some ⟨r, t, false⟩)
    (hw : t.write? = none) : outrun f i (.step i ch) = false := by
  cases ho : outrun f i (.step i ch) with
  | false => rfl
  | true =>
      obtain ⟨now, r', t', w, -, hi', hw', -⟩ := outrun_cases ho
      cases hi.symm.trans hi'
      cases hw.symm.trans hw'

/-- The call goes on at the same attempt, or is through. -/
theorem Contends.goes (hc : Contends s h i t) (hm : t'.machine = t.machine)
    (ho : outrun (after s h) i e = false)
    (ha : ∀ n, t'.attempt? = some n →
      t.attempt? = some n ∧ t'.clears = t.clears)
    (hw : t'.write? = none) (hb : t'.beaten? = none) :
    Contends s (e :: h) i t' where
  counted n hx := by
    rw [conflicts_same ho]
    exact hc.counted n (ha n hx).1
  aimed w hx := by rw [hw] at hx; cases hx
  paid hx := by
    rw [conflicts_same ho] at hx
    obtain ⟨late, hp, hlate⟩ := hc.paid hx
    rw [hm]
    refine ⟨late, hp.later (List.suffix_cons e h) (conflicts_same ho), ?_⟩
    intro hsome
    obtain ⟨n, hn⟩ := Option.ne_none_iff_exists'.mp hsome
    obtain ⟨ht, hclears⟩ := ha n hn
    rw [hclears]
    exact hlate (by rw [ht]; exact nofun)
  beaten n hx := by rw [hb] at hx; cases hx

/-- The call is through. -/
theorem Contends.ends (hc : Contends s h i t) (hm : t'.machine = t.machine)
    (ho : outrun (after s h) i e = false) (ha : t'.attempt? = none)
    (hw : t'.write? = none) (hb : t'.beaten? = none) :
    Contends s (e :: h) i t' := by
  refine hc.goes hm ho (fun n hn => ?_) hw hb
  rw [ha] at hn
  cases hn

/-- The call has looked, and is about to write over what it saw. -/
theorem Contends.drafts (hc : Contends s h i t)
    (hi : (after s h).slots[i]? = some ⟨r, t, false⟩)
    (hm : t'.machine = t.machine) (hr : t.write? = none)
    (ha : t.attempt? = some n) (ha' : t'.attempt? = some n)
    (hfirst : n = 1 → t.First) (hclears : t'.clears = t.clears)
    (hw : t'.write? = some w) (hb : t'.beaten? = none)
    (hbase : (after s (.step i ch :: h)).stored t.machine = w.base?) :
    Contends s (.step i ch :: h) i t' := by
  have ho : outrun (after s h) i (.step i ch) = false :=
    outrun_idle hi hr
  refine ⟨?_, ?_, ?_, ?_⟩
  · intro k hx
    rw [conflicts_same ho]
    exact hc.counted k (ha.trans (ha'.symm.trans hx))
  · intro w' hw'
    cases hw.symm.trans hw'
    obtain ⟨p, hl, hle⟩ : ∃ p, FirstLook s p (.step i ch :: h) i t.clears
        ∧ conflicts s i h ≤ others s i t.machine p.length h :=
      hc.looks hi ha hfirst
    refine ⟨p, hclears ▸ hl, Or.inl ⟨hm ▸ hbase, ?_⟩⟩
    rw [conflicts_same ho, hm]
    exact Nat.le_trans hle (others_le s i t.machine p.length _ h)
  · intro hx
    rw [conflicts_same ho] at hx
    obtain ⟨late, hp, hlate⟩ := hc.paid hx
    rw [hm, hclears]
    refine ⟨late, hp.later (List.suffix_cons _ h) (conflicts_same ho), ?_⟩
    exact fun _ => hlate (by rw [ha]; exact nofun)
  · intro k hx
    rw [hb] at hx
    cases hx

/-- The call has lost an attempt: it has another one, or is through. -/
theorem Contends.loses (hc : Contends s h i t)
    (hi : (after s h).slots[i]? = some ⟨r, t, false⟩)
    (ho : outrun (after s h) i (.step i ch) = true)
    (hm : t'.machine = t.machine) (ha : t.attempt? = some n)
    (ha' : ∀ k, t'.attempt? = some k →
      k = n + 1 ∧ t'.clears = t.clears)
    (hw : t'.write? = none)
    (hb : ∀ k, t'.beaten? = some k → k ≤ n ∧ t.clears = false) :
    Contends s (.step i ch :: h) i t' := by
  have hpaid := hc.pays hi ho
  have hcount := hc.counted n ha
  have hmore := conflicts_outrun ho
  refine ⟨?_, ?_, ?_, ?_⟩
  · intro k hx
    have hk := (ha' k hx).1
    omega
  · intro w hx
    rw [hw] at hx
    cases hx
  · intro _
    rw [hm]
    refine ⟨t.clears, hpaid, fun hsome => ?_⟩
    obtain ⟨k, hk⟩ := Option.ne_none_iff_exists'.mp hsome
    exact (ha' k hk).2.symm
  · intro k hx
    obtain ⟨hk, hclears⟩ := hb k hx
    rw [hm]
    exact ⟨by omega, hclears ▸ hpaid⟩

/-- A look never ends in a conflict. -/
theorem find_calm {store : MemoryStore} {id : String} {x : StoreError}
    (h : store.find id = .error x) : x.isConflict = false := by
  unfold MemoryStore.find at h
  split at h
  · cases h
    rfl
  · split at h
    · cases h
    · cases h
      rfl

theorem beaten_fail {c : Lifecycle.Call} {x : StoreError}
    (hx : x.isConflict = false) :
    (Task.lifecycle (c.fail (.ofStore x))).beaten? = none := by
  cases x with
  | conflict id => cases hx
  | _ => rfl

/-- An operation rejects a record for what it is. -/
theorem change_not_store {op : Operation} {x : MachineRecord}
    {a b : Ambient} {y : StoreError}
    (hx : op.change x a = (.error (.store y), b)) : False := by
  cases op with
  | register req => cases hx
  | attach new =>
      simp only [Operation.change] at hx
      split at hx <;> cases hx
  | allocate req =>
      simp only [Operation.change] at hx
      split at hx <;> cases hx
  | assignVrf vrf =>
      simp only [Operation.change] at hx
      split at hx
      · cases hx
      · split at hx <;> cases hx
  | report req =>
      simp only [Operation.change] at hx
      split at hx <;> cases hx
  | abortReinstall wiped =>
      simp only [Operation.change] at hx
      split at hx
      · split at hx <;> cases hx
      · cases hx

/-- A failure that is no conflict ends the call. -/
theorem FailedWith.calm {c c' : Lifecycle.Call} {x : StoreError}
    (hc : FailedWith c x c') (hx : x.isConflict = false) :
    c' = c.fail (.ofStore x) := by
  rcases hc with ⟨rfl, -⟩ | ⟨hx', -⟩
  · rfl
  · rw [hx] at hx'
    cases hx'

theorem ClearFailed.calm {c c' : Wait.Call} {a : Pacing} {x : StoreError}
    (hc : ClearFailed c a x c') (hx : x.isConflict = false) :
    c' = c.cleared := by
  rcases hc with ⟨rfl, -⟩ | ⟨hx', -⟩
  · rfl
  · rw [hx] at hx'
    cases hx'

/-- What the store answers an attempt that is served. -/
theorem outrun_error {x : StoreError} {m : Moment}
    (hi : f.slots[i]? = some ⟨r, t, false⟩) (hw : t.write? = some w)
    (he : (w.run f.store).1 = .error x) :
    outrun f i (.step i (.serve m)) = x.isConflict := by
  rw [outrun_own hi, hw]
  simp [Write.clashes, he]

theorem outrun_fits {m : Moment}
    (hi : f.slots[i]? = some ⟨r, t, false⟩) (hw : t.write? = some w)
    (hfit : w.Fits f.store) :
    outrun f i (.step i (.serve m)) = false := by
  rw [outrun_own hi, hw]
  cases hc : w.clashes f.store with
  | false => exact hc
  | true => exact absurd hfit (Write.unfit_of_clashes hc)

/-- An operation that is about to look. -/
theorem reading_attempt {c : Lifecycle.Call} (hs : c.stage = .reading) :
    (Task.lifecycle c).write? = none
      ∧ (Task.lifecycle c).attempt? = some c.pacing.attempts
      ∧ (c.pacing.attempts = 1 → (Task.lifecycle c).First) := by
  refine ⟨?_, ?_, .lifecycle hs⟩
  · simp only [Task.write?, lifecycleWrite?, hs]
  · simp only [Task.attempt?, hs]

theorem writing_attempt {c : Lifecycle.Call}
    (hw : lifecycleWrite? c = some w) :
    (Task.lifecycle c).attempt? = some c.pacing.attempts := by
  unfold lifecycleWrite? at hw
  cases hs : c.stage with
  | creating => simp only [Task.attempt?, hs]
  | writing => simp only [Task.attempt?, hs]
  | _ => rw [hs] at hw; cases hw

/-- An operation that settles is through with its attempts. -/
theorem Contends.settles {c c' : Lifecycle.Call} {x : MachineRecord}
    {created : Bool} (hc : Contends s h i (.lifecycle c))
    (hset : Settles c x created c')
    (hm : (Task.lifecycle c').machine = c.machine)
    (ho : outrun (after s h) i e = false) :
    Contends s (e :: h) i (.lifecycle c') := by
  refine hc.ends hm ho ?_ hset.write? ?_
  · rcases hset with ⟨-, rfl⟩ | ⟨_, _, _, -, rfl⟩ <;> rfl
  · rcases hset with ⟨-, rfl⟩ | ⟨_, _, _, -, rfl⟩ <;> rfl

/-- The store has refused what an operation was about to write. -/
theorem Contends.unwritten {c c' : Lifecycle.Call} {x : StoreError}
    {now : Moment} (hc : Contends s h i (.lifecycle c))
    (hi : (after s h).slots[i]? = some ⟨r, .lifecycle c, false⟩)
    (hw : lifecycleWrite? c = some w)
    (he : (w.run (after s h).store).1 = .error x)
    (hfail : FailedWith c x c')
    (hm : (Task.lifecycle c').machine = c.machine) :
    Contends s (.step i (.serve now) :: h) i (.lifecycle c') := by
  have ho := outrun_error (m := now) hi hw he
  cases hx : x.isConflict with
  | false =>
      obtain rfl := hfail.calm hx
      exact hc.ends hm (ho.trans hx) rfl rfl (beaten_fail hx)
  | true =>
      refine hc.loses hi (ho.trans hx) hm (writing_attempt hw) ?_
        hfail.write? ?_
      · intro k hk
        rcases hfail with ⟨rfl, -⟩ | ⟨-, -, d, p, hp, rfl⟩
        · cases hk
        · cases hk
          exact ⟨hp, rfl⟩
      · intro k hk
        rcases hfail with ⟨rfl, hspent⟩ | ⟨-, -, d, p, hp, rfl⟩
        · cases x with
          | conflict id =>
              cases hk
              exact ⟨hspent rfl, rfl⟩
          | _ => cases hx
        · cases hk

theorem contends_lifecycle {c c' : Lifecycle.Call}
    (hc : Contends s h i (.lifecycle c))
    (hi : (after s h).slots[i]? = some ⟨r, .lifecycle c, false⟩)
    (hstep : LifecycleStep (after s h) c ch c' g)
    (hg : after s (.step i ch :: h) = g.setSlot i ⟨r, .lifecycle c', false⟩)
    (hch : ch.faithful = true) :
    Contends s (.step i ch :: h) i (.lifecycle c') := by
  have hm : (Task.lifecycle c').machine = c.machine :=
    (TaskStep.lifecycle (r := r) hstep).same.machine
  have hquiet : (Task.lifecycle c).write? = none →
      outrun (after s h) i (.step i ch) = false :=
    fun hw => outrun_idle hi hw
  cases hstep with
  | @prepared t v x a hs hv hx =>
      obtain ⟨hw, ha, hfirst⟩ := reading_attempt hs
      refine hc.drafts hi hm hw ha rfl hfirst rfl rfl rfl ?_
      rw [hg]
      exact hv
  | @unknown ch req id hs hop he =>
      obtain ⟨hw, ha, hfirst⟩ := reading_attempt hs
      refine hc.drafts hi hm hw ha rfl hfirst rfl rfl rfl ?_
      rw [hg]
      rcases he with rfl | ⟨-, he⟩
      · cases hch
      · rcases MemoryStore.find_error he with hoff | hnone
        · cases hoff
        · exact hnone
  | kept hs hv hx hset hst =>
      exact hc.settles hset hm (hquiet (reading_attempt hs).1)
  | @rejected t v e a g hs hv hx hst =>
      refine hc.ends hm (hquiet (reading_attempt hs).1) rfl rfl ?_
      -- an operation rejects a record, it does not clash with others
      have hno : ∀ e', e ≠ .store e' := by
        rintro e' rfl
        exact change_not_store hx
      cases e with
      | store e' => exact absurd rfl (hno e')
      | _ => rfl
  | @unread ch e c' g hs he hfail hst =>
      have hcalm : e.isConflict = false := by
        rcases he with rfl | ⟨-, he⟩
        · cases hch
        · exact find_calm he
      obtain rfl := hfail.calm hcalm
      exact hc.ends hm (hquiet (reading_attempt hs).1) rfl rfl
        (beaten_fail hcalm)
  | @wrote t w c' g hw hon hfit hwr hst =>
      have ho := outrun_fits (m := t) hi hw hfit
      rcases hwr with ⟨req, -, rfl⟩ | ⟨-, hset⟩
      · exact hc.ends hm ho rfl rfl rfl
      · exact hc.settles hset hm ho
  | @unwritten ch w e c' g hw he hfail hst =>
      rcases he with rfl | ⟨⟨t, rfl⟩, he⟩
      · cases hch
      · exact hc.unwritten hi hw he hfail hm
  | lost hw hfail hst => cases hch
  | resumed hs hst =>
      have hidle : (Task.lifecycle c).write? = none := by
        simp only [Task.write?, lifecycleWrite?, hs]
      refine hc.goes hm (hquiet hidle) ?_ rfl rfl
      intro n hn
      refine ⟨?_, rfl⟩
      simp only [Task.attempt?, hs]
      exact hn
  | published hs hhow hset hst =>
      refine hc.settles hset hm (hquiet ?_)
      simp only [Task.write?, lifecycleWrite?, hs]
  | recorded added hs hhow hst =>
      refine hc.ends hm (hquiet ?_) rfl rfl rfl
      simp only [Task.write?, lifecycleWrite?, hs]

/-- While a wait call blocks, it is not at its attempts yet. -/
theorem block_attempt {c : Wait.Call} {b : Wait.Block}
    (hb : c.stage.block? = some b) :
    (Task.wait c).write? = none ∧ (Task.wait c).attempt? = some 1
      ∧ (Task.wait c).clears = false := by
  simp only [Task.write?, Task.attempt?, Task.clears]
  cases hs : c.stage with
  | blocked => exact ⟨rfl, rfl, rfl⟩
  | rechecking => exact ⟨rfl, rfl, rfl⟩
  | polling => exact ⟨rfl, rfl, rfl⟩
  | sending => exact ⟨rfl, rfl, rfl⟩
  | _ =>
      rw [hs] at hb
      cases hb

theorem Contends.closes {c : Wait.Call} (hc : Contends s h i (.wait c))
    (result : Except WaitError Wait.Outcome)
    (ho : outrun (after s h) i e = false) :
    Contends s (e :: h) i (.wait (c.close result)) :=
  hc.ends rfl ho rfl rfl rfl

/-- The store has refused the mark of a wait call. -/
theorem Contends.unmarked {c : Wait.Call} {old : Versioned}
    {next : MachineRecord} {x : StoreError} {now : Moment}
    {result : Except WaitError Wait.Outcome}
    (hc : Contends s h i (.wait c))
    (hi : (after s h).slots[i]? = some ⟨r, .wait c, false⟩)
    (hs : c.stage = .marking old next)
    (he : ((Write.update old next).run (after s h).store).1 = .error x) :
    Contends s (.step i (.serve now) :: h) i (.wait (c.close result)) := by
  have hw : (Task.wait c).write? = some (.update old next) := by
    simp only [Task.write?, hs]
  have ho := outrun_error (m := now) hi hw he
  cases hx : x.isConflict with
  | false => exact hc.closes _ (ho.trans hx)
  | true =>
      refine hc.loses (n := 1) hi (ho.trans hx) rfl ?_
        (fun k hk => by cases hk) rfl (fun k hk => by cases hk)
      simp only [Task.attempt?, hs]

/-- The store has refused a wait call that clears its flag. -/
theorem Contends.unclear {c c' : Wait.Call} {a : Pacing}
    {old : Versioned} {next : MachineRecord} {x : StoreError}
    {now : Moment} (hc : Contends s h i (.wait c))
    (hi : (after s h).slots[i]? = some ⟨r, .wait c, false⟩)
    (hs : c.stage = .clearing a (.writing old next))
    (he : ((Write.update old next).run (after s h).store).1 = .error x)
    (hfail : ClearFailed c a x c')
    (hm : (Task.wait c').machine = c.machine) :
    Contends s (.step i (.serve now) :: h) i (.wait c') := by
  have hw : (Task.wait c).write? = some (.update old next) := by
    simp only [Task.write?, hs]
  have ho := outrun_error (m := now) hi hw he
  cases hx : x.isConflict with
  | false =>
      obtain rfl := hfail.calm hx
      exact hc.closes _ (ho.trans hx)
  | true =>
      refine hc.loses (n := a.attempts) hi (ho.trans hx) hm ?_ ?_
        hfail.write? (fun k hk => by cases hk)
      · simp only [Task.attempt?, hs]
      · intro k hk
        rcases hfail with ⟨rfl, -⟩ | ⟨-, -, d, a', ha, rfl⟩
        · cases hk
        · cases hk
          simp only [Task.clears, hs]
          exact ⟨ha, rfl⟩

theorem contends_wait {c c' : Wait.Call}
    (hc : Contends s h i (.wait c))
    (hi : (after s h).slots[i]? = some ⟨r, .wait c, false⟩)
    (hstep : WaitStep (after s h) r c ch c' g)
    (hg : after s (.step i ch :: h) = g.setSlot i ⟨r, .wait c', false⟩)
    (hch : ch.faithful = true) :
    Contends s (.step i ch :: h) i (.wait c') := by
  have hm : (Task.wait c').machine = c.machine :=
    (TaskStep.wait hstep).same.machine
  have hquiet : (Task.wait c).write? = none →
      outrun (after s h) i (.step i ch) = false :=
    fun hw => outrun_idle hi hw
  cases hstep with
  | opened hs hst =>
      refine hc.goes hm (hquiet (by simp only [Task.write?, hs])) ?_ rfl rfl
      intro n hn
      simp only [Task.attempt?, Task.clears, hs]
      exact ⟨hn, rfl⟩
  | already hs hv ha hst =>
      exact hc.closes _ (hquiet (by simp only [Task.write?, hs]))
  | unread hs he hst =>
      exact hc.closes _ (hquiet (by simp only [Task.write?, hs]))
  | @prepared t v hs hv ha =>
      refine hc.drafts (n := 1) (w := .update v _) hi hm ?_ ?_ rfl
        (fun _ => .mark hs) ?_ rfl rfl ?_
      · simp only [Task.write?, hs]
      · simp only [Task.attempt?, hs]
      · simp only [Task.clears, hs]
        rfl
      · rw [hg]
        exact hv
  | @marked t old next g hs hon hfit hst =>
      have hw : (Task.wait c).write? = some (.update old next) := by
        simp only [Task.write?, hs]
      refine hc.goes hm (outrun_fits hi hw hfit) ?_ rfl rfl
      intro n hn
      simp only [Task.attempt?, Task.clears, hs]
      exact ⟨hn, rfl⟩
  | @unmarked ch e old next g hs he hst =>
      rcases he with rfl | ⟨⟨t, rfl⟩, he⟩
      · cases hch
      · exact hc.unmarked hi hs he
  | markLost hs hst => cases hch
  | entered hs hr hst =>
      refine hc.goes hm (hquiet (by simp only [Task.write?, hs])) ?_ rfl rfl
      intro n hn
      simp only [Task.attempt?, Task.clears, hs]
      exact ⟨hn, rfl⟩
  | barred hs hr hst =>
      exact hc.closes _ (hquiet (by simp only [Task.write?, hs]))
  | @stays ch b x b' g hs hb hmach hgen hst =>
      obtain ⟨hw, ha, hclears⟩ := block_attempt hs
      obtain ⟨hw', ha', hclears'⟩ := block_attempt (c := c.goto x) hb
      refine hc.goes hm (hquiet hw) ?_ hw' rfl
      intro n hn
      exact ⟨ha.trans (ha'.symm.trans hn), hclears'.trans hclears.symm⟩
  | saw hs how hst =>
      obtain ⟨hw, ha, -⟩ := block_attempt hs
      have hcount := hc.counted 1 ha
      refine contends_fresh ?_ ?_ rfl rfl
      · rw [conflicts_same (hquiet hw)]
        omega
      · intro n hn
        cases hn
        rfl
  | left hs hst how =>
      exact hc.closes _ (hquiet (block_attempt hs).1)
  | @clearPrepared t a v hs hv hwait =>
      refine hc.drafts (n := a.attempts) (w := .update v _) hi hm ?_ ?_ rfl
        (fun hn => .clear hs hn) ?_ rfl rfl ?_
      · simp only [Task.write?, hs]
      · simp only [Task.attempt?, hs]
      · simp only [Task.clears, hs]
        rfl
      · rw [hg]
        exact hv
  | clearKept hs hv hwait hst =>
      exact hc.closes _ (hquiet (by simp only [Task.write?, hs]))
  | @cleared t a old next g hs hon hfit hst =>
      have hw : (Task.wait c).write? = some (.update old next) := by
        simp only [Task.write?, hs]
      exact hc.closes _ (outrun_fits hi hw hfit)
  | @clearUnread ch a e c' g hs he hfail hst =>
      have hcalm : e.isConflict = false := by
        rcases he with rfl | ⟨-, he⟩
        · cases hch
        · exact find_calm he
      obtain rfl := hfail.calm hcalm
      exact hc.closes _ (hquiet (by simp only [Task.write?, hs]))
  | @unclear ch a old next e c' g hs he hfail hst =>
      rcases he with rfl | ⟨⟨t, rfl⟩, he⟩
      · cases hch
      · exact hc.unclear hi hs he hfail hm
  | clearLost hs hfail hst => cases hch
  | clearResumed hs hst =>
      refine hc.goes hm (hquiet (by simp only [Task.write?, hs])) ?_ rfl rfl
      intro n hn
      simp only [Task.attempt?, Task.clears, hs]
      exact ⟨hn, rfl⟩
  | said hs hst =>
      exact hc.ends hm (hquiet (by simp only [Task.write?, hs])) rfl rfl rfl

/-- An attempt that is served takes place. -/
theorem outrun_step (ho : outrun f i e = true) :
    ∃ now r t t' g, e = .step i (.serve now)
      ∧ f.slots[i]? = some ⟨r, t, false⟩
      ∧ TaskStep f r t (.serve now) t' g
      ∧ f.step e = g.setSlot i ⟨r, t', false⟩ := by
  obtain ⟨now, r, t, w, rfl, hi, hw, -⟩ := outrun_cases ho
  have hmeet : ∃ y, f.meetTask r (.serve now) t = some y := by
    cases t with
    | lifecycle c =>
        have hs : ∀ result, c.stage ≠ .finished result := by
          intro result hs
          simp only [Task.write?, lifecycleWrite?, hs] at hw
          cases hw
        obtain ⟨y, hy⟩ := meet_serve f r now hs
        exact ⟨_, congrArg (Option.map _) hy⟩
    | wait c =>
        simp only [Task.write?] at hw
        split at hw
        · rename_i old next hs
          simp only [meetTask, Wait.Call.demand, hs]
          exact ⟨_, rfl⟩
        · rename_i a old next hs
          simp only [meetTask, Wait.Call.demand, hs]
          exact ⟨_, rfl⟩
        · cases hw
  obtain ⟨⟨t', g⟩, hy⟩ := hmeet
  refine ⟨now, r, t, t', g, rfl, hi, task_step hy, ?_⟩
  simp only [step, advance, hi, hy]
  rfl

/-- The conflicts of every call, at every moment. -/
theorem contends (hf : Faithful h) {x : Slot}
    (hx : (after s h).slots[i]? = some x) : Contends s h i x.task := by
  induction h generalizing x with
  | nil => cases hx
  | cons e h ih =>
      have ih := @ih fun e' he => hf e' (List.mem_cons_of_mem e he)
      have hstep : ∀ {ch r t t' g}, e = .step i ch →
          (after s h).slots[i]? = some ⟨r, t, false⟩ →
          TaskStep (after s h) r t ch t' g →
          after s (e :: h) = g.setSlot i ⟨r, t', false⟩ →
          Contends s (e :: h) i t' := by
        rintro ch r t t' g rfl hi ht hg
        have hch : ch.faithful = true := hf _ List.mem_cons_self
        cases ht with
        | lifecycle hl => exact contends_lifecycle (ih hi) hi hl hg hch
        | wait hw => exact contends_wait (ih hi) hi hw hg hch
      have hslot := hx
      rw [after_cons] at hslot
      have hs := slot_step hslot
      generalize hg : (after s h).step e = g at hs
      cases hs with
      | same hi he => exact (ih hi).other he
      | idle hi =>
          cases ho : outrun (after s h) i e with
          | false =>
              refine (ih hi).quiet ho ?_
              rw [after_cons, hg]
          | true =>
              -- the step did happen, even if it left everything as it was
              obtain ⟨now, r, t, t', g, rfl, hi', ht, hg'⟩ := outrun_step ho
              have hx' := hx
              rw [after_cons, hg', setSlot_get? hi' ht.frame.slots,
                if_pos rfl] at hx'
              cases hx'
              exact hstep rfl hi' ht hg'
      | submitted hnone =>
          refine contends_fresh ?_ (fun n hn => by cases hn; rfl) rfl rfl
          rw [conflicts_same rfl, conflicts_none hnone]
      | awaited hnone =>
          refine contends_fresh ?_ (fun n hn => by cases hn; rfl) rfl rfl
          rw [conflicts_same rfl, conflicts_none hnone]
      | advanced hi ht => exact hstep rfl hi ht hg
      | expired hi hu =>
          exact (ih hi).ends rfl rfl rfl rfl rfl
      | dropped hi =>
          refine (ih hi).quiet rfl ?_
          rcases stored_step s h (.drop i) _ with hst | ⟨_, _, _, _, he, -⟩
          · exact hst
          · cases he

-- ============================================================ the writers

theorem mem_writers (hj : j ∈ writers s m n h) :
    ∃ q ch μ v, (.step j ch :: q) <:+ h ∧ Follows s q j ch m μ v := by
  induction h with
  | nil => cases hj
  | cons e h ih =>
      have hrest : j ∈ writers s m n h →
          ∃ q ch μ v, (.step j ch :: q) <:+ (e :: h)
            ∧ Follows s q j ch m μ v := by
        intro hj
        obtain ⟨q, ch, μ, v, hq, hfol⟩ := ih hj
        exact ⟨q, ch, μ, v, hq.trans (List.suffix_cons e h), hfol⟩
      rw [writers] at hj
      split at hj
      · rename_i hnew
        rcases stored_step s h e m with hsame | ⟨k, ch, μ, v, rfl, hfol⟩
        · exact absurd hsame hnew.2
        · rcases List.mem_append.mp hj with hk | hj
          · cases List.mem_singleton.mp hk
            exact ⟨h, ch, μ, v, List.suffix_rfl, hfol⟩
          · exact hrest hj
      · exact hrest hj

/-- An operation neither sets nor clears a flag. -/
theorem Follows.no_flag {c : Lifecycle.Call} {d : Bool} {μ : Mutation}
    {v : Versioned} (hfol : Follows s q j ch m μ v) (hq : q <:+ h)
    (hj : (after s h).slots[j]? = some ⟨r, .lifecycle c, d⟩) :
    μ ≠ .mark ∧ μ ≠ .clear := by
  obtain ⟨r', t, hi, -, hμ⟩ := hfol.call
  obtain ⟨x, hx, -, hsame⟩ := slot_later hq hi
  cases hx.symm.trans hj
  change t.Same (.lifecycle c) at hsame
  cases hsame with
  | lifecycle c' =>
      rcases operation_mutation hμ with ⟨req, -, rfl⟩ | rfl
      · exact ⟨by rintro ⟨⟩, by rintro ⟨⟩⟩
      · exact ⟨by rintro ⟨⟩, by rintro ⟨⟩⟩

/-- Operations write once each. -/
theorem writers_nodup (hf : Faithful h) (hp : p <:+ h)
    (hall : ∀ j ∈ writers s m n p, ∃ r c d,
      (after s h).slots[j]? = some ⟨r, .lifecycle c, d⟩) :
    (writers s m n p).Nodup := by
  induction p with
  | nil => exact List.nodup_nil
  | cons e p ih =>
      have hp' : p <:+ h := (List.suffix_cons e p).trans hp
      rw [writers] at hall ⊢
      split at hall
      · rename_i hnew
        rw [if_pos hnew]
        rcases stored_step s p e m with hsame | ⟨j, ch, μ, v, rfl, hfol⟩
        · exact absurd hsame hnew.2
        · have hrest := ih hp' fun k hk =>
            hall k (List.mem_append_right _ hk)
          refine List.nodup_cons.mpr ⟨fun hj => ?_, hrest⟩
          -- the same call has written before
          obtain ⟨q, ch', μ', v', hq, hfol'⟩ := mem_writers hj
          obtain ⟨r, c, d, hslot⟩ := hall j (List.mem_append_right _ hj)
          have hqp : q <:+ h :=
            ((List.suffix_cons _ q).trans hq).trans hp'
          have hμ := hfol.no_flag hp' hslot
          have hμ' := hfol'.no_flag hqp hslot
          rcases once hf hp (hq.trans hp') hfol hfol' with
            rfl | ⟨hmark, -⟩ | ⟨hclear, -⟩
          · have hlen := hq.length_le
            rw [List.length_cons] at hlen
            omega
          · exact hμ.1 hmark
          · exact hμ.2 hclear
      · rename_i hold
        rw [if_neg hold]
        exact ih hp' hall

/-- Among operations of a set, a call has fewer rivals than there are
operations. -/
theorem others_lt {ks : Finset Nat} (hf : Faithful h) (hi : i ∈ ks)
    (hall : ∀ j ∈ ks, ∃ r c d,
      (after s h).slots[j]? = some ⟨r, .lifecycle c, d⟩)
    (honly : ∀ j ∈ writers s m n h, j ∈ ks) :
    others s i m n h < ks.card := by
  have hnodup := writers_nodup hf List.suffix_rfl
    fun j hj => hall j (honly j hj)
  have hsub : ((writers s m n h).filter (· ≠ i)).toFinset
      ⊆ ks.erase i := by
    intro j hj
    rw [List.mem_toFinset, List.mem_filter, decide_eq_true_eq] at hj
    exact Finset.mem_erase.mpr ⟨hj.2, honly j hj.1⟩
  have hcard := Finset.card_le_card hsub
  rw [List.toFinset_card_of_nodup (hnodup.filter _),
    Finset.card_erase_of_mem hi] at hcard
  have hpos : 0 < ks.card := Finset.card_pos.mpr ⟨i, hi⟩
  unfold others
  rw [List.countP_eq_length_filter]
  omega

-- ============================================================ the theorem

/-- What the conflicts of calls say about the writes of others. -/
structure Contention (s : Setting) (h : History) : Prop where
  /-- The conflicts of a call are no more than the writes of others to
  its machine, between its first look and its last attempt. -/
  charged : ∀ i x, (after s h).slots[i]? = some x →
    conflicts s i h ≠ 0 → ∃ late, Paid s h i x.task.machine late
  /-- An operation with fewer writes of others than attempts does not
  return a conflict. -/
  spared : ∀ i r c d e,
    (after s h).slots[i]? = some ⟨r, .lifecycle c, d⟩ →
    (∀ p, FirstLook s p h i false →
      others s i c.machine p.length h < c.retry.budget) →
    c.stage = .finished (.error (.store e)) → e.isConflict = false
  /-- A call that clears its flag, with fewer writes of others than
  attempts, attempts it again after a conflict. -/
  renewed : ∀ i ch q r c c' a old next,
    (.step i ch :: q) <:+ h →
    (after s q).slots[i]? = some ⟨r, .wait c, false⟩ →
    c.stage = .clearing a (.writing old next) →
    outrun (after s q) i (.step i ch) = true →
    (after s (.step i ch :: q)).slots[i]? = some ⟨r, .wait c', false⟩ →
    (∀ p, FirstLook s p q i true →
      others s i c.machine p.length q < c.retry.budget) →
    ∃ a' d, c'.stage = .clearing a' (.pausing d)
  /-- Operations that have a machine for themselves, and are no more
  than the attempts of each, return no conflicts. -/
  shared : ∀ (ks : Finset Nat) m,
    (∀ i ∈ ks, ∃ r c d, (after s h).slots[i]? = some ⟨r, .lifecycle c, d⟩
      ∧ c.machine = m ∧ ks.card ≤ c.retry.budget) →
    (∀ i ∈ ks, ∀ p, FirstLook s p h i false →
      ∀ j ∈ writers s m p.length h, j ∈ ks) →
    ∀ i ∈ ks, ∀ r c d e,
      (after s h).slots[i]? = some ⟨r, .lifecycle c, d⟩ →
      c.stage = .finished (.error (.store e)) → e.isConflict = false
  /-- A call whose mark ends in an abortion had a write of somebody else
  between its look and its mark. -/
  aborted : ∀ i ch q r c c' old next id,
    (.step i ch :: q) <:+ h →
    (after s q).slots[i]? = some ⟨r, .wait c, false⟩ →
    c.stage = .marking old next →
    (after s (.step i ch :: q)).slots[i]? = some ⟨r, .wait c', false⟩ →
    c'.stage = .closing (.error (.aborted id)) →
    ∃ p, FirstLook s p q i false ∧ 0 < others s i c.machine p.length q

theorem spared_of_few {c : Lifecycle.Call} {d : Bool} {x : StoreError}
    (hf : Faithful h)
    (hi : (after s h).slots[i]? = some ⟨r, .lifecycle c, d⟩)
    (hfew : ∀ p, FirstLook s p h i false →
      others s i c.machine p.length h < c.retry.budget)
    (hs : c.stage = .finished (.error (.store x))) :
    x.isConflict = false := by
  cases hx : x.isConflict with
  | false => rfl
  | true =>
      have hbeaten : (Task.lifecycle c).beaten? = some c.retry.budget := by
        simp only [Task.beaten?, hs, hx, if_true]
      obtain ⟨hle, p, q, ch, r', t, hl, hq, -, -, -, -, hpaid⟩ :=
        (contends hf hi).beaten _ hbeaten
      have hqh : q <:+ h := (List.suffix_cons _ q).trans hq
      have hlt := hfew p (hl.later hqh)
      have hmono := others_mono (s := s) (i := i) (m := c.machine)
        (n := p.length) hqh
      change conflicts s i h ≤ others s i c.machine p.length q at hpaid
      omega

/-- The step after an attempt to clear the flag that was outrun. -/
theorem WaitStep.outruns {c c' : Wait.Call} {a : Pacing} {old : Versioned}
    {next : MachineRecord} {now : Moment}
    (hstep : WaitStep f r c (.serve now) c' g)
    (hi : f.slots[i]? = some ⟨r, .wait c, false⟩)
    (hs : c.stage = .clearing a (.writing old next))
    (ho : outrun f i (.step i (.serve now)) = true) :
    ∃ x, ClearFailed c a x c' ∧ x.isConflict = true := by
  have hw : (Task.wait c).write? = some (.update old next) := by
    simp only [Task.write?, hs]
  cases hstep with
  | cleared hs' hon hfit hst =>
      cases hs.symm.trans hs'
      rw [outrun_fits hi hw hfit] at ho
      cases ho
  | unclear hs' he hc hst =>
      cases hs.symm.trans hs'
      rcases he with he | ⟨-, he⟩
      · cases he
      · rw [outrun_error hi hw he] at ho
        exact ⟨_, hc, ho⟩
  | stays hb => rw [hs] at hb; cases hb
  | saw hb => rw [hs] at hb; cases hb
  | left hb => rw [hs] at hb; cases hb
  | _ => simp_all only [reduceCtorEq, Wait.Stage.clearing.injEq, and_false]

theorem renewed_of_few {c c' : Wait.Call} {a : Pacing} {old : Versioned}
    {next : MachineRecord} (hf : Faithful h)
    (hi : (after s h).slots[i]? = some ⟨r, .wait c, false⟩)
    (hs : c.stage = .clearing a (.writing old next))
    (ho : outrun (after s h) i (.step i ch) = true)
    (hi' : (after s (.step i ch :: h)).slots[i]?
      = some ⟨r, .wait c', false⟩)
    (hfew : ∀ p, FirstLook s p h i true →
      others s i c.machine p.length h < c.retry.budget) :
    ∃ a' d, c'.stage = .clearing a' (.pausing d) := by
  have hc := contends hf hi
  have hcount := hc.counted a.attempts (by simp only [Task.attempt?, hs])
  -- the attempts so far are all paid for
  obtain ⟨p, hl, howed⟩ := hc.owed hi ho
  have hlate : (Task.wait c).clears = true := by
    simp only [Task.clears, hs]
  have hlt := hfew p (hlate ▸ hl)
  change _ < others s i c.machine p.length h at howed
  obtain ⟨now, r₀, t₀, t', g, he, hi₀, ht, hg⟩ := outrun_step ho
  cases he
  cases hi.symm.trans hi₀
  have hslot := hi'
  rw [after_cons, hg, setSlot_get? hi ht.frame.slots, if_pos rfl] at hslot
  cases hslot
  cases ht with
  | wait hstep =>
      obtain ⟨x, hfail, hx⟩ := hstep.outruns hi hs ho
      rcases hfail with ⟨-, hspent⟩ | ⟨-, -, d, a', -, rfl⟩
      · have := hspent hx
        omega
      · exact ⟨a', d, rfl⟩

/-- A mark that ends in an abortion was outrun. -/
theorem WaitStep.aborts {c c' : Wait.Call} {old : Versioned}
    {next : MachineRecord} {id : String}
    (hstep : WaitStep f r c ch c' g) (hch : ch.faithful = true)
    (hi : f.slots[i]? = some ⟨r, .wait c, false⟩)
    (hs : c.stage = .marking old next)
    (hs' : c'.stage = .closing (.error (.aborted id))) :
    outrun f i (.step i ch) = true := by
  have hw : (Task.wait c).write? = some (.update old next) := by
    simp only [Task.write?, hs]
  cases hstep with
  | marked => cases hs'
  | markLost => cases hch
  | @unmarked ch x old next g hs'' he hst =>
      cases hs.symm.trans hs''
      rcases he with rfl | ⟨⟨t, rfl⟩, he⟩
      · cases hch
      · rw [outrun_error hi hw he]
        cases x with
        | conflict id => rfl
        | _ => cases hs'
  | stays hb => rw [hs] at hb; cases hb
  | saw hb => rw [hs] at hb; cases hb
  | left hb => rw [hs] at hb; cases hb
  | _ => simp_all only [reduceCtorEq]

theorem written_between {c c' : Wait.Call} {old : Versioned}
    {next : MachineRecord} {id : String}
    (hf : Faithful (.step i ch :: h))
    (hi : (after s h).slots[i]? = some ⟨r, .wait c, false⟩)
    (hs : c.stage = .marking old next)
    (hi' : (after s (.step i ch :: h)).slots[i]?
      = some ⟨r, .wait c', false⟩)
    (hs' : c'.stage = .closing (.error (.aborted id))) :
    ∃ p, FirstLook s p h i false
      ∧ 0 < others s i c.machine p.length h := by
  have hch : ch.faithful = true := hf _ List.mem_cons_self
  have hc := contends
    (fun e he => hf e (List.mem_cons_of_mem _ he)) hi
  have hclears : (Task.wait c).clears = false := by
    simp only [Task.clears, hs]
  have ho : outrun (after s h) i (.step i ch) = true := by
    have hslot := hi'
    rw [after_cons] at hslot
    have hstep := slot_step hslot
    generalize (after s h).step (.step i ch) = g at hstep
    cases hstep with
    | same hx he => exact absurd rfl he
    | idle hx =>
        cases hi.symm.trans hx
        cases hs.symm.trans hs'
    | advanced hx ht =>
        cases hi.symm.trans hx
        cases ht with
        | wait hstep => exact hstep.aborts hch hi hs hs'
  obtain ⟨p, hl, howed⟩ := hc.owed hi ho
  exact ⟨p, hclears ▸ hl, Nat.lt_of_le_of_lt (Nat.zero_le _) howed⟩

/-- Conflicts are bounded by the writes of others to the same machine,
in every history of every fleet. -/
theorem contention (hf : Faithful h) : Contention s h where
  charged i x hx hn := by
    obtain ⟨late, hp, -⟩ := (contends hf hx).paid hn
    exact ⟨late, hp⟩
  spared i r c d e hi hfew hs := spared_of_few hf hi hfew hs
  renewed i ch q r c c' a old next hq hi hs ho hi' hfew := by
    have hq' : q <:+ h := (List.suffix_cons _ q).trans hq
    exact renewed_of_few (fun e he => hf e (hq'.subset he)) hi hs ho hi'
      hfew
  shared ks m hall honly i hik r c d e hi hs := by
    obtain ⟨r', c', d', hi', rfl, hbudget⟩ := hall i hik
    cases hi.symm.trans hi'
    refine spared_of_few hf hi (fun p hl => ?_) hs
    refine Nat.lt_of_lt_of_le (others_lt hf hik ?_ (honly i hik p hl))
      hbudget
    intro j hj
    obtain ⟨r, c, d, hslot, -⟩ := hall j hj
    exact ⟨r, c, d, hslot⟩
  aborted i ch q r c c' old next id hq hi hs hi' hs' :=
    written_between (fun e he => hf e (hq.subset he)) hi hs hi' hs'

/-- A card's wire to a switch. -/
def wireTo (switchId : String) : SwitchConnection :=
  ⟨switchId, "1", ⟨0, 0, 0, 0, 0, 1⟩⟩

/-- Three wirings of one machine all read its first version, and so does
a wait call; they write one after the other. -/
def crowding : History :=
  [.step 3 (.serve 0), .step 3 (.serve 0), .step 3 (.serve 0),
    .step 3 (.serve 0), .step 2 (.serve 0), .step 3 (.serve 0),
    .step 2 (.serve 0), .step 3 (.serve 0), .step 2 (.serve 0),
    .step 4 (.serve 0), .step 3 (.serve 0), .step 2 (.serve 0),
    .step 1 (.serve 0), .step 4 (.serve 0), .step 4 (.serve 0),
    .step 3 (.serve 0), .step 2 (.serve 0), .step 1 (.serve 0),
    .await 0 "n" ⟨⟨5⟩, ⟨9⟩⟩ labRetry "m",
    .submit 1 labRetry "m" (.attach [wireTo "c"]),
    .submit 0 labRetry "m" (.attach [wireTo "b"]),
    .submit 0 labRetry "m" (.attach [wireTo "a"]),
    .step 0 (.serve 0), .step 0 (.serve 0), .step 0 (.serve 0),
    .submit 0 labRetry "m" (.register {})]

theorem contention_crowding :
    conflicts lab 3 crowding = 2
      ∧ (∃ c x, (after lab crowding).slots[3]?
            = some ⟨1, .lifecycle c, false⟩
        ∧ c.stage = .finished (.ok x))
      ∧ (∃ c id, (after lab crowding).slots[4]?
            = some ⟨0, .wait c, false⟩
        ∧ c.stage = .closing (.error (.aborted id)))
      ∧ Contention lab crowding :=
  ⟨by decide +kernel, ⟨_, _, rfl, rfl⟩, ⟨_, _, rfl, rfl⟩,
    contention (by unfold Faithful crowding; decide)⟩

end ControlPlane.Fleet
