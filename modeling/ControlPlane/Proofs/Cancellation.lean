/-
What becomes of a blocked wait call whose token is cancelled. The call
reacts to its token at the select only: there it ends at once, with
`Cancelled(Disconnected)`, and lets go of its signal in the same step.
But a call that is reading the store or sending a keep-alive does not
look at its token before it has the answer, and a sink that stalls keeps
the call, and its hold on the signal, for as long as it does
(`stalled`). What holds is that the clock goes on for no other reason:
from the cancellation on, time passes only while an answer is awaited,
and no more answers are asked for than the tick that is being served
still needs, unless the select takes another branch that is ready at the
same time (`cancellation_heeded`).

Chain: over Courses.lean.
-/
import ControlPlane.Proofs.Courses

namespace ControlPlane.Wait

/-- Does the select take another branch than the cancellation? -/
def Turn.overlooks : Turn → Bool
  | .wake => true
  | .tick => true
  | _ => false

/-- The keep-alive that a tick still has to send while it looks into the
store. -/
def Stage.owed : Stage → Nat
  | .polling _ => 1
  | _ => 0

theorem Stage.owed_behind {s : Stage} (h : s.isBehind = true) :
    s.owed = 0 := by
  cases s <;> first | rfl | cases h

namespace Course

variable {c c' : Course} {x : Turn} {b b' : Block} {p l : List Turn}

-- ============================================================ what it costs

/-- The time for which a turn keeps the call waiting for an answer. -/
def waited (c : Course) : Turn → Nat
  | .lag d => if c.awaits then d else 0
  | _ => 0

/-- The time that the turns `l` behind `p` kept the call waiting for
answers. -/
def awaited (c : Course) (p : List Turn) : List Turn → Nat
  | [] => 0
  | x :: l => awaited c p l + waited (c.after (l ++ p)) x

/-- How many answers the call has asked for in its block. -/
def asked (c : Course) : Nat := c.looks.length + c.sends.length

-- ============================================================== one turn

theorem Turned.cancelled_kept (ht : Turned c x c')
    (hq : c.cancelled = true) : c'.cancelled = true := by
  cases ht with
  | cancelled => rfl
  | _ => exact hq

/-- A call that blocks has done so before. -/
theorem Turned.inside (ht : Turned c x c')
    (hin : c'.call.stage.block? = some b') :
    ∃ b, c.call.stage.block? = some b := by
  cases ht with
  | rechecks hs => exact ⟨_, by rw [hs]; rfl⟩
  | polls hs => exact ⟨_, by rw [hs]; rfl⟩
  | keeps hs => exact ⟨_, by rw [hs]; rfl⟩
  | rechecked hs => exact ⟨_, by rw [hs]; rfl⟩
  | polled hs => exact ⟨_, by rw [hs]; rfl⟩
  | kept hs => exact ⟨_, by rw [hs]; rfl⟩
  | left hs => exact ⟨_, hs⟩
  | behind hs hopen hb hn =>
      cases (Stage.block?_behind hb).symm.trans hin
  | _ => exact ⟨_, hin⟩

/-- A blocked call whose token is cancelled lets no time pass by
itself. -/
theorem Turned.still (ht : Turned c x c') (hq : c.cancelled = true)
    (hx : ∀ d, x ≠ .lag d) (hin : c'.call.stage.block? = some b') :
    c'.now = c.now := by
  cases ht with
  | passed hs hopen hd => cases hq.symm.trans hopen
  | lagged ha => exact absurd rfl (hx _)
  | rested hs =>
      have hended : c.call.stage.block? = some b' := hin
      rw [hs] at hended
      cases hended
  | behind hs hopen hb hn =>
      cases (Stage.block?_behind hb).symm.trans hin
  | _ => rfl

theorem turn_now (hb : c.Begun) (hq : c.cancelled = true)
    (hin : (c.turn x).call.stage.block? = some b') :
    (c.turn x).now = c.now + waited c x := by
  cases x with
  | lag d =>
      show (if c.awaits then { c with now := c.now + d } else c).now
        = c.now + if c.awaits then d else 0
      cases c.awaits <;> rfl
  | _ => exact (turned hb _).still hq (fun _ hx => nomatch hx) hin

/-- A tick asks two answers at most, a wake-up one, and nothing else
asks any, but for a keep-alive that was owed already. -/
theorem Turned.asks (ht : Turned c x c') :
    asked c' + c'.call.stage.owed
      ≤ asked c + c.call.stage.owed + if x.overlooks then 2 else 0 := by
  cases ht with
  | rechecks hs hb =>
      show (c.looks.length + 1) + c.sends.length + 0 ≤ _ + _ + 2
      unfold asked
      omega
  | polls hs hd hdue hb =>
      show (c.looks.length + 1) + c.sends.length + 1 ≤ _ + _ + 2
      unfold asked
      omega
  | keeps hs hd hdue hb =>
      show c.looks.length + (c.sends.length + 1) + 0 ≤ _ + _ + 2
      unfold asked
      omega
  | rechecked hs hv => exact Nat.le_add_right _ _
  | polled hs hv =>
      have howed : c.call.stage.owed = 1 := by rw [hs]; rfl
      rw [howed]
      show c.looks.length + (c.sends.length + 1) + 0 ≤ _ + 1 + 0
      unfold asked
      omega
  | kept hs => exact Nat.le_add_right _ _
  | @left x b s l hs he hl =>
      have hnone : s.owed = 0 := Stage.owed_behind (by cases he <;> rfl)
      show asked c + s.owed ≤ _
      rw [hnone]
      omega
  | @behind x s l t n hs hopen hb hn =>
      show asked c + s.owed ≤ _
      rw [Stage.owed_behind hb]
      omega
  | _ => exact Nat.le_add_right _ _

/-- The turn that ends a block takes no time, and lets go of the
signal. -/
theorem Turned.exits (ht : Turned c x c')
    (hin : c.call.stage.block? = some b)
    (hout : c'.call.stage.block? = none) :
    Exit c x c'.call.stage ∧ c'.now = c.now
      ∧ c'.around.registry
        = c.around.registry.release b.registration := by
  cases ht with
  | left hs he hl =>
      cases hin.symm.trans hs
      exact ⟨he, rfl, hl⟩
  | behind hs hopen hb hn =>
      cases (Stage.block?_behind hs).symm.trans hin
  | rechecks | polls | keeps | rechecked | polled | kept => cases hout
  | _ => cases hin.symm.trans hout

-- ============================================================= all turns

theorem cancelled_after (hb : c.Begun)
    (hq : (c.after p).cancelled = true) (l : List Turn) :
    (c.after (l ++ p)).cancelled = true := by
  induction l with
  | nil => exact hq
  | cons x l ih => exact (turned (begun_after hb _) x).cancelled_kept ih

theorem now_after (hb : c.Begun) (hq : (c.after p).cancelled = true)
    (l : List Turn)
    (hin : (c.after (l ++ p)).call.stage.block? = some b) :
    (c.after (l ++ p)).now = (c.after p).now + awaited c p l := by
  induction l generalizing b with
  | nil => rfl
  | cons x l ih =>
      have hbegun := begun_after hb (l ++ p)
      obtain ⟨b', hb'⟩ := (turned hbegun x).inside hin
      show ((c.after (l ++ p)).turn x).now = _
      rw [turn_now hbegun (cancelled_after hb hq l) hin, ih hb', awaited,
        Nat.add_assoc]

theorem asked_after (hb : c.Begun) (p l : List Turn) :
    asked (c.after (l ++ p))
      ≤ asked (c.after p) + (c.after p).call.stage.owed
        + 2 * l.countP Turn.overlooks := by
  have hall : asked (c.after (l ++ p)) + (c.after (l ++ p)).call.stage.owed
      ≤ asked (c.after p) + (c.after p).call.stage.owed
        + 2 * l.countP Turn.overlooks := by
    induction l with
    | nil => exact Nat.le_add_right _ _
    | cons x l ih =>
        have hstep := (turned (begun_after hb (l ++ p)) x).asks
        have hcount : (x :: l).countP Turn.overlooks
            = l.countP Turn.overlooks + if x.overlooks then 1 else 0 :=
          List.countP_cons
        rw [hcount]
        refine Nat.le_trans hstep ?_
        split
        · omega
        · omega
  exact Nat.le_trans (Nat.le_add_right _ _) hall

-- ==================================================== the cancellation

/-- A blocked call whose token is cancelled behind the turns `p`, when
`l` have come since then. -/
structure Heeds (c : Course) (p l : List Turn) : Prop where
  /-- As long as it blocks, time passes only while it awaits an answer
  of the store or the sink, -/
  still : ∀ b, (c.after (l ++ p)).call.stage.block? = some b →
    (c.after (l ++ p)).now = (c.after p).now + awaited c p l
  /-- and it asks for none any more, but for the keep-alive of the tick
  that it serves, unless the select takes a tick or a wake-up that is
  ready as well. -/
  asks : asked (c.after (l ++ p))
    ≤ asked (c.after p) + (c.after p).call.stage.owed
      + 2 * l.countP Turn.overlooks
  /-- At its select it can end at once, cancelled. -/
  leaves : ∀ b, (c.after (l ++ p)).call.stage = .blocked b →
    (c.after (.go :: .leave :: l ++ p)).call.stage
        = .ended (.error (.cancelled .disconnected))
      ∧ (c.after (.go :: .leave :: l ++ p)).now = (c.after (l ++ p)).now
      ∧ (c.after (.leave :: l ++ p)).around.registry
        = (c.after (l ++ p)).around.registry.release b.registration
  /-- Whatever ends the block, the cancellation or an outcome that came
  first, takes no time and lets go of the signal. -/
  ends : ∀ x b, (c.after (l ++ p)).call.stage.block? = some b →
    (c.after (x :: l ++ p)).call.stage.block? = none →
      Exit (c.after (l ++ p)) x (c.after (x :: l ++ p)).call.stage
        ∧ (c.after (x :: l ++ p)).now = (c.after (l ++ p)).now
        ∧ (c.after (x :: l ++ p)).around.registry
          = (c.after (l ++ p)).around.registry.release b.registration

/-- A sink stalls on the keep-alive of a tick, and the token is cancelled
meanwhile. -/
def stalling : List Turn := [.cancel, .lag 1, .tick, .pass 2]

/-- A call that sends a keep-alive does not end with its token, but
blocks on for as long as the sink does. -/
theorem stalled : ¬ ∀ p l : List Turn,
    ((enter labCall labAround 0).after p).cancelled = true →
    ((enter labCall labAround 0).after p).now
      < ((enter labCall labAround 0).after (l ++ p)).now →
    ((enter labCall labAround 0).after (l ++ p)).call.stage.block?
      = none := by
  intro hall
  have hgone := hall stalling [.lag 7] rfl (by decide)
  cases hgone

/-- At the select a call leaves as soon as it is cancelled. -/
theorem turn_leave (hs : c.call.stage = .blocked b)
    (hq : c.cancelled = true) :
    c.turn .leave = c.take (c.call.leave b (.cancelled .disconnected)) := by
  have hdemand : c.call.demand c.now
      = .select (if b.deaf then none else some b.registration) b.nextTick
        (c.call.leave b (.cancelled .disconnected)) (c.call.woken b)
        (c.call.ticked b) := by
    simp only [Call.demand, hs]
  simp only [turn, hdemand, if_pos hq]

/-- A call heeds the cancellation of its token at its select, and lets
time pass before that for the sake of answers only. -/
theorem cancellation_heeded (k : Call) (around : Local) (start : Nat)
    (p l : List Turn)
    (hq : ((enter k around start).after p).cancelled = true) :
    Heeds (enter k around start) p l := by
  have hb := begun_enter k around start
  have hbegun := begun_after hb (l ++ p)
  refine ⟨fun b hin => now_after hb hq l hin, asked_after hb p l,
    fun b hs => ?_, fun x b hin hout => ?_⟩
  · have hleave := turn_leave hs (cancelled_after hb hq l)
    have hleft : (enter k around start).after (.leave :: l ++ p) = _ :=
      hleave
    have hgone : (enter k around start).after (.go :: .leave :: l ++ p)
        = ((enter k around start).after (.leave :: l ++ p)).turn .go := rfl
    rw [hgone, hleft]
    exact ⟨rfl, rfl, rfl⟩
  · exact (turned hbegun x).exits hin hout

/-- As soon as the sink has taken the keep-alive the call ends, and its
machine has no signal any more. -/
theorem cancellation_heeded_stalling :
    Heeds (enter labCall labAround 0) stalling
        [.go, .leave, .sent (.ok ()), .lag 7]
      ∧ ((enter labCall labAround 0).after
          ([.go, .leave, .sent (.ok ()), .lag 7] ++ stalling)).now = 10
      ∧ ((enter labCall labAround 0).after
          ([.go, .leave, .sent (.ok ()), .lag 7] ++ stalling)).call.stage
        = .ended (.error (.cancelled .disconnected))
      ∧ ((enter labCall labAround 0).after
          ([.go, .leave, .sent (.ok ()), .lag 7]
            ++ stalling)).around.registry.lookup "m" = none :=
  ⟨cancellation_heeded labCall labAround 0 stalling _ rfl, rfl, rfl, rfl⟩

end Course

end ControlPlane.Wait
