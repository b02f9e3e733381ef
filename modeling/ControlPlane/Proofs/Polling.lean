/-
The safety net of a blocked wait call. A call that no wake-up reaches
looks into the store by itself, on a tick; wake-ups make it look at once
and put the next look off, but they do not touch the ticks. With a store
and a sink that answer at once, and whatever the signals do, the looks
are less than a check interval and a tick apart, a look on a tick comes
a check interval behind the one before, and every tick that the call
survives sends one keep-alive, on the moment (`polls_on_time`). So an
allocation that the store shows is found even if all news of it is
lost, and the block is over in time. The call may go on behind its block
for as long as the reset of its flag meets other writers (`ended_late`).

# The invariant

The next tick of a blocked call is at most a tick behind the clock and
less than a check interval and a tick behind its last look (`Timely`). A
look on a wake-up keeps this since the tick is never more than a period
ahead; a tick that looks starts anew; and a tick that does not look is
less than a check interval behind the last look, so the tick after it is
near enough again. The ratio of the two intervals does not matter.

Chain: over Courses.lean.
-/
import Mathlib.Data.List.Chain
import ControlPlane.Proofs.Courses

namespace ControlPlane.Wait.Course

-- ================================================ the clock of a block

/-- Where the clock stands for a call that blocks since `start` and has
served `n` ticks: it is `now`, the next tick is due at `next`, and the
last look was at `last`. -/
structure Timely (start R C now next last n : Nat) : Prop where
  due : next = start + n * R + R
  early : now ≤ next
  since : start + n * R ≤ now
  /-- The next tick is near enough to the last look. -/
  near : next < last + C + R

namespace Timely

variable {start R C now next last n d : Nat}

theorem begin (hC : 0 < C) :
    Timely start R C start (start + R) start 0 where
  due := by omega
  early := by omega
  since := by omega
  near := by omega

theorem pass (h : Timely start R C now next last n)
    (hd : now + d ≤ next) : Timely start R C (now + d) next last n :=
  { h with early := hd, since := Nat.le_add_right_of_le h.since }

/-- A look at any moment: the tick is at most a period ahead. -/
theorem look (h : Timely start R C now next last n) (hC : 0 < C) :
    Timely start R C now next now n := by
  have hdue := h.due
  have hsince := h.since
  exact { h with near := by omega }

/-- A tick is served on its moment, which is a multiple of the period
behind the start, -/
theorem served (h : Timely start R C now next last n)
    (hd : next ≤ now) :
    now = start + n * R + R ∧ nextTick R next now = now + R := by
  have hnow : now = next := Nat.le_antisymm h.early hd
  refine ⟨hnow.trans h.due, ?_⟩
  unfold nextTick
  rw [hnow, if_neg (Nat.not_lt.mpr (Nat.le_add_right _ _))]

/-- with a look, from which time is counted anew, -/
theorem tick_look (h : Timely start R C now next last n) (hC : 0 < C)
    (hd : next ≤ now) :
    Timely start R C now (nextTick R next now) now (n + 1) := by
  obtain ⟨hnow, hnext⟩ := h.served hd
  have hmul : (n + 1) * R = n * R + R := Nat.succ_mul n R
  rw [hnext]
  constructor <;> omega

/-- or without one, if the last look was less than a check interval
ago. -/
theorem tick (h : Timely start R C now next last n) (hd : next ≤ now)
    (hdue : ¬ last + C ≤ now) :
    Timely start R C now (nextTick R next now) last (n + 1) := by
  obtain ⟨hnow, hnext⟩ := h.served hd
  have hmul : (n + 1) * R = n * R + R := Nat.succ_mul n R
  rw [hnext]
  constructor <;> omega

/-- The last look is less than a check interval and a tick ago. -/
theorem gap (h : Timely start R C now next last n) :
    now < last + C + R :=
  Nat.lt_of_le_of_lt h.early h.near

end Timely

variable {c c' : Course} {x : Turn} {b : Block} {start R C M : Nat}
  {h : List Turn}

-- ======================================================== the invariant

/-- The moments of the first `n` ticks, the latest first. -/
def served (start R : Nat) : Nat → List Nat
  | 0 => []
  | n + 1 => (start + n * R + R) :: served start R n

/-- How a look follows the one before: not too late, and on a tick not
too early. -/
structure Follows (R C : Nat) (later earlier : Look) : Prop where
  soon : later.moment < earlier.moment + C + R
  spare : later.onTick = true → earlier.moment + C ≤ later.moment

/-- The clock of a blocked call, and its last look. -/
structure Waits (start R C : Nat) (c : Course) (b : Block) : Prop where
  timely : Timely start R C c.now b.nextTick b.lastCheck c.ticks.length
  looked : ∃ last, c.looks.head? = some last ∧ last.moment = b.lastCheck

/-- Which keep-alives went out for the ticks that were served: one for
each, but that it is still to come for a tick whose look is awaited, and
never comes for one that ended the call. -/
def Kept (c : Course) : Prop :=
  c.sends = c.ticks
    ∨ ((∃ b, c.call.stage = .polling b) ∨ c.call.stage.isBehind = true)
      ∧ ∃ t, c.ticks = t :: c.sends

/-- A course in which the call is on time. -/
structure OnTime (start R C : Nat) (c : Course) : Prop where
  response : c.call.settings.responseInterval.nanos = R
  check : c.call.settings.checkInterval.nanos = C
  looks : c.looks.IsChain (Follows R C)
  first : c.looks.getLast? = some ⟨start, false⟩
  cadence : c.ticks = served start R c.ticks.length
  kept : Kept c
  /-- A keep-alive that is still to come is for the tick that is being
  served. -/
  serving : ∀ b, c.call.stage = .polling b → c.ticks = c.now :: c.sends
  block : ∀ b, c.call.stage.block? = some b → Waits start R C c b

/-- Every tick got its keep-alive, unless one is being served. -/
theorem OnTime.sent (hc : OnTime start R C c)
    (hin : c.call.stage.block? = some b)
    (hnot : ∀ b, c.call.stage ≠ .polling b) : c.sends = c.ticks := by
  rcases hc.kept with hk | ⟨⟨b', hb⟩ | hb, -⟩
  · exact hk
  · exact absurd hb (hnot b')
  · rw [Stage.block?_behind hb] at hin
    cases hin

/-- A look is noted down in front of the others. -/
theorem OnTime.looked (hc : OnTime start R C c) {last look : Look}
    (hl : c.looks.head? = some last) (hf : Follows R C look last) :
    (look :: c.looks).IsChain (Follows R C)
      ∧ (look :: c.looks).getLast? = some ⟨start, false⟩ := by
  refine ⟨List.isChain_cons.mpr ⟨fun y hy => ?_, hc.looks⟩, ?_⟩
  · rw [hl] at hy
    cases hy
    exact hf
  · rw [List.getLast?_cons, hc.first]
    rfl

/-- What a call does behind its block changes nothing of all that. -/
theorem OnTime.behind (hc : OnTime start R C c)
    (hset : c'.call.settings = c.call.settings)
    (hlooks : c'.looks = c.looks) (hticks : c'.ticks = c.ticks)
    (hsends : c'.sends = c.sends)
    (hs : c'.call.stage.isBehind = true) : OnTime start R C c' where
  response := by rw [hset]; exact hc.response
  check := by rw [hset]; exact hc.check
  looks := by rw [hlooks]; exact hc.looks
  first := by rw [hlooks]; exact hc.first
  cadence := by rw [hticks]; exact hc.cadence
  kept := by
    unfold Kept
    rw [hticks, hsends]
    exact hc.kept.imp id fun ⟨_, hone⟩ => ⟨Or.inr hs, hone⟩
  serving b hb := by
    rw [hb] at hs
    cases hs
  block b hb := by
    rw [Stage.block?_behind hs] at hb
    cases hb

/-- A call that is back at its select, or sends a keep-alive, with all
ticks kept. -/
theorem OnTime.back {s : Stage} (hc : OnTime start R C c)
    (hin : c.call.stage.block? = some b) (hs : s.block? = some b)
    (hnot : s.look? = none) {sends : List Nat} (hk : sends = c.ticks) :
    OnTime start R C
      { c with call := c.call.goto s, sends := sends } := by
  refine { hc with
    kept := Or.inl hk
    serving := fun b' hb' => ?_
    block := fun b' hb' => ?_ }
  · have hpoll : s = .polling b' := hb'
    rw [hpoll] at hnot
    cases hnot
  cases hs.symm.trans hb'
  exact ⟨(hc.block b hin).timely, (hc.block b hin).looked⟩

theorem OnTime.turned (hC : 0 < C)
    (hc : OnTime start R C c) (ht : Turned c x c')
    (hx : x.isPrompt = true) : OnTime start R C c' := by
  cases ht with
  | idle => exact hc
  | @passed b d hs hq hd =>
      have hin : c.call.stage.block? = some b := by rw [hs]; rfl
      have hw := hc.block b hin
      refine { hc with
        serving := fun b' hb' => ?_
        block := fun b' hb' => ?_ }
      · cases hs.symm.trans hb'
      · cases hin.symm.trans hb'
        exact { hw with timely := hw.timely.pass hd }
  | lagged ha => cases hx
  | cancelled =>
      exact { hc with
        block := fun b hb => ⟨(hc.block b hb).1, (hc.block b hb).2⟩ }
  | stirred =>
      exact { hc with
        block := fun b hb => ⟨(hc.block b hb).1, (hc.block b hb).2⟩ }
  | @rechecks b b' l hs hb =>
      have hin : c.call.stage.block? = some b := by rw [hs]; rfl
      obtain ⟨htime, last, hlast, heq⟩ := hc.block b hin
      have hfollows : Follows R C ⟨c.now, false⟩ last := by
        refine ⟨?_, nofun⟩
        rw [heq]
        exact htime.gap
      obtain ⟨hlooks, hfirst⟩ := hc.looked hlast hfollows
      refine { hc with
        looks := hlooks, first := hfirst
        kept := Or.inl (hc.sent hin (by rw [hs]; nofun))
        serving := nofun
        block := fun b'' hb'' => ?_ }
      cases hb''
      rw [hb]
      exact ⟨htime.look hC, _, rfl, rfl⟩
  | @polls b b' hs hd hdue hb =>
      have hin : c.call.stage.block? = some b := by rw [hs]; rfl
      obtain ⟨htime, last, hlast, heq⟩ := hc.block b hin
      rw [hc.check] at hdue
      rw [hc.response] at hb
      have hfollows : Follows R C ⟨c.now, true⟩ last := by
        refine ⟨?_, fun _ => ?_⟩
        · rw [heq]
          exact htime.gap
        · rw [heq]
          exact hdue
      obtain ⟨hlooks, hfirst⟩ := hc.looked hlast hfollows
      have hsent := hc.sent hin (by rw [hs]; nofun)
      refine { hc with
        looks := hlooks, first := hfirst
        cadence := ?_
        kept := Or.inr ⟨Or.inl ⟨b', rfl⟩, c.now, ?_⟩
        serving := fun b'' _ => ?_
        block := fun b'' hb'' => ?_ }
      · show _ :: _ = _ :: _
        rw [← hc.cadence, (htime.served hd).1]
      · show _ :: c.ticks = _ :: c.sends
        rw [hsent]
      · show _ :: c.ticks = _ :: c.sends
        rw [hsent]
      · cases hb''
        rw [hb]
        exact ⟨htime.tick_look hC hd, _, rfl, rfl⟩
  | @keeps b b' hs hd hdue hb =>
      have hin : c.call.stage.block? = some b := by rw [hs]; rfl
      obtain ⟨htime, hlooked⟩ := hc.block b hin
      rw [hc.check] at hdue
      rw [hc.response] at hb
      have hsent := hc.sent hin (by rw [hs]; nofun)
      refine { hc with
        cadence := ?_
        kept := Or.inl ?_
        serving := nofun
        block := fun b'' hb'' => ?_ }
      · show _ :: _ = _ :: _
        rw [← hc.cadence, (htime.served hd).1]
      · show _ :: c.sends = _ :: c.ticks
        rw [hsent]
      · cases hb''
        rw [hb]
        exact ⟨htime.tick hd hdue, hlooked⟩
  | @rechecked b v hs hv =>
      have hin : c.call.stage.block? = some b := by rw [hs]; rfl
      exact hc.back hin rfl rfl
        (hc.sent hin (by rw [hs]; nofun))
  | @polled b v hs hv =>
      have hin : c.call.stage.block? = some b := by rw [hs]; rfl
      exact hc.back hin rfl rfl
        (hc.serving b hs).symm
  | @kept b hs =>
      have hin : c.call.stage.block? = some b := by rw [hs]; rfl
      exact hc.back hin rfl rfl
        (hc.sent hin (by rw [hs]; nofun))
  | @left x b s l hs he hl =>
      have hbehind : s.isBehind = true := by cases he <;> rfl
      exact hc.behind rfl rfl rfl rfl hbehind
  | rested hs =>
      have hbehind : c.call.stage.isBehind = true := by rw [hs]; rfl
      exact hc.behind rfl rfl rfl rfl hbehind
  | behind hs hopen hb hn => exact hc.behind rfl rfl rfl rfl hb

/-- A call is on time when it begins to block. -/
theorem onTime_enter (k : Call) (l : Local) (start : Nat)
    (hC : 0 < k.settings.checkInterval.nanos) :
    OnTime start k.settings.responseInterval.nanos
      k.settings.checkInterval.nanos (enter k l start) := by
  have hblock : ∀ b, (enter k l start).call.stage.block? = some b →
      Waits start k.settings.responseInterval.nanos
        k.settings.checkInterval.nanos (enter k l start) b := by
    intro b hb
    rcases enter_cases k l start with ⟨a, hc⟩ | ⟨r, hc⟩
    · rw [hc] at hb
      cases hb
      exact ⟨Timely.begin hC, _, rfl, rfl⟩
    · rw [hc] at hb
      cases hb
  have hset : (enter k l start).call.settings = k.settings := by
    rcases enter_cases k l start with ⟨a, hc⟩ | ⟨r, hc⟩
    · rw [hc]
      rfl
    · rw [hc]
      rfl
  refine ⟨by rw [hset], by rw [hset], List.isChain_singleton _, rfl, rfl,
    Or.inl rfl, fun b hb => ?_, hblock⟩
  rcases enter_cases k l start with ⟨a, hc⟩ | ⟨r, hc⟩
  · rw [hc] at hb
    cases hb
  · rw [hc] at hb
    cases hb

/-- A sequence of turns in which the store and the sink answer at
once. -/
def Prompt (h : List Turn) : Prop := ∀ x ∈ h, x.isPrompt = true

theorem OnTime.after (hC : 0 < C) (hc : OnTime start R C c)
    (hb : c.Begun) (hp : Prompt h) : OnTime start R C (c.after h) := by
  induction h with
  | nil => exact hc
  | cons x h ih =>
      have hx := hp x List.mem_cons_self
      have hlater := ih fun y hy => hp y (List.mem_cons_of_mem x hy)
      exact hlater.turned hC (Course.turned (begun_after hb h) x) hx

-- ============================================ what the store has to show

/-- From the moment `T` on, every look into the store of the course `c`
shows the allocation. -/
def Shows (c : Course) (T : Nat) (h : List Turn) : Prop :=
  ∀ p answer, (.found answer :: p) <:+ h → T ≤ (c.after p).now →
    ∃ v, answer = .ok v ∧ v.record.isAllocated = true

/-- A course that is to end soon behind the moment `M`, as long as it
makes no pause. -/
structure Ending (R C M : Nat) (c : Course) : Prop where
  /-- A call that goes on has not looked since, or looks just now. -/
  last : ∀ b, c.call.stage.block? = some b →
    b.lastCheck ≤ M ∨ c.call.stage.look? ≠ none ∧ b.lastCheck = c.now
  steady : ∀ b, c.call.stage.block? = some b → c.pauses = 0
  soon : (∀ r, c.call.stage ≠ .ended r) → c.pauses = 0 →
    c.now < M + C + R

theorem Ending.inside (he : Ending R C M c)
    (hin : c.call.stage.block? = some b) : c.now < M + C + R := by
  refine he.soon (fun r hr => ?_) (he.steady b hin)
  rw [hr] at hin
  cases hin

/-- A call that does not look has not looked since. -/
theorem Ending.waited (he : Ending R C M c)
    (hin : c.call.stage.block? = some b)
    (hlook : c.call.stage.look? = none) : b.lastCheck ≤ M := by
  rcases he.last b hin with hle | ⟨hlooks, -⟩
  · exact hle
  · exact absurd hlook hlooks

/-- A look that does not show the allocation comes too early. -/
theorem Ending.looked (he : Ending R C M c)
    (hin : c.call.stage.block? = some b) (hearly : c.now ≤ M) :
    b.lastCheck ≤ M := by
  rcases he.last b hin with hle | ⟨-, hnow⟩
  · exact hle
  · rw [hnow]
    exact hearly

/-- A step within the block. -/
theorem Ending.moved (he : Ending R C M c) {b' : Block}
    (hin : c.call.stage.block? = some b)
    (hnow : c'.now = c.now) (hpauses : c'.pauses = c.pauses)
    (hb : c'.call.stage.block? = some b')
    (hlast : b'.lastCheck ≤ M
      ∨ c'.call.stage.look? ≠ none ∧ b'.lastCheck = c.now) :
    Ending R C M c' where
  last b'' hb'' := by
    cases hb.symm.trans hb''
    rw [hnow]
    exact hlast
  steady _ _ := hpauses.trans (he.steady b hin)
  soon _ _ := by
    rw [hnow]
    exact he.inside hin

/-- A step out of the block, or behind it. -/
theorem Ending.behind (hbehind : c'.call.stage.isBehind = true)
    (hsoon : (∀ r, c'.call.stage ≠ .ended r) → c'.pauses = 0 →
      c'.now < M + C + R) : Ending R C M c' where
  last b hb := by
    rw [Stage.block?_behind hbehind] at hb
    cases hb
  steady b hb := by
    rw [Stage.block?_behind hbehind] at hb
    cases hb
  soon := hsoon

theorem Ending.turned (hc : OnTime start R C c) (he : Ending R C M c)
    (ht : Turned c x c') (hx : x.isPrompt = true)
    (hshown : ∀ v, x = .found (.ok v) → v.record.isAllocated = false →
      c.now ≤ M) : Ending R C M c' := by
  cases ht with
  | idle => exact he
  | @passed b d hs hq hd =>
      have hin : c.call.stage.block? = some b := by rw [hs]; rfl
      have hlast := he.waited hin (by rw [hs]; rfl)
      have hgap := ((hc.block b hin).timely.pass hd).gap
      have hsoon : c.now + d < M + C + R := Nat.lt_of_lt_of_le hgap
        (Nat.add_le_add_right (Nat.add_le_add_right hlast C) R)
      refine { he with last := fun b' hb' => ?_, soon := fun _ _ => hsoon }
      cases hin.symm.trans hb'
      exact Or.inl hlast
  | lagged ha => cases hx
  | cancelled => exact ⟨he.last, he.steady, he.soon⟩
  | stirred => exact ⟨he.last, he.steady, he.soon⟩
  | @rechecks b b' l hs hb =>
      have hin : c.call.stage.block? = some b := by rw [hs]; rfl
      exact he.moved hin rfl rfl rfl (Or.inr ⟨nofun, by rw [hb]⟩)
  | @polls b b' hs hd hdue hb =>
      have hin : c.call.stage.block? = some b := by rw [hs]; rfl
      exact he.moved hin rfl rfl rfl (Or.inr ⟨nofun, by rw [hb]⟩)
  | @keeps b b' hs hd hdue hb =>
      have hin : c.call.stage.block? = some b := by rw [hs]; rfl
      have hlast : b'.lastCheck = b.lastCheck := by rw [hb]
      refine he.moved hin rfl rfl rfl (Or.inl ?_)
      rw [hlast]
      exact he.waited hin (by rw [hs]; rfl)
  | @rechecked b v hs hv =>
      have hin : c.call.stage.block? = some b := by rw [hs]; rfl
      exact he.moved hin rfl rfl rfl
        (Or.inl (he.looked hin (hshown v rfl hv)))
  | @polled b v hs hv =>
      have hin : c.call.stage.block? = some b := by rw [hs]; rfl
      exact he.moved hin rfl rfl rfl
        (Or.inl (he.looked hin (hshown v rfl hv)))
  | @kept b hs =>
      have hin : c.call.stage.block? = some b := by rw [hs]; rfl
      exact he.moved hin rfl rfl rfl
        (Or.inl (he.waited hin (by rw [hs]; rfl)))
  | left hs hexit hl =>
      refine Ending.behind (by cases hexit <;> rfl) fun _ _ => ?_
      exact he.inside hs
  | rested hs =>
      refine Ending.behind (by rw [hs]; rfl) fun hopen _ => ?_
      exact absurd hs (hopen _)
  | @behind x s l t n hs hopen hb hn =>
      refine Ending.behind hb fun _ hzero => ?_
      have hnone : n = 0 := hzero
      rcases hn with ⟨rfl, rfl⟩ | hpaused
      · exact he.soon hopen hzero
      · omega

theorem ending_enter (k : Call) (l : Local) (start : Nat)
    (hC : 0 < C) (hM : start ≤ M) : Ending R C M (enter k l start) := by
  have hsoon : start < M + C + R := by omega
  rcases enter_cases k l start with ⟨a, hc⟩ | ⟨r, hc⟩
  · refine ⟨fun b hb => ?_, fun _ _ => rfl, fun _ _ => hsoon⟩
    rw [hc] at hb
    cases hb
    exact Or.inl hM
  · exact Ending.behind (by rw [hc]; rfl) fun _ _ => hsoon

theorem Ending.after {T : Nat} (hC : 0 < C) (hc : OnTime start R C c)
    (hb : c.Begun) (he : Ending R C (max start T) c) (hp : Prompt h)
    (hshows : Shows c T h) : Ending R C (max start T) (c.after h) := by
  induction h with
  | nil => exact he
  | cons x h ih =>
      have hlater : Prompt h := fun y hy => hp y (List.mem_cons_of_mem x hy)
      have hshown : Shows c T h := fun p answer hs =>
        hshows p answer (hs.trans (List.suffix_cons x h))
      refine (ih hlater hshown).turned (hc.after hC hb hlater)
        (Course.turned (begun_after hb h) x) (hp x List.mem_cons_self) ?_
      rintro v rfl hv
      by_contra hlate
      obtain ⟨w, hw, hallocated⟩ := hshows h _ (List.suffix_refl _)
        (by omega)
      cases hw
      rw [hv] at hallocated
      cases hallocated

-- ======================================================== the safety net

/-- A call that blocks since `start` and looks, ticks and keeps its peer
alive on time, behind the turns `h`. -/
structure Polls (k : Call) (l : Local) (start R C : Nat)
    (h : List Turn) : Prop where
  /-- Each look comes less than a check interval and a tick behind the
  one before, and on a tick not less than a check interval; the start of
  the block counts as the first look. -/
  looks : ((enter k l start).after h).looks.IsChain (Follows R C)
    ∧ ((enter k l start).after h).looks.getLast? = some ⟨start, false⟩
  /-- While the call blocks its last look is less than a check interval
  and a tick ago, -/
  recent : ∀ b, ((enter k l start).after h).call.stage.block? = some b →
    ∃ last, ((enter k l start).after h).looks.head? = some last
      ∧ ((enter k l start).after h).now < last.moment + C + R
  /-- and no tick is missed, -/
  due : ∀ b, ((enter k l start).after h).call.stage.block? = some b →
    ((enter k l start).after h).now
      ≤ start + ((enter k l start).after h).ticks.length * R + R
  /-- for the ticks are served at the multiples of the period behind the
  start, whatever wakes the call between them. -/
  cadence : ((enter k l start).after h).ticks
    = served start R ((enter k l start).after h).ticks.length
  /-- Every tick sends one keep-alive on its moment, but that the one of
  the last tick is still to come while that looks into the store, and
  never comes if the tick ended the call. -/
  kept : Kept ((enter k l start).after h)
  /-- If the store shows the allocation from `T` on, the block is over
  before a check interval and a tick have passed since then, and the
  call as well, unless the reset of its flag paused on a conflict. -/
  found : ∀ T, Shows (enter k l start) T h →
    max start T + C + R ≤ ((enter k l start).after h).now →
      ((enter k l start).after h).call.stage.block? = none
        ∧ (((enter k l start).after h).pauses = 0 →
          ∃ r, ((enter k l start).after h).call.stage = .ended r)

/-- With a store and a sink that answer at once, a blocked call polls on
time, whatever happens to its signal. -/
theorem polls_on_time (k : Call) (l : Local) (start : Nat)
    (h : List Turn) (hC : 0 < k.settings.checkInterval.nanos)
    (hp : Prompt h) :
    Polls k l start k.settings.responseInterval.nanos
      k.settings.checkInterval.nanos h := by
  have hb := begun_enter k l start
  have hbegin := onTime_enter k l start hC
  have hc := hbegin.after hC hb hp
  refine ⟨⟨hc.looks, hc.first⟩, fun b hin => ?_, fun b hin => ?_,
    hc.cadence, hc.kept, fun T hshows hlate => ?_⟩
  · obtain ⟨htime, last, hlast, heq⟩ := hc.block b hin
    refine ⟨last, hlast, ?_⟩
    rw [heq]
    exact htime.gap
  · have htime := (hc.block b hin).timely
    exact Nat.le_trans htime.early (Nat.le_of_eq htime.due)
  · have he := Ending.after hC hbegin hb
      (ending_enter k l start hC (Nat.le_max_left start T)) hp hshows
    constructor
    · cases hin : ((enter k l start).after h).call.stage.block? with
      | none => rfl
      | some b => exact absurd (he.inside hin) (Nat.not_lt.mpr hlate)
    · intro hpauses
      by_contra hopen
      have hsoon := he.soon (fun r hr => hopen ⟨r, hr⟩) hpauses
      exact absurd hsoon (Nat.not_lt.mpr hlate)

/-- If no look shows anything else, the store shows the allocation at
all times. -/
theorem shows_always (c : Course) (T : Nat)
    (hall : ∀ answer, .found answer ∈ h →
      ∃ v, answer = .ok v ∧ v.record.isAllocated = true) :
    Shows c T h :=
  fun _ answer hs _ => hall answer (hs.subset List.mem_cons_self)

/-- A tick finds the allocation, but another writer comes between when
the flag is to be cleared, and the call pauses before it tries again. -/
def lateReset : List Turn :=
  [.pause, .updated (.error (.conflict "m")), .found (.ok labMarked),
    .found (.ok labMarked), .tick, .pass 2,
    .sent (.ok ()), .tick, .pass 2]

/-- The block is over in time, but not the call: it has yet to clear its
flag. -/
theorem ended_late : ¬ ∀ (T : Nat) (h : List Turn), Prompt h →
    Shows (enter labCall labAround 0) T h →
    T + labCall.settings.checkInterval.nanos
        + labCall.settings.responseInterval.nanos
      ≤ ((enter labCall labAround 0).after h).now →
    ∃ r, ((enter labCall labAround 0).after h).call.stage = .ended r := by
  intro hall
  have hshows : Shows (enter labCall labAround 0) 0 lateReset := by
    refine shows_always _ _ fun answer ha => ?_
    simp only [lateReset, List.mem_cons, reduceCtorEq, Turn.found.injEq,
      List.not_mem_nil, false_or, or_false, or_self] at ha
    exact ⟨labMarked, ha, rfl⟩
  obtain ⟨r, hr⟩ := hall 0 lateReset
    (by unfold Prompt lateReset; decide) hshows (by decide +kernel)
  cases hr

/-- A wake-up without an allocation puts the next look off, and the
ticks go on; the news of the allocation is lost, and a tick finds it. -/
def safetyNet : List Turn :=
  [.pass 5, .go, .found (.ok labAllocated),
    .found (.ok labAllocated), .tick, .pass 2,
    .sent (.ok ()), .tick, .pass 1,
    .found (.ok labFree), .wake,
    .stir fun r => (r.fire 0 false).2, .pass 1,
    .sent (.ok ()), .tick, .pass 2]

theorem polls_on_time_safetyNet :
    Polls labCall labAround 0 2 3 safetyNet
      ∧ ((enter labCall labAround 0).after safetyNet).looks
        = [⟨6, true⟩, ⟨3, false⟩, ⟨0, false⟩]
      ∧ ((enter labCall labAround 0).after safetyNet).ticks = [6, 4, 2]
      ∧ ((enter labCall labAround 0).after safetyNet).sends = [4, 2]
      ∧ ((enter labCall labAround 0).after safetyNet).call.stage
        = .ended (.ok .allocated) :=
  ⟨polls_on_time labCall labAround 0 safetyNet (by decide)
    (by unfold Prompt safetyNet; decide), rfl, rfl, rfl, rfl⟩

end ControlPlane.Wait.Course
