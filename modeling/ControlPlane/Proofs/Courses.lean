/-
A blocked wait call in time. A call says what it wants next, but not
when it gets it; here its demands are met on a clock, from the moment it
begins to block. The clock stands still while the call has a step to
take: it goes on while the store or the sink owes an answer (`lag`),
while a call at its select has nothing to react to (`pass`), and once
the call has ended. At the select any branch that is ready may be taken,
and the world around is free: others do with the signals what they like
(`stir`), the token is cancelled at any moment (`cancel`), and the store
and the sink answer as they like.

A turn that is not possible changes nothing, so every sequence of turns
is a course; a caller that gives the call up, at its deadline for one,
only cuts the sequence short.

# What is kept in mind

A course notes the moments at which the call looked into the store,
served a tick and sent a keep-alive. All that is proved of courses goes
through what one turn can be (`Turned`).

Chain: the base layer of Polling.lean and Cancellation.lean.
-/
import ControlPlane.Proofs.Signals
import ControlPlane.Wait.Call

namespace ControlPlane.Wait

-- =============================================================== stages

/-- Is the call out of its block, on its way to the end? -/
def Stage.isBehind : Stage → Bool
  | .clearing .. => true
  | .closing _ => true
  | .ended _ => true
  | _ => false

/-- A call that comes to this stage looks into the store: on a tick? -/
def Stage.look? : Stage → Option Bool
  | .rechecking _ => some false
  | .polling _ => some true
  | _ => none

/-- A call that comes to this stage sends a keep-alive. -/
def Stage.isSending : Stage → Bool
  | .sending _ => true
  | _ => false

theorem Stage.look?_behind {s : Stage} (h : s.isBehind = true) :
    s.look? = none := by
  cases s <;> first | rfl | cases h

theorem Stage.isSending_behind {s : Stage} (h : s.isBehind = true) :
    s.isSending = false := by
  cases s <;> first | rfl | cases h

theorem Stage.block?_behind {s : Stage} (h : s.isBehind = true) :
    s.block? = none := by
  cases s <;> first | rfl | cases h

-- ============================================================== courses

/-- A look into the store. -/
structure Look where
  moment : Nat
  onTick : Bool
  deriving DecidableEq, Repr

/-- A call in time, and what it did so far, the latest first; moments
are counted in nanoseconds. -/
structure Course where
  call : Call
  around : Local
  now : Nat
  cancelled : Bool := false
  /-- The looks into the store; the start of the block counts as one. -/
  looks : List Look
  ticks : List Nat := []
  sends : List Nat := []
  /-- How many pauses it made, to clear the flag again after a
  conflict. -/
  pauses : Nat := 0

/-- What can come next. -/
inductive Turn
  /-- Time passes, and nobody owes the call an answer. -/
  | pass (d : Nat)
  /-- Time passes while an answer is awaited. -/
  | lag (d : Nat)
  /-- The token of the call is cancelled. -/
  | cancel
  /-- Others do something with the signals. -/
  | stir (f : Registry → Registry)
  /-- The branches of the select. -/
  | leave
  | wake
  | tick
  /-- The answers that a call can await. -/
  | found (answer : Except StoreError Versioned)
  | updated (answer : Except StoreError Versioned)
  | sent (answer : Except WaitError Unit)
  /-- A step that waits for nothing. -/
  | go
  /-- A pause, from its beginning to its end. -/
  | pause

/-- Does a turn keep nobody waiting for an answer? -/
def Turn.isPrompt : Turn → Bool
  | .lag _ => false
  | _ => true

namespace Course

/-- The call takes a step. -/
def take (c : Course) (k : Move Call) : Course :=
  { c with
    call := (k c.around).1
    around := (k c.around).2
    looks :=
      match (k c.around).1.stage.look? with
      | some onTick => ⟨c.now, onTick⟩ :: c.looks
      | none => c.looks
    sends :=
      if (k c.around).1.stage.isSending then c.now :: c.sends
      else c.sends }

/-- Does the call await an answer? -/
def awaits (c : Course) : Bool :=
  match c.call.demand c.now with
  | .find .. => true
  | .update .. => true
  | .send .. => true
  | _ => false

/-- Can so much time pass with nothing to do for the call? -/
def rests (c : Course) (d : Nat) : Bool :=
  match c.call.demand c.now with
  | .select listen due _ _ _ =>
      ! c.cancelled && listen.all (fun a => ! c.around.registry.isWoken a)
        && decide (c.now + d ≤ due)
  | .finished _ => true
  | _ => false

/-- What becomes of a course with a turn. -/
def turn (c : Course) : Turn → Course
  | .pass d => if c.rests d then { c with now := c.now + d } else c
  | .lag d => if c.awaits then { c with now := c.now + d } else c
  | .cancel => { c with cancelled := true }
  | .stir f =>
      { c with
        around := { c.around with registry := f c.around.registry } }
  | .leave =>
      match c.call.demand c.now with
      | .select _ _ k _ _ => if c.cancelled then c.take k else c
      | _ => c
  | .wake =>
      match c.call.demand c.now with
      | .select (some a) _ _ k _ =>
          match c.around.registry.woken a with
          | some (wake, b) => c.take (k wake b c.now)
          | none => c
      | _ => c
  | .tick =>
      match c.call.demand c.now with
      | .select _ due _ _ k =>
          if due ≤ c.now then
            { c.take (k c.now) with ticks := c.now :: c.ticks }
          else c
      | _ => c
  | .found answer =>
      match c.call.demand c.now with
      | .find _ k => c.take (k answer)
      | _ => c
  | .updated answer =>
      match c.call.demand c.now with
      | .update _ _ k => c.take (k answer)
      | _ => c
  | .sent answer =>
      match c.call.demand c.now with
      | .send k => c.take (k answer)
      | _ => c
  | .go =>
      match c.call.demand c.now with
      | .proceed k => c.take k
      | _ => c
  | .pause =>
      match c.call.demand c.now with
      | .pause d k =>
          { c with now := c.now + d.nanos, pauses := c.pauses + 1 }.take k
      | _ => c

/-- A call that begins to block. -/
def enter (c : Call) (l : Local) (start : Nat) : Course where
  call := (c.enter start l).1
  around := (c.enter start l).2
  now := start
  looks := [⟨start, false⟩]

/-- A course after a sequence of turns, the latest first. -/
def after (c : Course) : List Turn → Course
  | [] => c
  | x :: h => (c.after h).turn x

variable {c c' : Course} {x : Turn} {b : Block} {s : Stage}

-- ============================================================= one turn

/-- How a turn ends a block. -/
inductive Exit (c : Course) : Turn → Stage → Prop
  | cancelled (hq : c.cancelled = true) :
      Exit c .leave (.closing (.error (.cancelled .disconnected)))
  /-- The signal says that the machine is allocated. -/
  | woken {p : Pacing} : Exit c .wake (.clearing p .reading)
  | found {v : Versioned} {p : Pacing}
      (hv : v.record.isAllocated = true) :
      Exit c (.found (.ok v)) (.clearing p .reading)
  | unread {e : StoreError} :
      Exit c (.found (.error e)) (.closing (.error (.ofStore e)))
  | unsent {e : WaitError} :
      Exit c (.sent (.error e)) (.closing (.error e))

/-- What a turn can be. -/
inductive Turned (c : Course) : Turn → Course → Prop
  /-- The turn was not possible. -/
  | idle {x : Turn} : Turned c x c
  | passed {b : Block} {d : Nat} (hs : c.call.stage = .blocked b)
      (hq : c.cancelled = false) (hd : c.now + d ≤ b.nextTick) :
      Turned c (.pass d) { c with now := c.now + d }
  | lagged {d : Nat} (ha : c.awaits = true) :
      Turned c (.lag d) { c with now := c.now + d }
  | cancelled : Turned c .cancel { c with cancelled := true }
  | stirred {f : Registry → Registry} {l : Local} :
      Turned c (.stir f) { c with around := l }
  | rechecks {b b' : Block} {l : Local} (hs : c.call.stage = .blocked b)
      (hb : b' = { b with
        registration := b'.registration
        lastCheck := c.now
        deaf := b'.deaf }) :
      Turned c .wake
        { c with
          call := c.call.goto (.rechecking b')
          around := l
          looks := ⟨c.now, false⟩ :: c.looks }
  | polls {b b' : Block} (hs : c.call.stage = .blocked b)
      (hd : b.nextTick ≤ c.now)
      (hc : b.lastCheck + c.call.settings.checkInterval.nanos ≤ c.now)
      (hb : b' = { b with
        nextTick := nextTick c.call.settings.responseInterval.nanos
          b.nextTick c.now
        lastCheck := c.now }) :
      Turned c .tick
        { c with
          call := c.call.goto (.polling b')
          looks := ⟨c.now, true⟩ :: c.looks
          ticks := c.now :: c.ticks }
  | keeps {b b' : Block} (hs : c.call.stage = .blocked b)
      (hd : b.nextTick ≤ c.now)
      (hc : ¬ b.lastCheck + c.call.settings.checkInterval.nanos ≤ c.now)
      (hb : b' = { b with
        nextTick := nextTick c.call.settings.responseInterval.nanos
          b.nextTick c.now }) :
      Turned c .tick
        { c with
          call := c.call.goto (.sending b')
          ticks := c.now :: c.ticks
          sends := c.now :: c.sends }
  /-- The store does not show the allocation, -/
  | rechecked {b : Block} {v : Versioned}
      (hs : c.call.stage = .rechecking b)
      (hv : v.record.isAllocated = false) :
      Turned c (.found (.ok v))
        { c with call := c.call.goto (.blocked b) }
  /-- nor does it on a tick. -/
  | polled {b : Block} {v : Versioned} (hs : c.call.stage = .polling b)
      (hv : v.record.isAllocated = false) :
      Turned c (.found (.ok v))
        { c with
          call := c.call.goto (.sending b)
          sends := c.now :: c.sends }
  | kept {b : Block} (hs : c.call.stage = .sending b) :
      Turned c (.sent (.ok ())) { c with call := c.call.goto (.blocked b) }
  /-- The block is over, and its hold on the signal with it. -/
  | left {x : Turn} {b : Block} {s : Stage} {l : Local}
      (hs : c.call.stage.block? = some b) (he : Exit c x s)
      (hl : l.registry = c.around.registry.release b.registration) :
      Turned c x { c with call := c.call.goto s, around := l }
  /-- A call that has ended. -/
  | rested {d : Nat} {r : Except WaitError Outcome}
      (hs : c.call.stage = .ended r) :
      Turned c (.pass d) { c with now := c.now + d }
  /-- Whatever a call does behind its block. -/
  | behind {x : Turn} {s : Stage} {l : Local} {t : Nat} {n : Nat}
      (hs : c.call.stage.isBehind = true)
      (hopen : ∀ r, c.call.stage ≠ .ended r) (hb : s.isBehind = true)
      (hn : n = c.pauses ∧ t = c.now ∨ c.pauses < n) :
      Turned c x
        { c with call := c.call.goto s, around := l, now := t, pauses := n }

-- =========================================================== its proof

/-- A signal is let go of by its machine and its number, whatever was
seen of it. -/
theorem release_same {r : Registry} {a b : Registration}
    (hm : b.machine = a.machine) (hg : b.generation = a.generation) :
    r.release b = r.release a := by
  unfold Registry.release
  rw [hm, hg]

/-- A step to a stage. -/
theorem take_goto {k : Move Call} {l : Local}
    (h : k c.around = (c.call.goto s, l)) :
    c.take k = { c with
      call := c.call.goto s
      around := l
      looks :=
        match s.look? with
        | some onTick => ⟨c.now, onTick⟩ :: c.looks
        | none => c.looks
      sends := if s.isSending then c.now :: c.sends else c.sends } := by
  unfold take
  rw [h]
  rfl

/-- A step out of the block, or behind it. -/
theorem take_behind {k : Move Call} {l : Local}
    (h : k c.around = (c.call.goto s, l)) (hs : s.isBehind = true) :
    c.take k = { c with call := c.call.goto s, around := l } := by
  rw [take_goto h, Stage.look?_behind hs, Stage.isSending_behind hs]
  rfl

theorem turned_blocked (hs : c.call.stage = .blocked b) (x : Turn) :
    Turned c x (c.turn x) := by
  have hdemand : c.call.demand c.now
      = .select (if b.deaf then none else some b.registration) b.nextTick
        (c.call.leave b (.cancelled .disconnected)) (c.call.woken b)
        (c.call.ticked b) := by
    simp only [Call.demand, hs]
  have hblock : c.call.stage.block? = some b := by rw [hs]; rfl
  cases x with
  | pass d =>
      by_cases hrest : c.rests d = true
      · have hall := hrest
        simp only [rests, hdemand, Bool.and_eq_true, Bool.not_eq_true',
          decide_eq_true_eq] at hall
        simp only [turn, if_pos hrest]
        exact .passed hs hall.1.1 hall.2
      · simp only [turn, if_neg hrest]
        exact .idle
  | lag d =>
      simp only [turn, awaits, hdemand]
      exact .idle
  | cancel => exact .cancelled
  | stir f => exact .stirred
  | leave =>
      simp only [turn, hdemand]
      split
      · rename_i hq
        exact .left hblock (.cancelled hq) rfl
      · exact .idle
  | wake =>
      simp only [turn, hdemand]
      cases hdeaf : b.deaf with
      | true => exact .idle
      | false =>
          simp only [Bool.false_eq_true, if_false]
          cases hw : c.around.registry.woken b.registration with
          | none => exact .idle
          | some w =>
              obtain ⟨wake, a⟩ := w
              obtain ⟨hm, hg⟩ := Registry.woken_same hw
              cases wake with
              | allocated =>
                  refine .left hblock .woken ?_
                  exact (release_same hm hg)
              | closed => exact .rechecks hs rfl
              | recheck => exact .rechecks hs rfl
              | pending => exact .rechecks hs rfl
  | tick =>
      simp only [turn, hdemand]
      split
      · rename_i hd
        by_cases hc : b.lastCheck
            + c.call.settings.checkInterval.nanos ≤ c.now
        · have hmove : c.call.ticked b c.now c.around = _ := if_pos hc
          rw [take_goto hmove]
          exact .polls hs hd hc rfl
        · have hmove : c.call.ticked b c.now c.around = _ := if_neg hc
          rw [take_goto hmove]
          exact .keeps hs hd hc rfl
      · exact .idle
  | _ =>
      simp only [turn, hdemand]
      exact .idle

theorem turned_rechecking (hs : c.call.stage = .rechecking b)
    (x : Turn) : Turned c x (c.turn x) := by
  have hdemand : c.call.demand c.now
      = .find c.call.machine (c.call.rechecked b) := by
    simp only [Call.demand, hs]
  have hblock : c.call.stage.block? = some b := by rw [hs]; rfl
  cases x with
  | pass d =>
      simp only [turn, rests, hdemand]
      exact .idle
  | lag d =>
      simp only [turn, awaits, hdemand]
      exact .lagged (by simp only [awaits, hdemand])
  | cancel => exact .cancelled
  | stir f => exact .stirred
  | found answer =>
      simp only [turn, hdemand]
      cases answer with
      | error e => exact .left hblock .unread rfl
      | ok v =>
          cases hv : v.record.isAllocated with
          | true =>
              have hmove : c.call.rechecked b (.ok v) c.around = _ :=
                if_pos hv
              rw [take_behind hmove rfl]
              exact .left hblock (.found hv) rfl
          | false =>
              have hmove : c.call.rechecked b (.ok v) c.around = _ :=
                if_neg (Bool.eq_false_iff.mp hv)
              rw [take_goto hmove]
              exact .rechecked hs hv
  | _ =>
      simp only [turn, hdemand]
      exact .idle

theorem turned_polling (hs : c.call.stage = .polling b) (x : Turn) :
    Turned c x (c.turn x) := by
  have hdemand : c.call.demand c.now
      = .find c.call.machine (c.call.polled b) := by
    simp only [Call.demand, hs]
  have hblock : c.call.stage.block? = some b := by rw [hs]; rfl
  cases x with
  | pass d =>
      simp only [turn, rests, hdemand]
      exact .idle
  | lag d =>
      simp only [turn, awaits, hdemand]
      exact .lagged (by simp only [awaits, hdemand])
  | cancel => exact .cancelled
  | stir f => exact .stirred
  | found answer =>
      simp only [turn, hdemand]
      cases answer with
      | error e => exact .left hblock .unread rfl
      | ok v =>
          cases hv : v.record.isAllocated with
          | true =>
              have hmove : c.call.polled b (.ok v) c.around = _ :=
                if_pos hv
              rw [take_behind hmove rfl]
              exact .left hblock (.found hv) rfl
          | false =>
              have hmove : c.call.polled b (.ok v) c.around = _ :=
                if_neg (Bool.eq_false_iff.mp hv)
              rw [take_goto hmove]
              exact .polled hs hv
  | _ =>
      simp only [turn, hdemand]
      exact .idle

theorem turned_sending (hs : c.call.stage = .sending b) (x : Turn) :
    Turned c x (c.turn x) := by
  have hdemand : c.call.demand c.now = .send (c.call.sent b) := by
    simp only [Call.demand, hs]
  have hblock : c.call.stage.block? = some b := by rw [hs]; rfl
  cases x with
  | pass d =>
      simp only [turn, rests, hdemand]
      exact .idle
  | lag d =>
      simp only [turn, awaits, hdemand]
      exact .lagged (by simp only [awaits, hdemand])
  | cancel => exact .cancelled
  | stir f => exact .stirred
  | sent answer =>
      simp only [turn, hdemand]
      cases answer with
      | error e => exact .left hblock .unsent rfl
      | ok u => exact .kept hs
  | _ =>
      simp only [turn, hdemand]
      exact .idle

/-- A step that stays behind the block. -/
theorem turned_step {k : Move Call}
    (hs : c.call.stage.isBehind = true)
    (hopen : ∀ r, c.call.stage ≠ .ended r)
    (hk : ∃ s l, s.isBehind = true ∧ k c.around = (c.call.goto s, l)) :
    Turned c x (c.take k) := by
  obtain ⟨s, l, hb, hk⟩ := hk
  rw [take_behind hk hb]
  exact .behind hs hopen hb (Or.inl ⟨rfl, rfl⟩)

theorem clearFailed_behind (c : Call) (p : Pacing) (e : StoreError)
    (l : Local) : ∃ s l', s.isBehind = true
      ∧ c.clearFailed p e l = (c.goto s, l') := by
  unfold Call.clearFailed
  split
  · split
    · exact ⟨_, _, rfl, rfl⟩
    · exact ⟨_, _, rfl, rfl⟩
  · exact ⟨_, _, rfl, rfl⟩

theorem clearFound_behind (c : Call) (p : Pacing) (v : Versioned)
    (l : Local) : ∃ s l', s.isBehind = true
      ∧ c.clearFound p v l = (c.goto s, l') := by
  unfold Call.clearFound
  split
  · exact ⟨_, _, rfl, rfl⟩
  · exact ⟨_, _, rfl, rfl⟩

theorem turned_clearing {p : Pacing} {y : Clearing}
    (hs : c.call.stage = .clearing p y) (x : Turn) :
    Turned c x (c.turn x) := by
  have hbehind : c.call.stage.isBehind = true := by rw [hs]; rfl
  have hopen : ∀ r, c.call.stage ≠ .ended r := by rw [hs]; nofun
  cases y with
  | reading =>
      cases x with
      | cancel => exact .cancelled
      | stir f => exact .stirred
      | lag d =>
          have ha : c.awaits = true := by simp only [awaits, Call.demand, hs]
          simp only [turn, if_pos ha]
          exact .lagged ha
      | found answer =>
          simp only [turn, Call.demand, hs]
          cases answer with
          | ok v => exact turned_step hbehind hopen (clearFound_behind ..)
          | error e => exact turned_step hbehind hopen (clearFailed_behind ..)
      | _ =>
          simp only [turn, rests, Call.demand, hs]
          exact .idle
  | writing old next =>
      cases x with
      | cancel => exact .cancelled
      | stir f => exact .stirred
      | lag d =>
          have ha : c.awaits = true := by simp only [awaits, Call.demand, hs]
          simp only [turn, if_pos ha]
          exact .lagged ha
      | updated answer =>
          simp only [turn, Call.demand, hs]
          cases answer with
          | ok v => exact turned_step hbehind hopen ⟨_, _, rfl, rfl⟩
          | error e => exact turned_step hbehind hopen (clearFailed_behind ..)
      | _ =>
          simp only [turn, rests, Call.demand, hs]
          exact .idle
  | pausing d =>
      cases x with
      | cancel => exact .cancelled
      | stir f => exact .stirred
      | pause =>
          simp only [turn, Call.demand, hs]
          exact .behind hbehind hopen rfl (Or.inr (Nat.lt_succ_self _))
      | lag d =>
          simp only [turn, awaits, Call.demand, hs]
          exact .idle
      | _ =>
          simp only [turn, rests, Call.demand, hs]
          exact .idle

theorem turned_closing {r : Except WaitError Outcome}
    (hs : c.call.stage = .closing r) (x : Turn) :
    Turned c x (c.turn x) := by
  have hbehind : c.call.stage.isBehind = true := by rw [hs]; rfl
  have hopen : ∀ r, c.call.stage ≠ .ended r := by rw [hs]; nofun
  cases x with
  | cancel => exact .cancelled
  | stir f => exact .stirred
  | go =>
      simp only [turn, Call.demand, hs]
      exact turned_step hbehind hopen ⟨_, _, rfl, rfl⟩
  | _ =>
      simp only [turn, rests, awaits, Call.demand, hs]
      exact .idle

theorem turned_ended {r : Except WaitError Outcome}
    (hs : c.call.stage = .ended r) (x : Turn) :
    Turned c x (c.turn x) := by
  cases x with
  | cancel => exact .cancelled
  | stir f => exact .stirred
  | pass d =>
      simp only [turn, rests, Call.demand, hs]
      exact .rested hs
  | _ =>
      simp only [turn, awaits, Call.demand, hs]
      exact .idle

/-- The call has begun to block. -/
def Begun (c : Course) : Prop :=
  (∃ b, c.call.stage.block? = some b) ∨ c.call.stage.isBehind = true

theorem turned (hb : c.Begun) (x : Turn) : Turned c x (c.turn x) := by
  cases hs : c.call.stage with
  | blocked b => exact turned_blocked hs x
  | rechecking b => exact turned_rechecking hs x
  | polling b => exact turned_polling hs x
  | sending b => exact turned_sending hs x
  | clearing p y => exact turned_clearing hs x
  | closing r => exact turned_closing hs x
  | ended r => exact turned_ended hs x
  | _ =>
      -- before the block
      unfold Begun at hb
      rw [hs] at hb
      rcases hb with ⟨b, hb⟩ | hb <;> cases hb

theorem Turned.begun (hb : c.Begun) (ht : Turned c x c') : c'.Begun := by
  cases ht with
  | rechecks => exact Or.inl ⟨_, rfl⟩
  | polls => exact Or.inl ⟨_, rfl⟩
  | keeps => exact Or.inl ⟨_, rfl⟩
  | rechecked => exact Or.inl ⟨_, rfl⟩
  | polled => exact Or.inl ⟨_, rfl⟩
  | kept => exact Or.inl ⟨_, rfl⟩
  | left hs he hl => exact Or.inr (by cases he <;> rfl)
  | behind hs hopen hb' => exact Or.inr hb'
  | _ => exact hb

/-- What a call does when it begins to block: it holds a signal, or is
over already. -/
theorem enter_cases (c : Call) (l : Local) (start : Nat) :
    (∃ a, (enter c l start).call = c.goto (.blocked
        ⟨a, start + c.settings.responseInterval.nanos, start, false⟩))
      ∨ ∃ r, (enter c l start).call = c.goto (.closing r) := by
  unfold enter Call.enter
  split
  · exact Or.inr ⟨_, rfl⟩
  · exact Or.inl ⟨_, rfl⟩

theorem begun_enter (c : Call) (l : Local) (start : Nat) :
    (enter c l start).Begun := by
  unfold Begun
  rcases enter_cases c l start with ⟨a, hc⟩ | ⟨r, hc⟩
  · rw [hc]
    exact Or.inl ⟨_, rfl⟩
  · rw [hc]
    exact Or.inr rfl

theorem begun_after (hb : c.Begun) (h : List Turn) :
    (c.after h).Begun := by
  induction h with
  | nil => exact hb
  | cons x h ih => exact (turned ih x).begun ih

-- ============================================================= a lab

/-- A call with a tick of two nanoseconds that looks into the store every
three, to run concrete courses with, -/
def labCall : Call where
  machine := "m"
  node := "n"
  settings := ⟨⟨2⟩, ⟨3⟩⟩
  retry := { jitter := .zero false, precision := .exact }

/-- a replica where nobody else waits, -/
def labAround : Local where
  registry := {}
  ambient := { clock := ⟨0, 0⟩ }

/-- and what its store may show: a free machine, -/
def labFree : Versioned := ⟨MachineRecord.fresh "m" ⟨0, 0⟩, 1⟩

/-- or one that was allocated, -/
def labAllocated : Versioned where
  record := { labFree.record with
    allocation := some
      { project := "p", hostname := "h", image := "i",
        allocatedAt := ⟨0, 0⟩ } }
  revision := 2

/-- and still has the flag of those who wait for it. -/
def labMarked : Versioned :=
  { labAllocated with
    record := { labAllocated.record with waiting := true } }

end Course

end ControlPlane.Wait
