/-
Wait calls. A machine that waits for its allocation reads its record,
marks it as waiting and blocks on its wake signal. While it is blocked it
answers whichever comes first: cancellation, a wake-up, or the tick of the
response interval. A tick sends a keep-alive, and reads the record first
once the check interval has passed since the last look, so that news lost
on the bus only delay a call.

The hold on the signal lasts exactly as long as the call is blocked. After
a call that saw the allocation the waiting flag is cleared, as well as
that can be done.
-/
import ControlPlane.Demand
import ControlPlane.Retry

namespace ControlPlane.Wait

/-- How a wait call ends well. -/
inductive Outcome
  /-- The machine was allocated before the call began to wait. -/
  | alreadyAllocated
  | allocated
  deriving DecidableEq, Repr

/-- The name of an outcome. -/
def Outcome.name : Outcome → String
  | alreadyAllocated => "already_allocated"
  | allocated => "allocated"

/-- A blocked call. -/
structure Block where
  registration : Registration
  nextTick : Moment
  /-- When the record was last looked at, or the call began to block. -/
  lastCheck : Moment
  /-- The signal was closed and is not listened to any more. -/
  deaf : Bool := false
  deriving DecidableEq, Repr

/-- How clearing the waiting flag stands. -/
inductive Clearing
  | reading
  | writing (old : Versioned) (next : MachineRecord)
  | pausing (d : Duration)
  deriving Repr

/-- Where a call stands. -/
inductive Stage
  | opening
  | reading
  /-- About to set the waiting flag of what was read. -/
  | marking (old : Versioned) (next : MachineRecord)
  /-- The flag is set; about to register. -/
  | entering
  | blocked (b : Block)
  /-- Looking into the store after a wake-up. -/
  | rechecking (b : Block)
  /-- Looking into the store on a tick. -/
  | polling (b : Block)
  /-- A keep-alive is under way. -/
  | sending (b : Block)
  /-- The allocation was seen; the waiting flag is to be cleared. -/
  | clearing (pacing : Pacing) (c : Clearing)
  /-- About to say how the call ended. -/
  | closing (result : Except WaitError Outcome)
  | ended (result : Except WaitError Outcome)
  deriving Repr

/-- A call that waits for a machine's allocation. -/
structure Call where
  machine : String
  /-- The replica that holds the call. -/
  node : String
  settings : WaitSettings
  retry : RetrySettings
  stage : Stage := .opening
  deriving Repr

/-- The blocked state in which a call holds a signal, if it does. -/
def Stage.block? : Stage → Option Block
  | blocked b => some b
  | rechecking b => some b
  | polling b => some b
  | sending b => some b
  | _ => none

/-- A tick that comes later than this after its moment shifts those behind
it. -/
def lateness : Nat := 5000000

/-- The moment of the tick after one that was due at `due` and is served
at `now`. -/
def nextTick (period : Nat) (due now : Moment) : Moment :=
  if due + lateness < now then now + period else due + period

namespace Call

/-- The call at another stage. -/
def goto (c : Call) (s : Stage) : Call := { c with stage := s }

/-- The call has its result, and does not hold a signal. -/
def close (c : Call) (result : Except WaitError Outcome) : Call :=
  c.goto (.closing result)

/-- A blocked call lets go of its signal with an error. -/
def leave (c : Call) (b : Block) (e : WaitError) : Move Call := fun l =>
  (c.close (.error e), l.release b.registration)

/-- A blocked call saw the allocation: it lets go of its signal and clears
the flag. -/
def succeed (c : Call) (b : Block) : Move Call := fun l =>
  (c.goto (.clearing (.start c.retry) .reading), l.release b.registration)

/-- How the end of a call is logged and counted. -/
def report (c : Call) (result : Except WaitError Outcome) (l : Local) :
    Local :=
  match result with
  | .ok outcome =>
    (l.say (.waitFinished c.machine outcome.name)).count
      (.waitFinished outcome.name)
  | .error (.cancelled _) =>
    (l.say (.waitCancelled c.machine)).count (.waitFinished "cancelled")
  | .error e =>
    (l.say (.waitFailed c.machine e.message)).count (.waitFinished "error")

/-- The record was read for the first time. -/
def found (c : Call) (v : Versioned) : Move Call := fun l =>
  if v.record.isAllocated then (c.close (.ok .alreadyAllocated), l)
  else
    let (now, l) := l.now
    (c.goto (.marking v
      { v.record with waiting := true, changedAt := now }), l)

/-- The signal is registered, or not. -/
def enter (c : Call) (now : Moment) : Move Call := fun l =>
  match l.register c.machine with
  | (.error e, l) => (c.close (.error (.ofRegistry e)), l)
  | (.ok registration, l) =>
    (c.goto (.blocked
      ⟨registration, now + c.settings.responseInterval.nanos, now, false⟩), l)

/-- The call was woken. -/
def woken (c : Call) (b : Block) (wake : Wake) (registration : Registration)
    (now : Moment) : Move Call := fun l =>
  let b := { b with registration, lastCheck := now }
  match wake with
  | .allocated => c.succeed b l
  | .closed =>
    (c.goto (.rechecking { b with deaf := true }),
      l.say (.signalClosed c.machine))
  | _ => (c.goto (.rechecking b), l.say (.signalRecheck c.machine))

/-- The tick has come. -/
def ticked (c : Call) (b : Block) (now : Moment) : Move Call := fun l =>
  let b := { b with
    nextTick := nextTick c.settings.responseInterval.nanos b.nextTick now }
  if b.lastCheck + c.settings.checkInterval.nanos ≤ now then
    (c.goto (.polling { b with lastCheck := now }), l)
  else (c.goto (.sending b), l)

/-- The record was looked at after a wake-up. -/
def rechecked (c : Call) (b : Block) (answer : Except StoreError Versioned) :
    Move Call := fun l =>
  match answer with
  | .error e => c.leave b (.ofStore e) l
  | .ok v =>
    if v.record.isAllocated then c.succeed b l else (c.goto (.blocked b), l)

/-- The record was looked at on a tick, whose keep-alive is still to be
sent. -/
def polled (c : Call) (b : Block) (answer : Except StoreError Versioned) :
    Move Call := fun l =>
  match answer with
  | .error e => c.leave b (.ofStore e) l
  | .ok v =>
    if v.record.isAllocated then c.succeed b (l.say (.foundByPoll c.machine))
    else (c.goto (.sending b), l)

/-- The keep-alive was sent, or not. -/
def sent (c : Call) (b : Block) (answer : Except WaitError Unit) :
    Move Call := fun l =>
  match answer with
  | .ok _ => (c.goto (.blocked b), l)
  | .error e => c.leave b e l

/-- The flag is cleared, or will not be. -/
def cleared (c : Call) : Call := c.close (.ok .allocated)

/-- An attempt to clear the flag failed. -/
def clearFailed (c : Call) (pacing : Pacing) (e : StoreError) :
    Move Call := fun l =>
  let giveUp := (c.cleared, l.say (.clearFailed c.machine e.message))
  if e.isConflict then
    match pacing.again "clear_waiting" c.retry l.ambient with
    | some (delay, next, ambient) =>
      (c.goto (.clearing next (.pausing delay)), { l with ambient })
    | none => giveUp
  else giveUp

/-- The record was read to clear its flag. -/
def clearFound (c : Call) (pacing : Pacing) (v : Versioned) :
    Move Call := fun l =>
  if v.record.waiting then
    let (now, l) := l.now
    (c.goto (.clearing pacing
      (.writing v { v.record with waiting := false, changedAt := now })), l)
  else (c.cleared, l)

/-- What a call wants next. -/
def demand (c : Call) (now : Moment) :
    Demand Call (Except WaitError Outcome) :=
  match c.stage with
  | .opening =>
    .proceed fun l => (c.goto .reading, l.say (.waitStarted c.machine c.node))
  | .reading => .find c.machine fun
    | .ok v => c.found v
    | .error e => fun l => (c.close (.error (.ofStore e)), l)
  | .marking old next => .update old next fun
    | .ok _ => fun l => (c.goto .entering, l)
    | .error e => fun l => (c.close (.error (.ofStore e)), l)
  | .entering => .proceed (c.enter now)
  | .blocked b =>
    .select (if b.deaf then none else some b.registration) b.nextTick
      (c.leave b (.cancelled .disconnected)) (c.woken b) (c.ticked b)
  | .rechecking b => .find c.machine (c.rechecked b)
  | .polling b => .find c.machine (c.polled b)
  | .sending b => .send (c.sent b)
  | .clearing pacing .reading => .find c.machine fun
    | .ok v => c.clearFound pacing v
    | .error e => c.clearFailed pacing e
  | .clearing pacing (.writing old next) => .update old next fun
    | .ok _ => fun l => (c.cleared, l)
    | .error e => c.clearFailed pacing e
  | .clearing pacing (.pausing d) =>
    .pause d fun l => (c.goto (.clearing pacing .reading), l)
  | .closing result =>
    .proceed fun l => (c.goto (.ended result), c.report result l)
  | .ended result => .finished result

/-- The call is given up where it stands: it lets go of its signal, if it
holds one. -/
def abandon (c : Call) (l : Local) : Local :=
  match c.stage.block? with
  | some b => l.release b.registration
  | none => l

/-- The caller's deadline has passed: the call ends where it stands. -/
def expire (c : Call) : Move Call := fun l =>
  (c.close (.error (.cancelled .deadlineExceeded)), c.abandon l)

end Call

end ControlPlane.Wait
