/-
The stream of a wait request. What the client reads are keep-alives, one
for each that its call has sent, then one last event that tells how the
call ended, and then the end; nothing is lost, doubled or put out of
order between the call and the client, however slowly the client reads,
whatever the backends, the bus, the clock and the shutdown do, and also
when a keep-alive finds no room for so long that the call gives up
(`wait_stream`).

# The row of events

What the client has read and what is kept for it are one row of events,
and only two things touch it: reading moves the line between the two
parts, and the task behind the stream appends (`Went`). It appends the
last event exactly once, after the call has returned, together with the
mark that nothing more will come. So the row is known from the number of
keep-alives and from whether the task is over (`Stands`).

# Why the end comes

Once the call has returned, nobody but the client touches the row until
the last event has found its place: one event read makes room for it
(`Wired.roomy_read`), one turn of the task puts it in
(`Wired.turn_sends`), and then there are at most as many events to be
read as the stream keeps (`Wired.left_step`).

Chain: over Simulation/Streams.lean.
-/
import ControlPlane.Proofs.Simulation.Streams
import ControlPlane.Simulation.Script

namespace ControlPlane.Simulation

open Http (StreamEvent streamBuffer)

variable {w w' : World} {r : Running} {m : String} {i : Nat}

-- ================================================= a stream and its client

/-- A wait stream between the task behind it and its client. -/
structure Line where
  /-- The number of the stream's channel. -/
  channel : Nat
  world : World
  job : Job
  /-- What the client has read. -/
  received : List StreamEvent := []
  /-- The client has come to the end. -/
  ended : Bool := false
  /-- How many keep-alives the call has sent. -/
  sent : Nat := 0
  /-- What the call has returned. -/
  returned : Option Ending := none

/-- What happens to a stream whose client stays. -/
inductive Act
  /-- The task behind it takes a step. -/
  | turn
  /-- The client reads what comes next, if it has come. -/
  | read
  /-- Anything, anywhere else. -/
  | elsewhere (f : World → World)

namespace Line

/-- What is kept for the client. -/
def queue (x : Line) : Http.Channel := x.world.channel x.channel

/-- All events that were sent: those that were read, and those kept. -/
def row (x : Line) : List StreamEvent := x.received ++ x.queue.buffer

def turn (x : Line) : Line :=
  { x with
    world := (x.world.goOn x.job).2
    job := (x.world.goOn x.job).1
    sent := if x.job.kept (x.world.goOn x.job).1 then x.sent + 1 else x.sent
    returned := x.returned.or (x.world.returning x.job) }

def read (x : Line) : Line :=
  match x.queue.buffer with
  | e :: rest =>
      { x with
        world :=
          x.world.setChannel x.channel { x.queue with buffer := rest }
        received := x.received ++ [e] }
  | [] => { x with ended := x.queue.finished }

/-- The world changes, but for what is kept for the client: the store,
the bus, the clock, the shutdown, other streams. -/
def elsewhere (x : Line) (f : World → World) : Line :=
  if x.channel < (f x.world).channels.length then
    { x with world := (f x.world).setChannel x.channel x.queue }
  else x

def step (x : Line) : Act → Line
  | .turn => x.turn
  | .read => x.read
  | .elsewhere f => x.elsewhere f

/-- A stream that has just been opened. -/
def opened (w : World) (o : StreamOpening) : Line where
  channel := (w.openStream o).1.channel
  world := (w.openStream o).2
  job := .call
    { replica := o.replica, work := .wait o.call
      deadline := o.deadline.map fun d => w.time + d.millisUp
      token := some (w.openStream o).1.token
      sink := .stream (w.openStream o).1.channel
      finish := .stream (w.openStream o).1.channel o.call.machine }

/-- That is the task which the opening starts. -/
theorem opened_task (w : World) (o : StreamOpening) :
    (opened w o).world.tasks
      = w.tasks.push (some ⟨(opened w o).job, []⟩) :=
  rfl

/-- The stream after some acts, the latest first. -/
def after (w : World) (o : StreamOpening) : List Act → Line
  | [] => opened w o
  | a :: l => (after w o l).step a

end Line

/-- A request for a wait stream opens one. -/
theorem httpJob_wait {s : Session} {q : Http.Request} {machine : String}
    {deadline : Option Duration} (hplan : q.plan = .wait machine deadline) :
    s.httpJob i q = .opening
      { replica := i, call := s.waitCall i machine, deadline
        headOnly := decide (q.method = "HEAD") } := by
  unfold Session.httpJob
  rw [hplan]

-- ========================================================= the invariant

section Row

variable {x y : Line}

/-- How the task behind a stream stands to what was sent. -/
inductive Stands (m : String) (x : Line) : Prop
  /-- The call is under way, and has sent keep-alives only. -/
  | calling {r : Running} (hj : x.job = .call r)
      (hsink : r.sink = .stream x.channel)
      (hfin : r.finish = .stream x.channel m) (hresp : r.respond = none)
      (hx : Waits r.work) (hret : x.returned = none)
      (hopen : x.queue.finished = false)
      (hrow : x.row = List.replicate x.sent .keepalive)
  /-- The call has returned; the last event has not found room yet. -/
  | closing {result : Ending}
      (hj : x.job = .last x.channel (.final m result))
      (hret : x.returned = some result) (hopen : x.queue.finished = false)
      (hrow : x.row = List.replicate x.sent .keepalive)
  /-- The last event was sent. -/
  | finished {result : Ending} {a : Answer} (hj : x.job = .over a)
      (hret : x.returned = some result) (hover : x.queue.finished = true)
      (hrow : x.row
        = List.replicate x.sent .keepalive ++ [.final m result])

/-- A stream in order. -/
structure Wired (m : String) (x : Line) : Prop where
  known : x.channel < x.world.channels.length
  live : x.queue.dropped = false
  short : x.queue.buffer.length ≤ streamBuffer
  seen : x.ended = true → x.queue.finished = true ∧ x.queue.buffer = []
  stands : Stands m x

theorem channel_setChannel {c : Http.Channel}
    (h : i < w.channels.length) : (w.setChannel i c).channel i = c := by
  unfold World.channel World.setChannel
  rw [List.getD_eq_getElem?_getD, List.getElem?_set_self h]
  rfl

theorem channel_congr (h : w'.channels = w.channels) :
    w'.channel i = w.channel i := by
  unfold World.channel
  rw [h]

/-- The task stands as it stood if only reading or the rest of the world
went on. -/
theorem Stands.still (h : Stands m x) (hj : y.job = x.job)
    (hc : y.channel = x.channel) (hret : y.returned = x.returned)
    (hsent : y.sent = x.sent) (hfin : y.queue.finished = x.queue.finished)
    (hrow : y.row = x.row) : Stands m y := by
  cases h with
  | calling h₁ h₂ h₃ h₄ h₅ h₆ h₇ h₈ =>
      rw [← hj] at h₁
      rw [← hc] at h₂ h₃
      rw [← hret] at h₆
      rw [← hfin] at h₇
      rw [← hrow, ← hsent] at h₈
      exact .calling h₁ h₂ h₃ h₄ h₅ h₆ h₇ h₈
  | closing h₁ h₂ h₃ h₄ =>
      rw [← hj, ← hc] at h₁
      rw [← hret] at h₂
      rw [← hfin] at h₃
      rw [← hrow, ← hsent] at h₄
      exact .closing h₁ h₂ h₃ h₄
  | finished h₁ h₂ h₃ h₄ =>
      rw [← hj] at h₁
      rw [← hret] at h₂
      rw [← hfin] at h₃
      rw [← hrow, ← hsent] at h₄
      exact .finished h₁ h₂ h₃ h₄

theorem Wired.read (h : Wired m x) : Wired m x.read := by
  unfold Line.read
  cases hb : x.queue.buffer with
  | nil =>
      refine ⟨h.known, h.live, h.short, ?_,
        h.stands.still rfl rfl rfl rfl rfl rfl⟩
      intro hended
      exact ⟨hended, hb⟩
  | cons e rest =>
      have hq : Line.queue { x with
          world :=
            x.world.setChannel x.channel { x.queue with buffer := rest }
          received := x.received ++ [e] }
            = { x.queue with buffer := rest } :=
        channel_setChannel h.known
      refine ⟨?_, ?_, ?_, ?_, h.stands.still rfl rfl rfl rfl ?_ ?_⟩
      · show x.channel < (x.world.channels.set _ _).length
        rw [List.length_set]
        exact h.known
      · rw [hq]
        exact h.live
      · have hshort := h.short
        rw [hb] at hshort
        rw [hq]
        exact Nat.le_of_succ_le hshort
      · intro hended
        cases hb.symm.trans (h.seen hended).2
      · rw [hq]
      · unfold Line.row
        rw [hq, hb]
        exact List.append_assoc _ [e] rest

theorem Wired.elsewhere (h : Wired m x) (f : World → World) :
    Wired m (x.elsewhere f) := by
  unfold Line.elsewhere
  split
  · rename_i hlt
    have hq : Line.queue { x with
        world := (f x.world).setChannel x.channel x.queue } = x.queue :=
      channel_setChannel hlt
    refine ⟨?_, ?_, ?_, ?_, h.stands.still rfl rfl rfl rfl ?_ ?_⟩
    · show x.channel < ((f x.world).channels.set _ _).length
      rw [List.length_set]
      exact hlt
    · rw [hq]
      exact h.live
    · rw [hq]
      exact h.short
    · rw [hq]
      exact h.seen
    · rw [hq]
    · unfold Line.row
      rw [hq]
  · exact h

/-- A step that leaves alone what is kept for the client. -/
theorem Wired.along (h : Wired m x)
    (hlen : y.world.channels.length = x.world.channels.length)
    (hc : y.channel = x.channel) (hq : y.queue = x.queue)
    (he : y.ended = x.ended) (hs : Stands m y) : Wired m y := by
  refine ⟨?_, ?_, ?_, ?_, hs⟩
  · rw [hc, hlen]
    exact h.known
  · rw [hq]
    exact h.live
  · rw [hq]
    exact h.short
  · rw [hq, he]
    exact h.seen

/-- An event that finds room. -/
theorem Wired.put (h : Wired m x) {e : StreamEvent} {done : Bool}
    (hroom : x.queue.buffer.length < streamBuffer)
    (hw : y.world.channels = x.world.channels.set x.channel
      { x.queue with buffer := x.queue.buffer ++ [e], finished := done })
    (hc : y.channel = x.channel) (hopen : x.queue.finished = false)
    (he : y.ended = x.ended) (hs : Stands m y) : Wired m y := by
  have hq : y.queue = { x.queue with
      buffer := x.queue.buffer ++ [e], finished := done } := by
    unfold Line.queue World.channel
    rw [hw, hc, List.getD_eq_getElem?_getD, List.getElem?_set_self h.known]
    rfl
  refine ⟨?_, ?_, ?_, ?_, hs⟩
  · rw [hw, hc, List.length_set]
    exact h.known
  · rw [hq]
    exact h.live
  · rw [hq, List.length_append]
    exact hroom
  · intro hended
    rw [he] at hended
    cases hopen.symm.trans (h.seen hended).1

/-- A turn of the task. -/
theorem turn_eq {p : Job × World} (hp : x.world.goOn x.job = p) :
    x.turn = { x with
      world := p.2, job := p.1
      sent := if x.job.kept p.1 then x.sent + 1 else x.sent
      returned := x.returned.or (x.world.returning x.job) } := by
  unfold Line.turn
  rw [hp]

theorem Wired.turn_calling (h : Wired m x) (hj : x.job = .call r)
    (hsink : r.sink = .stream x.channel)
    (hfin : r.finish = .stream x.channel m) (hresp : r.respond = none)
    (hx : Waits r.work) (hret : x.returned = none)
    (hopen : x.queue.finished = false)
    (hrow : x.row = List.replicate x.sent .keepalive) :
    Wired m x.turn := by
  have hwent : Went x.channel m x.world r (x.world.goOn (.call r)) :=
    went hsink hfin hresp hx h.live
  generalize hp : x.world.goOn (.call r) = p at hwent
  rw [turn_eq (hj ▸ hp), hj, hret]
  cases hwent with
  | @calm r' w' hsink' hfin' hresp' hx' hw hk hno =>
      rw [hk, hno]
      have hq : w'.channel x.channel = x.queue := channel_congr hw
      refine h.along (by rw [hw]) rfl hq rfl (.calling rfl
        (hsink'.trans hsink) (hfin'.trans hfin) (hresp'.trans hresp) hx'
        rfl ?_ ?_)
      · show (w'.channel x.channel).finished = false
        rw [hq]
        exact hopen
      · show x.received ++ (w'.channel x.channel).buffer = _
        rw [hq]
        exact hrow
  | @sent r' w' hsink' hfin' hresp' hx' hroom hw hk hno =>
      rw [hk, hno]
      have hq : w'.channel x.channel = { x.queue with
          buffer := x.queue.buffer ++ [.keepalive] } := by
        unfold World.channel
        rw [hw, List.getD_eq_getElem?_getD, List.getElem?_set_self h.known]
        rfl
      refine h.put hroom hw rfl hopen rfl (.calling rfl
        (hsink'.trans hsink) (hfin'.trans hfin) (hresp'.trans hresp) hx'
        rfl ?_ ?_)
      · show (w'.channel x.channel).finished = false
        rw [hq]
        exact hopen
      · show x.received ++ (w'.channel x.channel).buffer
          = List.replicate (x.sent + 1) .keepalive
        rw [hq, ← List.append_assoc, List.replicate_succ', ← hrow]
        rfl
  | @returned result hyes =>
      have hk : (Job.call r).kept (.last x.channel (.final m result))
          = false := by
        apply kept_of_not_blocked
        intro b hb
        cases hb
      rw [hyes, hk]
      exact h.along rfl rfl rfl rfl (.closing rfl rfl hopen hrow)

/-- The last event is sent as soon as there is room. -/
theorem Wired.turn_closing (h : Wired m x) {result : Ending}
    (hj : x.job = .last x.channel (.final m result))
    (hret : x.returned = some result) (hopen : x.queue.finished = false)
    (hrow : x.row = List.replicate x.sent .keepalive) :
    Wired m x.turn
      ∧ (x.queue.buffer.length < streamBuffer →
        ∃ a, x.turn.job = .over a) := by
  by_cases hroom : x.queue.buffer.length < streamBuffer
  · have hp : x.world.goOn x.job = (.over .nothing,
        x.world.setChannel x.channel { x.queue with
          buffer := x.queue.buffer ++ [.final m result]
          finished := true }) := by
      rw [hj]
      have hsend := send_room h.live hroom (.final m result)
      simp only [World.goOn, World.poll.sendLast, Line.queue] at hsend ⊢
      rw [hsend]
      rfl
    rw [turn_eq hp, hj, hret]
    refine ⟨h.put hroom rfl rfl hopen rfl (.finished rfl rfl ?_ ?_),
      fun _ => ⟨_, rfl⟩⟩
    · show ((x.world.setChannel x.channel _).channel x.channel).finished = _
      rw [channel_setChannel h.known]
    · show x.received
        ++ ((x.world.setChannel x.channel _).channel x.channel).buffer = _
      rw [channel_setChannel h.known, ← List.append_assoc]
      show x.row ++ _ = _
      rw [hrow]
      rfl
  · have hp : x.world.goOn x.job
        = (.last x.channel (.final m result), x.world) := by
      rw [hj]
      have hsend := send_full h.live hroom (.final m result)
      simp only [World.goOn, World.poll.sendLast, Line.queue] at hsend ⊢
      rw [hsend]
      rfl
    rw [turn_eq hp, hj, hret]
    exact ⟨h.along rfl rfl rfl rfl (.closing rfl rfl hopen hrow),
      fun hlt => absurd hlt hroom⟩

theorem Wired.turn_over (h : Wired m x) {result : Ending} {a : Answer}
    (hj : x.job = .over a) (hret : x.returned = some result)
    (hover : x.queue.finished = true)
    (hrow : x.row
      = List.replicate x.sent .keepalive ++ [.final m result]) :
    Wired m x.turn ∧ x.turn.queue = x.queue ∧ x.turn.job = x.job := by
  have hp : x.world.goOn x.job = (.over a, x.world) := by
    rw [hj]
    rfl
  rw [turn_eq hp, hj, hret]
  exact ⟨h.along rfl rfl rfl rfl (.finished rfl rfl hover hrow), rfl, rfl⟩

theorem Wired.turn (h : Wired m x) : Wired m x.turn := by
  cases h.stands with
  | calling h₁ h₂ h₃ h₄ h₅ h₆ h₇ h₈ =>
      exact h.turn_calling h₁ h₂ h₃ h₄ h₅ h₆ h₇ h₈
  | closing h₁ h₂ h₃ h₄ => exact (h.turn_closing h₁ h₂ h₃ h₄).1
  | finished h₁ h₂ h₃ h₄ => exact (h.turn_over h₁ h₂ h₃ h₄).1

theorem Wired.step (h : Wired m x) (a : Act) : Wired m (x.step a) := by
  cases a with
  | turn => exact h.turn
  | read => exact h.read
  | elsewhere f => exact h.elsewhere f

theorem opened_wired (w : World) (o : StreamOpening) :
    Wired o.call.machine (Line.opened w o) := by
  have hq : (Line.opened w o).queue = {} := by
    show (w.channels ++ [({} : Http.Channel)]).getD w.channels.length {} = _
    rw [List.getD_eq_getElem?_getD, List.getElem?_concat_length]
    rfl
  refine ⟨?_, ?_, ?_, ?_, .calling rfl rfl rfl rfl (Or.inl ⟨_, rfl⟩) rfl
    ?_ ?_⟩
  · show w.channels.length < (w.channels ++ [({} : Http.Channel)]).length
    rw [List.length_append]
    exact Nat.lt_succ_self _
  · rw [hq]
  · rw [hq]
    exact Nat.zero_le _
  · intro hended
    cases hended
  · rw [hq]
  · unfold Line.row
    rw [hq]
    rfl

theorem wired (w : World) (o : StreamOpening) (l : List Act) :
    Wired o.call.machine (Line.after w o l) := by
  induction l with
  | nil => exact opened_wired w o
  | cons a l ih => exact ih.step a

-- ================================================================ the end

/-- There is room for the last event, or it was sent. -/
def Roomy (x : Line) : Prop :=
  x.queue.buffer.length < streamBuffer ∨ ∃ a, x.job = .over a

/-- How often the client has to read until it sees the end, once the last
event was sent. -/
def Line.left (x : Line) : Nat :=
  if x.ended then 0 else x.queue.buffer.length + 1

def Act.isRead : Act → Bool
  | read => true
  | _ => false

/-- How often the client reads. -/
def reads (l : List Act) : Nat := l.countP Act.isRead

theorem Line.step_returned (x : Line) (a : Act)
    (h : x.returned.isSome = true) : (x.step a).returned = x.returned := by
  cases a with
  | turn =>
      show x.returned.or _ = _
      cases hr : x.returned with
      | none =>
          rw [hr] at h
          cases h
      | some result => rfl
  | read =>
      show x.read.returned = _
      unfold Line.read
      split <;> rfl
  | elsewhere f =>
      show (x.elsewhere f).returned = _
      unfold Line.elsewhere
      split <;> rfl

theorem Line.read_job (x : Line) : x.read.job = x.job := by
  unfold Line.read
  split <;> rfl

/-- Whatever is read makes room. -/
theorem Wired.roomy_read (h : Wired m x) : Roomy x.read := by
  unfold Line.read
  cases hb : x.queue.buffer with
  | nil =>
      left
      show x.queue.buffer.length < _
      rw [hb]
      exact Nat.succ_pos _
  | cons e rest =>
      have hshort := h.short
      rw [hb] at hshort
      left
      unfold Line.queue
      rw [channel_setChannel h.known]
      exact hshort

theorem Wired.elsewhere_queue (f : World → World) :
    (x.elsewhere f).queue = x.queue ∧ (x.elsewhere f).job = x.job
      ∧ (x.elsewhere f).ended = x.ended := by
  unfold Line.elsewhere
  split
  · rename_i hlt
    exact ⟨channel_setChannel hlt, rfl, rfl⟩
  · exact ⟨rfl, rfl, rfl⟩

/-- Once the call has returned, a turn with room sends the last event. -/
theorem Wired.turn_sends (h : Wired m x) (hret : x.returned.isSome = true)
    (hroom : Roomy x) : ∃ a, x.turn.job = .over a := by
  cases h.stands with
  | calling h₁ h₂ h₃ h₄ h₅ h₆ h₇ h₈ =>
      rw [h₆] at hret
      cases hret
  | closing h₁ h₂ h₃ h₄ =>
      rcases hroom with hlt | ⟨a, ha⟩
      · exact (h.turn_closing h₁ h₂ h₃ h₄).2 hlt
      · cases h₁.symm.trans ha
  | finished h₁ h₂ h₃ h₄ =>
      exact ⟨_, (h.turn_over h₁ h₂ h₃ h₄).2.2.trans h₁⟩

theorem Wired.roomy_step (h : Wired m x) (hret : x.returned.isSome = true)
    (hroom : Roomy x) (a : Act) : Roomy (x.step a) := by
  cases a with
  | turn => exact Or.inr (h.turn_sends hret hroom)
  | read => exact h.roomy_read
  | elsewhere f =>
      obtain ⟨hq, hj, -⟩ := Wired.elsewhere_queue (x := x) f
      show Roomy (x.elsewhere f)
      unfold Roomy
      rw [hq, hj]
      exact hroom

/-- Behind the last event only the client does something. -/
theorem Wired.left_step (h : Wired m x) (hover : ∃ a, x.job = .over a)
    (a : Act) :
    (∃ b, (x.step a).job = .over b)
      ∧ (x.step a).left = x.left - reads [a] := by
  obtain ⟨b, hb⟩ := hover
  cases hs : h.stands with
  | calling h₁ => cases h₁.symm.trans hb
  | closing h₁ => cases h₁.symm.trans hb
  | finished h₁ h₂ h₃ h₄ =>
  cases a with
  | turn =>
      obtain ⟨-, hq, hj⟩ := h.turn_over h₁ h₂ h₃ h₄
      refine ⟨⟨_, hj.trans h₁⟩, ?_⟩
      show (if x.ended then 0 else x.turn.queue.buffer.length + 1) = _
      rw [hq]
      rfl
  | elsewhere f =>
      obtain ⟨hq, hj, he⟩ := Wired.elsewhere_queue (x := x) f
      refine ⟨⟨_, hj.trans h₁⟩, ?_⟩
      show (x.elsewhere f).left = _
      unfold Line.left
      rw [hq, he]
      rfl
  | read =>
      refine ⟨⟨_, (x.read_job).trans h₁⟩, ?_⟩
      show x.read.left = x.left - 1
      cases hbuf : x.queue.buffer with
      | nil =>
          have hread : x.read = { x with ended := x.queue.finished } := by
            unfold Line.read
            rw [hbuf]
          rw [hread]
          unfold Line.left
          rw [h₃, hbuf]
          cases x.ended <;> rfl
      | cons e rest =>
          -- the client has not come to the end yet
          have hnot : x.ended = false := by
            apply Bool.eq_false_iff.mpr
            intro hended
            cases hbuf.symm.trans (h.seen hended).2
          have hq : x.read.queue.buffer = rest := by
            unfold Line.read
            rw [hbuf]
            show ((x.world.setChannel x.channel _).channel x.channel).buffer
              = _
            rw [channel_setChannel h.known]
          have he : x.read.ended = x.ended := by
            unfold Line.read
            rw [hbuf]
          unfold Line.left
          rw [he, hnot, hq, hbuf]
          rfl

end Row

section Promise

variable {o : StreamOpening} {l : List Act}

theorem reads_cons (a : Act) (l : List Act) :
    reads (a :: l) = reads l + reads [a] := by
  unfold reads
  rw [List.countP_cons, List.countP_singleton]

theorem after_returned (l₀ : List Act)
    (h : (Line.after w o l).returned.isSome = true) :
    (Line.after w o (l₀ ++ l)).returned = (Line.after w o l).returned := by
  induction l₀ with
  | nil => rfl
  | cons a l₀ ih =>
      show ((Line.after w o (l₀ ++ l)).step a).returned = _
      rw [Line.step_returned _ a (ih ▸ h), ih]

/-- One event read, since the call has returned, makes room. -/
theorem roomy_after (l₀ : List Act)
    (h : (Line.after w o l).returned.isSome = true)
    (hreads : 1 ≤ reads l₀) : Roomy (Line.after w o (l₀ ++ l)) := by
  induction l₀ with
  | nil => cases hreads
  | cons a l₀ ih =>
      have hwired := wired w o (l₀ ++ l)
      show Roomy ((Line.after w o (l₀ ++ l)).step a)
      by_cases hrest : 1 ≤ reads l₀
      · apply hwired.roomy_step _ (ih hrest) a
        rw [after_returned l₀ h]
        exact h
      · cases a with
        | read => exact hwired.roomy_read
        | turn => exact absurd hreads hrest
        | elsewhere f => exact absurd hreads hrest

theorem left_after (l₀ : List Act)
    (h : ∃ a, (Line.after w o l).job = .over a) :
    (∃ a, (Line.after w o (l₀ ++ l)).job = .over a)
      ∧ (Line.after w o (l₀ ++ l)).left
        = (Line.after w o l).left - reads l₀ := by
  induction l₀ with
  | nil => exact ⟨h, rfl⟩
  | cons a l₀ ih =>
      obtain ⟨hover, hleft⟩ := ih
      obtain ⟨hover', hleft'⟩ := (wired w o (l₀ ++ l)).left_step hover a
      refine ⟨hover', ?_⟩
      show ((Line.after w o (l₀ ++ l)).step a).left = _
      rw [hleft', hleft, reads_cons a l₀, Nat.sub_sub]

/-- What the last event of a stream says. -/
structure Tells (result : Ending) (e : StreamEvent) : Prop where
  name : e.name = match result with
    | .ok _ => "allocated"
    | .error _ => "error"
  code : ∀ x, result = .error x →
    e.data.get? "code" = some (.string x.code)

theorem final_tells (m : String) (result : Ending) :
    Tells result (.final m result) := by
  cases result with
  | ok outcome => exact ⟨rfl, fun _ h => by cases h⟩
  | error x => exact ⟨rfl, fun _ h => by cases h; rfl⟩

/-- What a client that stays gets to read of a wait stream. -/
structure Streamed (w : World) (o : StreamOpening) (l : List Act) :
    Prop where
  /-- So far: a front part of the keep-alives that were sent and, once
  the call has returned, the last event. -/
  front : (Line.after w o l).received
    <+: List.replicate (Line.after w o l).sent .keepalive
      ++ ((Line.after w o l).returned.map (.final o.call.machine)).toList
  /-- When it has come to the end: all of them, and the last event tells
  how the call ended. -/
  whole : (Line.after w o l).ended = true →
    ∃ result e, (Line.after w o l).returned = some result
      ∧ (Line.after w o l).received
        = List.replicate (Line.after w o l).sent .keepalive ++ [e]
      ∧ e = .final o.call.machine result ∧ Tells result e
  /-- And it comes to the end, once the call has returned: if it reads
  on, the task has a turn, and it reads what was kept for it. -/
  ends : (Line.after w o l).returned.isSome = true →
    ∀ l₁ l₂, 1 ≤ reads l₁ → streamBuffer + 1 ≤ reads l₂ →
      (Line.after w o (l₂ ++ .turn :: (l₁ ++ l))).ended = true

/-- A wait stream is keep-alives, one last event, and the end. -/
theorem wait_stream (w : World) (o : StreamOpening) (l : List Act) :
    Streamed w o l := by
  have hwired := wired w o l
  refine ⟨?_, ?_, ?_⟩
  · have hfront : (Line.after w o l).received <+: (Line.after w o l).row :=
      List.prefix_append _ _
    cases hwired.stands with
    | calling h₁ h₂ h₃ h₄ h₅ hret hopen hrow =>
        rw [hrow] at hfront
        exact hfront.trans (List.prefix_append _ _)
    | closing h₁ hret hopen hrow =>
        rw [hrow] at hfront
        exact hfront.trans (List.prefix_append _ _)
    | finished h₁ hret hover hrow =>
        rw [hrow] at hfront
        rw [hret]
        exact hfront
  · intro hended
    obtain ⟨hfin, hempty⟩ := hwired.seen hended
    cases hwired.stands with
    | calling h₁ h₂ h₃ h₄ h₅ hret hopen hrow => cases hopen.symm.trans hfin
    | closing h₁ hret hopen hrow => cases hopen.symm.trans hfin
    | @finished result a h₁ hret hover hrow =>
        unfold Line.row at hrow
        rw [hempty, List.append_nil] at hrow
        exact ⟨result, _, hret, hrow, rfl, final_tells _ result⟩
  · intro hret l₁ l₂ h₁ h₂
    have hroom := roomy_after l₁ hret h₁
    have hret₁ : (Line.after w o (l₁ ++ l)).returned.isSome = true := by
      rw [after_returned l₁ hret]
      exact hret
    have hsent : ∃ a, (Line.after w o (.turn :: (l₁ ++ l))).job = .over a :=
      (wired w o (l₁ ++ l)).turn_sends hret₁ hroom
    have hleft := (left_after l₂ hsent).2
    have hshort := (wired w o (.turn :: (l₁ ++ l))).short
    have hbound : (Line.after w o (.turn :: (l₁ ++ l))).left
        ≤ streamBuffer + 1 := by
      unfold Line.left
      split <;> omega
    have hzero : (Line.after w o (l₂ ++ .turn :: (l₁ ++ l))).left = 0 := by
      omega
    unfold Line.left at hzero
    split at hzero
    · assumption
    · cases hzero

/-- A replica with one machine, which is not allocated. -/
def idleWorld : World where
  ambient := { clock := ⟨0, 0⟩ }
  build := { commit := "", commitTime := "", branch := "", built := "",
             compiler := "", target := "" }
  store := (({} : MemoryStore).put (.fresh "m" ⟨0, 0⟩)).2
  replicas := [{ node := "n", shutdown := 0, subscription := "s",
                 ownSubscription := "o" }]
  tokens := [{}]

/-- A request to wait for the machine. -/
def patient : StreamOpening where
  replica := 0
  call := { machine := "m", node := "n", retry := {},
            settings := ⟨.ofMillis 5, .ofSecs 60⟩ }
  deadline := none

/-- Time passes, in milliseconds. -/
def passing (ms : Nat) : Act :=
  .elsewhere fun w => { w with time := w.time + ms }

/-- The client reads nothing: eight keep-alives fill the stream, and the
ninth is given up after ten seconds. -/
def stalled : List Act :=
  [.turn, .turn, .turn, .turn, passing 10000, .turn, .turn, passing 5]
    ++ (List.replicate 8 [.turn, .turn, passing 5]).flatten
    ++ [.turn, .turn, .turn, .turn]

/-- Then it reads all the same, and comes to the end. -/
theorem wait_stream_stalled :
    (Line.after idleWorld patient stalled).returned
        = some (.error Http.stalledError)
      ∧ (Line.after idleWorld patient
        (List.replicate 9 .read ++ .turn :: ([.read] ++ stalled))).ended
          = true :=
  have hret : (Line.after idleWorld patient stalled).returned
      = some (.error Http.stalledError) := by rfl
  ⟨hret, (wait_stream idleWorld patient stalled).ends (by rw [hret]; rfl)
    [.read] (List.replicate 9 .read) (by decide) (by decide)⟩

end Promise

end ControlPlane.Simulation
