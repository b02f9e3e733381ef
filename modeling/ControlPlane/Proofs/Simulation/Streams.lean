/-
The task behind a wait stream. It takes a turn of its call at a time and,
once the call has returned, tries to send the last event; each poll of
the scheduler is a row of such steps (`poll_goes`). Of all of them only
two reach the stream: the one in which the call goes from sending a
keep-alive back to being blocked, which appends the keep-alive, and the
one that finds room for the last event (`Went`).

Chain: over Turns.lean; consumed by WaitStream.lean.
-/
import ControlPlane.Proofs.Simulation.Turns
import Mathlib.Logic.Relation

namespace ControlPlane.Simulation.World

open Http (StreamEvent streamBuffer)

variable {w w' : World} {r r' : Running} {m : String}
  {i : Nat}

-- ================================================ the task behind a stream

/-- What a poll makes of a task. -/
def Poll.outcome : Poll → Job × World
  | .waiting j w _ => (j, w)
  | .over a w => (.over a, w)

/-- A step of the task behind a stream: a turn of its call, or an attempt
to send the last event. -/
def goOn (w : World) : Job → Job × World
  | .call r =>
      match w.takeTurn r with
      | .moved r w => (.call r, w)
      | .finished a w =>
          ((w.respond r a).2.conclude r.finish (w.respond r a).1).outcome
      | .waiting r w _ =>
          match r.deadline with
          | some time =>
              if time ≤ w.time then (.call (w.expire r).1, (w.expire r).2)
              else (.call r, w)
          | none => (.call r, w)
  | .last i e => (poll.sendLast w i e).outcome
  | j => (j, w)

/-- A row of such steps. -/
def Goes (p q : Job × World) : Prop :=
  Relation.ReflTransGen (fun p q => q = p.2.goOn p.1) p q

/-- What a turn of a task's call makes of the task, if nothing comes
behind it. -/
def Turn.outcome (r : Running) : Turn → Job × World
  | .moved r w => (.call r, w)
  | .waiting r w _ => (.call r, w)
  | .finished a w =>
      ((w.respond r a).2.conclude r.finish (w.respond r a).1).outcome

theorem outcome_congr (hresp : r'.respond = r.respond)
    (hfin : r'.finish = r.finish) (t : Turn) :
    t.outcome r' = t.outcome r := by
  cases t with
  | finished a w =>
      unfold Turn.outcome respond
      rw [hresp, hfin]
  | moved => rfl
  | waiting => rfl

/-- A call that runs until it has to wait takes such steps. -/
theorem runCall_goes (fuel : Nat) (w : World) (r : Running) :
    Goes (.call r, w) ((runCall fuel w r).outcome r) := by
  induction fuel generalizing w r with
  | zero => exact .refl
  | succ fuel ih =>
      -- a step, and the rest of the run
      have hon : ∀ {r₁ w₁}, w.goOn (.call r) = (.call r₁, w₁) →
          r₁.respond = r.respond → r₁.finish = r.finish →
          Goes (.call r, w) ((runCall fuel w₁ r₁).outcome r) := by
        intro r₁ w₁ hstep hresp hfin
        have hrest := ih w₁ r₁
        rw [outcome_congr hresp hfin] at hrest
        exact .head hstep.symm hrest
      have hshape := takeTurn_shaped w r
      unfold runCall
      cases ht : w.takeTurn r with
      | finished a w₁ =>
          apply Relation.ReflTransGen.single
          simp only [goOn, ht, Turn.outcome]
      | moved r₁ w₁ =>
          rw [ht] at hshape
          cases hshape
          exact hon (by simp only [goOn, ht]) rfl rfl
      | waiting r₁ w₁ on =>
          rw [ht] at hshape
          cases hshape with
          | @waiting p =>
          have hstop : w.goOn (.call r)
                = (.call { r with phase := p }, w₁) →
              Goes (.call r, w) (.call { r with phase := p }, w₁) :=
            fun h => .single h.symm
          dsimp only
          split
          · rename_i time hd
            replace hd : r.deadline = some time := hd
            by_cases htime : time ≤ w₁.time
            · have hkept := expire_kept w₁ { r with phase := p }
              rw [if_pos htime]
              exact hon (by simp only [goOn, ht, hd, if_pos htime])
                hkept.1 hkept.2.1
            · rw [if_neg htime]
              exact hstop (by simp only [goOn, ht, hd, if_neg htime])
          · rename_i hd
            replace hd : r.deadline = none := hd
            exact hstop (by simp only [goOn, ht, hd])

/-- Each poll of the scheduler is a row of such steps. -/
theorem poll_goes (w : World) (r : Running) :
    Goes (.call r, w) (w.poll (.call r)).outcome := by
  have hrun := runCall_goes taskFuel w r
  have hcall : (w.pollCall r).outcome
      = (runCall taskFuel w r).outcome r := by
    unfold pollCall
    cases runCall taskFuel w r <;> rfl
  rw [← hcall] at hrun
  unfold poll
  dsimp only
  split
  · rename_i i e w₁ on hp
    -- the call has returned, and its last event is sent at once
    rw [hp] at hrun
    exact hrun.tail rfl
  · exact hrun

end ControlPlane.Simulation.World

namespace ControlPlane.Simulation

open Http (StreamEvent streamBuffer)

variable {w w' : World} {r r' : Running} {j j' : Job} {m : String}
  {i : Nat}

-- ========================================================= what is counted

/-- How a wait call ends. -/
abbrev Ending := Except WaitError Wait.Outcome

/-- Where the wait call of a task stands. -/
def Job.stage? : Job → Option Wait.Stage
  | .call r =>
      match r.work with
      | .wait c => some c.stage
      | _ => none
  | _ => none

/-- Has a keep-alive that was being sent been sent? -/
def Job.kept (before after : Job) : Bool :=
  match before.stage?, after.stage? with
  | some (.sending _), some (.blocked _) => true
  | _, _ => false

/-- What the call of a task returns in its next turn, if it does. -/
def World.returning (w : World) : Job → Option Ending
  | .call r =>
      match w.takeTurn r with
      | .finished (.waited result) _ => some result
      | _ => none
  | _ => none

theorem kept_of_not_sending (h : ∀ b, j.stage? ≠ some (.sending b)) :
    j.kept j' = false := by
  unfold Job.kept
  split
  · rename_i b _ hb _
    exact absurd hb (h b)
  · rfl

theorem kept_of_not_blocked (h : ∀ b, j'.stage? ≠ some (.blocked b)) :
    j.kept j' = false := by
  unfold Job.kept
  split
  · rename_i _ b _ hb
    exact absurd hb (h b)
  · rfl

theorem kept_same (h : j'.stage? = j.stage?) : j.kept j' = false := by
  unfold Job.kept
  rw [h]
  split
  · rename_i hs hb
    cases hs.symm.trans hb
  · rfl

-- ==================================================== a turn of the call

/-- The work of a wait request: its call, or what the call has
returned. -/
def Waits (x : Work) : Prop :=
  (∃ c, x = .wait c) ∨ ∃ result, x = .done (.waited result)

theorem waits_gives (c : Wait.Call) (now : Moment) :
    ((Work.wait c).demand now).Gives Waits := by
  show ((c.demand now).embed Work.wait (Work.finish .waited)).Gives _
  apply Demand.gives_embed
  · exact fun c => Or.inl ⟨c, rfl⟩
  · exact fun result _ => Or.inr ⟨result, rfl⟩

theorem embed_not_finished {κ ι ρ τ : Type} (wrap : κ → ι)
    (finish : ρ → Move ι) (d : Demand κ ρ) (a : τ) :
    d.embed wrap finish ≠ .finished a := by
  cases d <;> nofun

/-- Only a call that is sending a keep-alive wants to send. -/
theorem sending_of_send {c : Wait.Call} {now : Moment}
    {k : Except WaitError Unit → Move Work}
    (h : (Work.wait c).demand now = .send k) :
    ∃ b, c.stage = .sending b := by
  change (c.demand now).embed Work.wait (Work.finish .waited) = _ at h
  unfold Wait.Call.demand at h
  cases hs : c.stage with
  | sending b => exact ⟨b, rfl⟩
  | clearing p x =>
      rw [hs] at h
      cases x <;> cases h
  | _ =>
      rw [hs] at h
      cases h

/-- What a step makes of the task of a wait request, whose stream is
`i`. -/
inductive Went (i : Nat) (m : String) (w : World) (r : Running) :
    Job × World → Prop
  /-- The call goes on, and nothing of it reaches the stream. -/
  | calm {r' : Running} {w' : World} (hsink : r'.sink = r.sink)
      (hfin : r'.finish = r.finish) (hresp : r'.respond = r.respond)
      (hx : Waits r'.work) (hw : w'.channels = w.channels)
      (hk : (Job.call r).kept (.call r') = false)
      (hret : w.returning (.call r) = none) :
      Went i m w r (.call r', w')
  /-- A keep-alive was sent. -/
  | sent {r' : Running} {w' : World} (hsink : r'.sink = r.sink)
      (hfin : r'.finish = r.finish) (hresp : r'.respond = r.respond)
      (hx : Waits r'.work)
      (hroom : (w.channel i).buffer.length < streamBuffer)
      (hw : w'.channels = w.channels.set i
        { w.channel i with
          buffer := (w.channel i).buffer ++ [.keepalive] })
      (hk : (Job.call r).kept (.call r') = true)
      (hret : w.returning (.call r) = none) :
      Went i m w r (.call r', w')
  /-- The call has returned; its last event is to be sent. -/
  | returned {result : Ending}
      (hret : w.returning (.call r) = some result) :
      Went i m w r (.last i (.final m result), w)


section Turns

theorem send_room {c : Http.Channel} (hlive : c.dropped = false)
    (hroom : c.buffer.length < streamBuffer) (e : StreamEvent) :
    c.send e = .queued { c with buffer := c.buffer ++ [e] } := by
  unfold Http.Channel.send
  rw [if_neg (by rw [hlive]; exact Bool.false_ne_true), if_pos hroom]

theorem send_full {c : Http.Channel} (hlive : c.dropped = false)
    (hroom : ¬ c.buffer.length < streamBuffer) (e : StreamEvent) :
    c.send e = .full := by
  unfold Http.Channel.send
  rw [if_neg (by rw [hlive]; exact Bool.false_ne_true), if_neg hroom]

variable {c : Wait.Call} {b : Wait.Block}

/-- A call that is given up closes. -/
theorem expire_wait (hc : r.work = .wait c) :
    (w.expire r).1.work
        = .wait (c.close (.error (.cancelled .deadlineExceeded)))
      ∧ (w.expire r).2.channels = w.channels := by
  unfold World.expire
  dsimp only
  rw [hc]
  exact ⟨rfl, rfl⟩

/-- A call that has to wait stays where it is, or is given up. -/
theorem went_waiting (hc : r.work = .wait c) {p : Phase}
    {on : List Condition}
    (ht : w.takeTurn r = .waiting { r with phase := p } w' on)
    (hw : w'.channels = w.channels) :
    Went i m w r (w.goOn (.call r)) := by
  have hret : w.returning (.call r) = none := by
    simp only [World.returning, ht]
  have hstay : Went i m w r (.call { r with phase := p }, w') :=
    .calm rfl rfl rfl (Or.inl ⟨c, hc⟩) hw (kept_same rfl) hret
  simp only [World.goOn, ht]
  split
  · split
    · -- the deadline has passed
      have hexp : _ ∧ (w'.expire { r with phase := p }).2.channels = _ :=
        expire_wait hc
      obtain ⟨hwork, hchan⟩ := hexp
      obtain ⟨hresp, hfin, hsink⟩ :=
        World.expire_kept w' { r with phase := p }
      refine .calm hsink hfin hresp (Or.inl ⟨_, hwork⟩) (hchan.trans hw)
        (kept_of_not_blocked ?_) hret
      intro b hb
      simp only [Job.stage?, hwork] at hb
      cases hb
    · exact hstay
  · exact hstay

/-- A call that goes on without a stream's having part in it. -/
theorem went_moved {x : Work} (hx : Waits x)
    (ht : w.takeTurn r = .moved { r with work := x, phase := .idle } w')
    (hw : w'.channels = w.channels)
    (hk : (Job.call r).kept
      (.call { r with work := x, phase := .idle }) = false) :
    Went i m w r (w.goOn (.call r)) := by
  have hret : w.returning (.call r) = none := by
    simp only [World.returning, ht]
  simp only [World.goOn, ht]
  exact .calm rfl rfl rfl hx hw hk hret

theorem went_sending (hc : r.work = .wait c) (hs : c.stage = .sending b)
    (hsink : r.sink = .stream i)
    (hlive : (w.channel i).dropped = false) :
    Went i m w r (w.goOn (.call r)) := by
  have hturn : w.takeTurn r = w.sendKeepalive r
      (fun a => Demand.wrapMove .wait (c.sent b a)) := by
    unfold World.takeTurn
    rw [hc]
    simp only [Work.demand, Wait.Call.demand, hs, Demand.embed]
  unfold World.sendKeepalive at hturn
  by_cases hroom : (w.channel i).buffer.length < streamBuffer
  · have ht := hturn
    simp only [hsink, send_room hlive hroom] at ht
    have hret : w.returning (.call r) = none := by
      simp only [World.returning, ht, World.Turn.next]
    simp only [World.goOn, ht, World.Turn.next]
    refine .sent rfl rfl rfl (Or.inl ⟨_, rfl⟩) hroom rfl ?_ hret
    simp only [Job.kept, Job.stage?, hc, hs]
    rfl
  · split at hturn
    · rename_i hnone
      cases hnone.symm.trans hsink
    · rename_i hcounter
      cases hcounter.symm.trans hsink
    · rename_i j hj
      cases hj.symm.trans hsink
      rw [send_full hlive hroom] at hturn
      dsimp only at hturn
      split at hturn
      · split at hturn
        · -- there was no room for too long: the call gives up
          refine went_moved (Or.inl ⟨_, rfl⟩) hturn rfl
            (kept_of_not_blocked ?_)
          intro b' hb'
          cases hb'
        · exact went_waiting hc hturn rfl
      · exact went_waiting hc hturn rfl

theorem went (hsink : r.sink = .stream i) (hfin : r.finish = .stream i m)
    (hresp : r.respond = none) (hx : Waits r.work)
    (hlive : (w.channel i).dropped = false) :
    Went i m w r (w.goOn (.call r)) := by
  rcases hx with ⟨c, hc⟩ | ⟨result, hdone⟩
  · by_cases hs : ∃ b, c.stage = .sending b
    · obtain ⟨b, hs⟩ := hs
      exact went_sending hc hs hsink hlive
    · have hcalm : World.Calm Waits w r (w.takeTurn r) := by
        apply World.takeTurn_calm
        · rw [hc]
          exact waits_gives c _
        · intro k hk
          rw [hc] at hk
          exact hs (sending_of_send hk)
        · intro a ha
          rw [hc] at ha
          exact embed_not_finished _ _ _ a ha
      generalize ht : w.takeTurn r = t at hcalm
      cases hcalm with
      | waiting hw => exact went_waiting hc ht hw
      | moved hx hw =>
          refine went_moved hx ht hw (kept_of_not_sending ?_)
          intro b hb
          simp only [Job.stage?, hc] at hb
          exact hs ⟨b, Option.some.inj hb⟩
  · -- the call has returned
    have ht : w.takeTurn r = .finished (.waited result) w := by
      unfold World.takeTurn
      rw [hdone]
      rfl
    have hgo : w.goOn (.call r) = (.last i (.final m result), w) := by
      simp only [World.goOn, ht, World.respond, hresp, World.conclude,
        hfin, World.Poll.outcome]
    rw [hgo]
    exact .returned (by simp only [World.returning, ht])

end Turns

end ControlPlane.Simulation
