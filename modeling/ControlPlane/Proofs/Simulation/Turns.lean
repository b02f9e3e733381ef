/-
What a turn of a running call leaves alone. The scheduler asks the
backends, races other writers, publishes, holds calls up and lets them
rest, and nothing of it reaches a wait stream: only a keep-alive that is
sent into one does (`takeTurn_calm`). And whatever the world answers, the
work of a call stays of its kind (`Demand.Gives`).

Chain: over the scheduler; consumed by WaitStream.lean.
-/
import ControlPlane.Simulation.Scheduler

namespace ControlPlane

-- =========================================================== the answers

namespace Demand

variable {κ ι ρ τ : Type}

/-- Whatever the world answers, the call becomes one of a kind. -/
def Gives (P : κ → Prop) : Demand κ ρ → Prop
  | proceed k => ∀ l, P (k l).1
  | find _ k => ∀ a l, P (k a l).1
  | create _ k => ∀ a l, P (k a l).1
  | update _ _ k => ∀ a l, P (k a l).1
  | ping k => ∀ a l, P (k a l).1
  | append _ _ k => ∀ a l, P (k a l).1
  | list _ k => ∀ a l, P (k a l).1
  | publish _ _ k => ∀ a l, P (k a l).1
  | pause _ k => ∀ l, P (k l).1
  | send k => ∀ a l, P (k a l).1
  | select _ _ cancelled woken ticked =>
      (∀ l, P (cancelled l).1) ∧ (∀ a r n l, P (woken a r n l).1)
        ∧ ∀ n l, P (ticked n l).1
  | finished _ => True

theorem gives_embed {P : ι → Prop} {wrap : κ → ι} {finish : ρ → Move ι}
    (hw : ∀ c, P (wrap c)) (hf : ∀ r l, P (finish r l).1)
    (d : Demand κ ρ) : (d.embed wrap finish : Demand ι τ).Gives P := by
  cases d with
  | finished r => exact hf r
  | select => exact ⟨fun _ => hw _, fun _ _ _ _ => hw _, fun _ _ => hw _⟩
  | proceed => exact fun _ => hw _
  | pause => exact fun _ => hw _
  | _ => exact fun _ _ => hw _

end Demand

namespace Simulation.World

variable {w w' : World} {i : Nat} {r : Running} {P : Work → Prop}

-- ========================================================== the backends

theorem race_channels (w : World) (id : String) (patch : Json) :
    (w.race id patch).channels = w.channels := by
  unfold race
  cases w.store.find id with
  | ok v =>
      simp only
      split <;> rfl
  | error e =>
      simp only
      split <;> rfl

theorem misbehave_channels (w : World) (method : Method) (id : String)
    (m : Misbehaviour) :
    (w.misbehave method id m).2.channels = w.channels := by
  unfold misbehave
  split
  · rfl
  · split
    · exact race_channels w id _
    · rfl

theorem publish_channels (w : World) (topic : String) (payload : Json)
    (m : Option Misbehaviour) :
    (w.publish topic payload m).2.channels = w.channels := by
  unfold publish
  extract_lets once
  have honce : ∀ w, (once w).2.channels = w.channels := by
    intro w
    simp only [once]
    cases w.backing <;> rfl
  cases m.bind Misbehaviour.bus with
  | none => exact honce w
  | some f =>
      cases f with
      | drop => rfl
      | fail => rfl
      | duplicate =>
          have hfirst := honce w
          simp only
          generalize once w = first at hfirst ⊢
          obtain ⟨a, w₁⟩ := first
          cases a with
          | ok u => exact (honce w₁).trans hfirst
          | error e => exact hfirst

theorem answer_channels {α : Type} (failed : Option StoreError)
    {memory : World → Except StoreError α × World}
    (hm : (memory w).2.channels = w.channels)
    (etcd : Cluster → Ambient → Except StoreError α × Cluster × Ambient) :
    (w.answer failed memory etcd).2.channels = w.channels := by
  unfold answer
  cases failed with
  | some e => rfl
  | none =>
      cases w.backing with
      | memory => exact hm
      | etcd => rfl

/-- What happens before a backend is asked: a fault has its way. -/
def hampered (w : World) (m : Option Misbehaviour)
    (d : Demand Work Answer) : Option StoreError × World :=
  match m, backendCall d with
  | some m, some (method, id) => w.misbehave method id m
  | _, _ => (none, w)

theorem hampered_channels (w : World) (m : Option Misbehaviour)
    (d : Demand Work Answer) :
    (w.hampered m d).2.channels = w.channels := by
  unfold hampered
  split
  · exact misbehave_channels w _ _ _
  · rfl

/-- The step that follows on the answer of the backends. -/
theorem answered_calm {α : Type} {w₁ : World}
    {failed : Option StoreError} {x : Work}
    {memory : World → Except StoreError α × World}
    {etcd : Cluster → Ambient → Except StoreError α × Cluster × Ambient}
    {k : Except StoreError α → Move Work}
    (h : some ((w₁.answer failed memory etcd).2.move i
      (k (w₁.answer failed memory etcd).1)) = some (x, w'))
    (hk : ∀ a l, P (k a l).1) (hw : w₁.channels = w.channels)
    (hm : (memory w₁).2.channels = w₁.channels) :
    P x ∧ w'.channels = w.channels := by
  have ha := answer_channels failed hm etcd
  generalize w₁.answer failed memory etcd = found at h ha
  cases h
  exact ⟨hk _ _, ha.trans hw⟩

theorem ask_calm {m : Option Misbehaviour} {d : Demand Work Answer}
    {x : Work} (h : w.ask i m d = some (x, w')) (hd : d.Gives P) :
    P x ∧ w'.channels = w.channels := by
  unfold ask at h
  split at h
  rename_i failed w₁ heq
  have hp : w₁.channels = w.channels :=
    (congrArg (fun p => p.2.channels) heq).symm.trans
      (hampered_channels w m d)
  cases d with
  | find id k =>
      dsimp only at h
      exact answered_calm h hd hp rfl
  | create record k =>
      dsimp only at h
      exact answered_calm h hd hp rfl
  | update old next k =>
      dsimp only at h
      exact answered_calm h hd hp rfl
  | ping k =>
      dsimp only at h
      exact answered_calm h hd hp rfl
  | append id e k =>
      dsimp only at h
      exact answered_calm h hd hp rfl
  | list id k =>
      dsimp only at h
      exact answered_calm h hd hp rfl
  | publish topic payload k =>
      have hpub := publish_channels w₁ topic payload m
      simp only at h
      generalize w₁.publish topic payload m = found at h hpub
      cases h
      exact ⟨hd _ _, hpub.trans hp⟩
  | _ => cases h

-- ============================================================= the turns

/-- A turn that leaves all streams alone, and the work of its kind. -/
inductive Calm (P : Work → Prop) (w : World) (r : Running) : Turn → Prop
  | moved {x : Work} {w' : World} (hx : P x)
      (hw : w'.channels = w.channels) :
      Calm P w r (.moved { r with work := x, phase := .idle } w')
  | waiting {p : Phase} {w' : World} {on : List Condition}
      (hw : w'.channels = w.channels) :
      Calm P w r (.waiting { r with phase := p } w' on)

theorem calm_move {k : Move Work} (hk : ∀ l, P (k l).1) :
    Calm P w r (.next r (w.move i k)) :=
  .moved (hk _) rfl

/-- However a request came through, its answer is a calm step. -/
theorem asked_calm {m : Option Misbehaviour} {d : Demand Work Answer}
    {w₁ : World} {found : Work × World}
    (ha : w₁.ask r.replica m d = some found) (hd : d.Gives P)
    (hw : w₁.channels = w.channels) : Calm P w r (.next r found) := by
  obtain ⟨x, w₂⟩ := found
  obtain ⟨hx, hw₂⟩ := ask_calm ha hd
  exact .moved hx (hw₂.trans hw)

theorem callBackend_calm (method : Method) {d : Demand Work Answer}
    (hd : d.Gives P) : Calm P w r (w.callBackend r method d) := by
  unfold callBackend
  dsimp only
  split
  · -- the request was held: it is asked when its time has come
    split
    · split
      · next ha => exact asked_calm ha hd rfl
      · exact .waiting rfl
    · exact .waiting rfl
  · -- a request not yet made: a fault may hold it
    split
    · split
      · split
        · next ha => exact asked_calm ha hd rfl
        · exact .waiting rfl
      · exact .waiting rfl
    · split
      · next ha => exact asked_calm ha hd rfl
      · exact .waiting rfl

theorem select_calm {listen : Option Registration} {tick : Moment}
    {cancelled : Move Work}
    {woken : Wake → Registration → Moment → Move Work}
    {ticked : Moment → Move Work} (hc : ∀ l, P (cancelled l).1)
    (hw : ∀ a r n l, P (woken a r n l).1) (ht : ∀ n l, P (ticked n l).1) :
    Calm P w r (w.select r listen tick cancelled woken ticked) := by
  unfold select
  split
  · exact calm_move hc
  · split
    · exact calm_move (hw _ _ _)
    · split
      · exact calm_move (ht _)
      · exact .waiting rfl

/-- A turn that sends nothing and does not end the call is calm. -/
theorem takeTurn_calm (hd : (r.work.demand w.moment).Gives P)
    (hsend : ∀ k, r.work.demand w.moment ≠ .send k)
    (hend : ∀ a, r.work.demand w.moment ≠ .finished a) :
    Calm P w r (w.takeTurn r) := by
  unfold takeTurn
  generalize r.work.demand w.moment = d at hd hsend hend
  cases d with
  | proceed k => exact calm_move hd
  | send k => exact absurd rfl (hsend k)
  | finished a => exact absurd rfl (hend a)
  | select => exact select_calm hd.1 hd.2.1 hd.2.2
  | pause d k =>
      dsimp only
      split
      · split
        · exact calm_move hd
        · exact .waiting rfl
      · split
        · exact calm_move hd
        · exact .waiting rfl
  | _ => exact callBackend_calm _ hd

/-- A turn leaves what becomes of the answer alone. -/
inductive Shaped (r : Running) : Turn → Prop
  | moved {x : Work} {p : Phase} {w : World} :
      Shaped r (.moved { r with work := x, phase := p } w)
  | waiting {p : Phase} {w : World} {on : List Condition} :
      Shaped r (.waiting { r with phase := p } w on)
  | finished {a : Answer} {w : World} : Shaped r (.finished a w)

theorem Calm.shaped {P : Work → Prop} {t : Turn}
    (h : Calm P w r t) : Shaped r t := by
  cases h with
  | moved => exact .moved
  | waiting => exact .waiting

theorem sendKeepalive_shaped (w : World) (r : Running)
    (k : Except WaitError Unit → Move Work) :
    Shaped r (w.sendKeepalive r k) := by
  unfold sendKeepalive
  split
  · exact .moved
  · -- the counter goes on at once or after its delay
    dsimp only
    split
    · split
      · split <;> exact .moved
      · exact .waiting
    · split
      · split <;> exact .moved
      · exact .waiting
  · split
    · exact .moved
    · exact .moved
    · split
      · split
        · exact .moved
        · exact .waiting
      · exact .waiting

theorem takeTurn_shaped (w : World) (r : Running) :
    Shaped r (w.takeTurn r) := by
  by_cases hsend : ∃ k, r.work.demand w.moment = .send k
  · obtain ⟨k, hk⟩ := hsend
    unfold takeTurn
    rw [hk]
    exact sendKeepalive_shaped w r k
  · by_cases hend : ∃ a, r.work.demand w.moment = .finished a
    · obtain ⟨a, ha⟩ := hend
      unfold takeTurn
      rw [ha]
      exact .finished
    · have hgives : (r.work.demand w.moment).Gives fun _ => True := by
        cases r.work.demand w.moment <;> simp [Demand.Gives]
      exact Calm.shaped (takeTurn_calm hgives
        (fun k hk => hsend ⟨k, hk⟩) (fun a ha => hend ⟨a, ha⟩))

/-- Giving a call up at its deadline leaves what becomes of its answer
alone. -/
theorem expire_kept (w : World) (r : Running) :
    (w.expire r).1.respond = r.respond ∧ (w.expire r).1.finish = r.finish
      ∧ (w.expire r).1.sink = r.sink := by
  unfold expire
  dsimp only
  split <;> exact ⟨rfl, rfl, rfl⟩

end Simulation.World

end ControlPlane
