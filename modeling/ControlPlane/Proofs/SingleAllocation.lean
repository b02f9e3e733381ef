/-
A machine is allocated once. However many calls try to allocate it, on
whatever replicas and through whatever outages of the store, one of them
at most succeeds (`allocated_once`): its terms stand from then on, all
others are answered with an error and leave no trace, and the machine is
announced once and entered into its history once.

# The ledger

For every machine the state of a fleet is in one of two conditions
(`Ledger`): nobody has allocated the machine, or exactly one call has
made its write, the winner, and what was announced and entered is what
the winner has got to. An allocation is made of a version without one
(`Follows.allocated`), and what is stored keeps its terms, so the ledger
is opened once and never closed.

Chain: over Linearizability.lean for what a call obtained, and Ends.lean
for its answer.
-/
import ControlPlane.Proofs.Fleet.Ends
import ControlPlane.Proofs.Linearizability

namespace ControlPlane.Fleet

variable {s : Setting} {f g : Fleet} {e : Event} {h p : History}
  {i j r : Nat} {ch : Choice} {t : Task} {m : String} {v : Versioned}
  {c c' : Lifecycle.Call} {req req' : AllocateRequest}

-- ============================================================= the winner

/-- Call `i` has written the allocation of `m`, and goes on to announce
it, to enter it, or to answer. -/
structure Won (f : Fleet) (i : Nat) (m : String) (c : Lifecycle.Call)
    (req : AllocateRequest) : Prop where
  slot : ∃ r d, f.slots[i]? = some ⟨r, .lifecycle c, d⟩
  machine : c.machine = m
  operation : c.operation = .allocate req
  result : (result? c).isSome = true

/-- How often the allocation of `m` was announced. -/
def told (f : Fleet) (m : String) : Nat :=
  f.posted.countP fun x =>
    decide (x.1 = f.topic) && decide (told? x.2 = some m)

/-- How often the allocation of `m` was entered into its history. -/
def entered (f : Fleet) (m : String) : Nat :=
  (f.events.list m).countP fun e => decide (e.kind = .allocated)

/-- How often a winner can have announced the allocation, -/
def mayTell (c : Lifecycle.Call) : Nat :=
  match c.stage with
  | .publishing _ => 0
  | _ => 1

/-- and how often it can have entered it. -/
def mayEnter (c : Lifecycle.Call) : Nat :=
  match c.stage with
  | .finished _ => 1
  | _ => 0

/-- The two conditions that a machine can be in. -/
inductive Ledger (f : Fleet) (m : String) : Prop
  /-- Nobody has allocated the machine. -/
  | free (hfree : ¬ f.Allocated m)
      (hnone : ∀ i c req, ¬ f.Won i m c req)
      (htold : f.told m = 0) (hentered : f.entered m = 0)
  /-- One call has. -/
  | won {i : Nat} {c : Lifecycle.Call} {req : AllocateRequest}
      (hwon : f.Won i m c req)
      (honly : ∀ j c' req', f.Won j m c' req' → j = i)
      (hterms : (f.stored m).bind (fun v => v.record.terms?)
        = some req.terms)
      (htold : f.told m ≤ mayTell c)
      (hentered : f.entered m ≤ mayEnter c)

-- ================================================= what a call announces

/-- What the stage of a call says about its operation. -/
structure Proper (topic : String) (c : Lifecycle.Call) : Prop where
  topic : c.topic = topic
  publishing : ∀ x, c.stage = .publishing x →
    ∃ req, c.operation = .allocate req
  recording : ∀ x event, c.stage = .recording x event →
    ∃ created words, c.operation.entry created = some (event.kind, words)

theorem Settles.proper {x : MachineRecord} {created : Bool}
    (h : Settles c x created c') {topic : String}
    (ht : c.topic = topic) : Proper topic c' := by
  rcases h with ⟨-, rfl⟩ | ⟨kind, words, now, he, rfl⟩
  · exact ⟨ht, (fun _ h => by cases h), (fun _ _ h => by cases h)⟩
  · refine ⟨ht, (fun _ h => by cases h), ?_⟩
    intro y event hy
    cases hy
    exact ⟨created, words, he⟩

theorem FailedWith.proper {x : StoreError} (h : FailedWith c x c')
    {topic : String} (ht : c.topic = topic) : Proper topic c' := by
  rcases h with ⟨rfl, -⟩ | ⟨-, -, d, p, -, rfl⟩
  · exact ⟨ht, (fun _ h => by cases h), (fun _ _ h => by cases h)⟩
  · exact ⟨ht, (fun _ h => by cases h), (fun _ _ h => by cases h)⟩

theorem LifecycleStep.proper (h : LifecycleStep f c ch c' g)
    {topic : String} (ht : c.topic = topic) : Proper topic c' := by
  cases h with
  | kept hs hv hx hc => exact hc.proper ht
  | unread hs he hc => exact hc.proper ht
  | unwritten hw he hc => exact hc.proper ht
  | lost hw hc => exact hc.proper ht
  | published hs hch hc => exact hc.proper ht
  | wrote hw hon hfit hc =>
      rcases hc with ⟨req, hop, rfl⟩ | ⟨-, hc⟩
      · exact ⟨ht, fun _ _ => ⟨req, hop⟩, (fun _ _ h => by cases h)⟩
      · exact hc.proper ht
  | _ => exact ⟨ht, (fun _ h => by cases h), (fun _ _ h => by cases h)⟩

/-- Calls publish allocations only, on the allocation topic, and enter
what their operation leaves. -/
theorem proper {d : Bool}
    (hi : (after s h).slots[i]? = some ⟨r, .lifecycle c, d⟩) :
    Proper s.topic c := by
  have hall := slot_induction (s := s)
    (P := fun _ _ t => ∀ c, t = .lifecycle c → Proper s.topic c)
    (fun _ _ _ _ ih => ih) ?_ ?_ ?_ ?_ h i _ hi
  · exact hall c rfl
  · intro i r retry m op h c hc
    cases hc
    exact ⟨rfl, (fun _ h => by cases h), (fun _ _ h => by cases h)⟩
  · intro i r node settings retry machine h c hc
    cases hc
  · intro i r ch t t' h g hi ht hg ih c hc
    subst hc
    cases ht with
    | lifecycle hstep => exact hstep.proper (ih _ rfl).topic
  · intro i r c h hi hu ih c' hc
    cases hc

/-- Only an allocation leaves an entry that says so. -/
theorem entry_allocated {op : Operation} {created : Bool}
    {words : String}
    (h : op.entry created = some (.allocated, words)) :
    ∃ req, op = .allocate req := by
  cases op with
  | allocate req => exact ⟨req, rfl⟩
  | report req =>
      simp only [Operation.entry] at h
      split at h <;> cases h
  | register req => cases h
  | attach connections => cases h
  | assignVrf vrf => cases h
  | abortReinstall diskWiped => cases h

theorem AsideStep.posts {a : Aside} (h : AsideStep f a g) :
    g.posted = f.posted
      ∨ ∃ topic payload, topic ≠ f.topic
          ∧ g.posted = (topic, payload) :: f.posted := by
  cases h with
  | posted ht => exact Or.inr ⟨_, _, ht, rfl⟩
  | clock hg =>
      obtain ⟨a, -, rfl⟩ := hg
      exact Or.inl rfl
  | @delivered k other m n g hk hg =>
      obtain ⟨i, reg, hr⟩ := f.received_eq n m.payload
      rw [hr] at hg
      obtain ⟨a, -, rfl⟩ := hg
      exact Or.inl rfl
  | @redelivered name k payload i g hk hg =>
      obtain ⟨reg, hr⟩ := f.heard_eq i payload
      rw [hr] at hg
      obtain ⟨a, -, rfl⟩ := hg
      exact Or.inl rfl
  | _ => exact Or.inl rfl

-- ============================================================= the counts

/-- News of another machine does not count, and news of this one counts
once. -/
theorem told_post {topic : String} (htopic : g.topic = f.topic)
    (hp : g.posted = (topic, Notifier.payload c.machine) :: f.posted) :
    g.told m ≤ f.told m + 1
      ∧ (c.machine ≠ m → g.told m = f.told m) := by
  unfold told
  rw [hp, htopic]
  constructor
  · rw [List.countP_cons]
    split <;> omega
  · intro hne
    rw [List.countP_cons_of_neg]
    simp [told_payload, hne]

theorem told_elsewhere {topic : String} {payload : Json}
    (htopic : g.topic = f.topic) (hne : topic ≠ f.topic)
    (hp : g.posted = (topic, payload) :: f.posted) :
    g.told m = f.told m := by
  unfold told
  rw [hp, htopic, List.countP_cons_of_neg]
  simp [hne]

theorem told_same (htopic : g.topic = f.topic)
    (hp : g.posted = f.posted) : g.told m = f.told m := by
  unfold told
  rw [hp, htopic]

/-- An entry of another machine or of another kind does not count. -/
theorem entered_append {id : String} {event : ProvisioningEvent}
    (he : g.events = f.events.append id event) :
    g.entered m ≤ f.entered m + 1
      ∧ (¬ (id = m ∧ event.kind = .allocated) →
        g.entered m = f.entered m) := by
  unfold entered
  rw [he, list_append]
  by_cases hm : id = m
  · rw [if_pos hm, List.countP_append]
    constructor
    · exact Nat.add_le_add_left List.countP_le_length _
    · intro hne
      have hk : ¬ event.kind = .allocated := fun hk => hne ⟨hm, hk⟩
      simp [hk]
  · rw [if_neg hm]
    exact ⟨Nat.le_succ _, fun _ => rfl⟩

theorem entered_same (he : g.events = f.events) :
    g.entered m = f.entered m := by
  unfold entered
  rw [he]

/-- What a step of a winner adds to the ledger of its machine. -/
structure Adds (f g : Fleet) (m : String) (c c' : Lifecycle.Call) :
    Prop where
  told : g.told m = f.told m
    ∨ ((∃ x, c.stage = .publishing x) ∧ mayTell c' = 1
      ∧ g.told m ≤ f.told m + 1)
  entered : g.entered m = f.entered m
    ∨ ((∃ x event, c.stage = .recording x event) ∧ mayEnter c' = 1
      ∧ g.entered m ≤ f.entered m + 1)

/-- A step of a call adds nothing to the ledger of a machine, or the call
is an allocation of that machine which has been written. -/
theorem ledger_step {d : Bool}
    (hi : (after s h).slots[i]? = some ⟨r, .lifecycle c, d⟩)
    (hstep : LifecycleStep (after s h) c ch c' g) :
    (g.told m = (after s h).told m
        ∧ g.entered m = (after s h).entered m)
      ∨ ∃ req, (after s h).Won i m c req ∧ Adds (after s h) g m c c' := by
  have ht := TaskStep.lifecycle (r := r) hstep
  have hprop := proper hi
  have htopic := ht.frame.topic
  rcases ht.posts with ⟨-, hp⟩ | ⟨c₁, x, heq, hst, -, hp⟩
  · have htold := told_same (m := m) htopic hp
    rcases ht.events with he | ⟨c₁, x, event, heq, hst, he⟩
    · exact Or.inl ⟨htold, entered_same he⟩
    · -- an entry is added: it counts if it tells of this machine's
      -- allocation, and then the call is one that has been written
      cases heq
      obtain ⟨hle, hother⟩ := entered_append (m := m) he
      by_cases hm : c.machine = m ∧ event.kind = .allocated
      · obtain ⟨created, words, hentry⟩ := hprop.recording x event hst
        rw [hm.2] at hentry
        obtain ⟨req, hop⟩ := entry_allocated hentry
        refine Or.inr ⟨req, ⟨⟨r, d, hi⟩, hm.1, hop, ?_⟩, Or.inl htold,
          Or.inr ⟨⟨x, event, hst⟩, ?_, hle⟩⟩
        · rw [result?, hst]
          rfl
        · rcases hstep.behind (x := x) (by rw [result?, hst]) with
            ⟨hst', -⟩ | ⟨_, -, rfl⟩
          · rw [hst] at hst'
            cases hst'
          · rfl
      · exact Or.inl ⟨htold, hother hm⟩
  · -- an allocation is announced
    cases heq
    obtain ⟨req, hop⟩ := hprop.publishing x hst
    have hev : g.events = (after s h).events := by
      rcases ht.events with he | ⟨c₁, y, event, heq, hst', -⟩
      · exact he
      · cases heq
        rw [hst] at hst'
        cases hst'
    have hentered := entered_same (m := m) hev
    obtain ⟨hle, hother⟩ := told_post (m := m) htopic hp
    by_cases hm : c.machine = m
    · refine Or.inr ⟨req, ⟨⟨r, d, hi⟩, hm, hop, ?_⟩,
        Or.inr ⟨⟨x, hst⟩, ?_, hle⟩, Or.inl hentered⟩
      · rw [result?, hst]
        rfl
      · rcases hstep.behind (x := x) (by rw [result?, hst]) with
          ⟨-, ⟨-, rfl⟩ | ⟨_, _, _, -, rfl⟩⟩ | ⟨_, hst', -⟩
        · rfl
        · rfl
        · rw [hst] at hst'
          cases hst'
    · exact Or.inl ⟨hother hm, hentered⟩

/-- An event adds nothing to the ledger of a machine, or it is the step
of an allocation of that machine which has been written. -/
theorem ledger_event (s : Setting) (h : History) (e : Event) (m : String) :
    ((after s (e :: h)).told m = (after s h).told m
        ∧ (after s (e :: h)).entered m = (after s h).entered m)
      ∨ ∃ i r c c' req,
          (after s (e :: h)).slots[i]? = some ⟨r, .lifecycle c', false⟩
          ∧ (after s h).Won i m c req
          ∧ Adds (after s h) (after s (e :: h)) m c c' := by
  have hh := happened (after s h) e
  rw [after_cons]
  generalize (after s h).step e = g at hh
  cases hh with
  | submitted => exact Or.inl ⟨rfl, rfl⟩
  | awaited => exact Or.inl ⟨rfl, rfl⟩
  | expired hi hu hg =>
      obtain ⟨a, -, rfl⟩ := hg
      exact Or.inl ⟨rfl, rfl⟩
  | dropped hi hg =>
      obtain ⟨a, -, rfl⟩ := hg
      exact Or.inl ⟨rfl, rfl⟩
  | idle he => exact Or.inl ⟨rfl, rfl⟩
  | aside ha =>
      have hentered := entered_same (m := m) ha.apart.events
      rcases ha.posts with hp | ⟨topic, payload, hne, hp⟩
      · exact Or.inl ⟨told_same ha.apart.topic hp, hentered⟩
      · exact Or.inl ⟨told_elsewhere ha.apart.topic hne hp, hentered⟩
  | @advanced i r ch t t' g hi ht =>
      cases ht with
      | @lifecycle c _ c' _ hstep =>
          rcases ledger_step (m := m) hi hstep with hsame | ⟨req, hwon, hadds⟩
          · exact Or.inl hsame
          · refine Or.inr ⟨i, r, c, c', req, ?_, hwon, hadds.told,
              hadds.entered⟩
            rw [setSlot_get? hi (TaskStep.lifecycle (r := r)
              hstep).frame.slots, if_pos rfl]
      | @wait c _ c' _ hstep =>
          have ht := TaskStep.wait hstep
          left
          rcases ht.posts with ⟨-, hp⟩ | ⟨_, _, heq, -⟩
          · rcases ht.events with he | ⟨_, _, _, heq, -⟩
            · exact ⟨told_same ht.frame.topic hp, entered_same he⟩
            · cases heq
          · cases heq

-- =================================================== winners stay winners

/-- A step of a call that has its record keeps it, and can only have
announced and entered more. -/
theorem LifecycleStep.result_kept {x : MachineRecord}
    (h : LifecycleStep f c ch c' g) (hr : result? c = some x) :
    result? c' = some x ∧ mayTell c ≤ mayTell c'
      ∧ mayEnter c ≤ mayEnter c' := by
  rcases h.behind hr with ⟨hs, hc⟩ | ⟨event, hs, rfl⟩
  · refine ⟨hc.result.1, ?_, ?_⟩
    · rw [show mayTell c = 0 by rw [mayTell, hs]]
      exact Nat.zero_le _
    · rw [show mayEnter c = 0 by rw [mayEnter, hs]]
      exact Nat.zero_le _
  · refine ⟨rfl, ?_, ?_⟩
    · rw [show mayTell c = 1 by rw [mayTell, hs]]
      exact Nat.le_refl 1
    · rw [show mayEnter c = 0 by rw [mayEnter, hs]]
      exact Nat.zero_le _

theorem Won.event (hwon : f.Won i m c req) (e : Event) :
    ∃ c', (f.step e).Won i m c' req ∧ mayTell c ≤ mayTell c'
      ∧ mayEnter c ≤ mayEnter c' := by
  obtain ⟨⟨r, d, hi⟩, hm, hop, hres⟩ := hwon
  obtain ⟨x, hx⟩ := Option.isSome_iff_exists.mp hres
  obtain ⟨y, hy, -⟩ := slot_kept e hi
  have hs := slot_step hy
  generalize f.step e = g at hs hy ⊢
  cases hs with
  | same hs he =>
      cases hs.symm.trans hi
      exact ⟨c, ⟨⟨r, d, hy⟩, hm, hop, hres⟩, Nat.le_refl _, Nat.le_refl _⟩
  | idle hs =>
      cases hs.symm.trans hi
      exact ⟨c, ⟨⟨r, d, hy⟩, hm, hop, hres⟩, Nat.le_refl _, Nat.le_refl _⟩
  | submitted hs => rw [hs] at hi; cases hi
  | awaited hs => rw [hs] at hi; cases hi
  | advanced hs ht =>
      cases hs.symm.trans hi
      have hsame := ht.same
      cases ht with
      | lifecycle hstep =>
          cases hsame
          obtain ⟨hr', htell, henter⟩ := hstep.result_kept hx
          exact ⟨_, ⟨⟨r, false, hy⟩, hm, hop, by rw [hr']; rfl⟩, htell,
            henter⟩
  | expired hs hu => cases hs.symm.trans hi
  | dropped hs =>
      cases hs.symm.trans hi
      exact ⟨c, ⟨⟨r, true, hy⟩, hm, hop, hres⟩, Nat.le_refl _,
        Nat.le_refl _⟩

theorem Won.later (hp : p <:+ h) (hwon : (after s p).Won i m c req) :
    ∃ c', (after s h).Won i m c' req := by
  induction h with
  | nil =>
      rw [List.suffix_nil.mp hp] at hwon
      exact ⟨c, hwon⟩
  | cons e h ih =>
      rcases List.suffix_cons_iff.mp hp with rfl | hp'
      · exact ⟨c, hwon⟩
      · obtain ⟨c₁, h₁⟩ := ih hp'
        obtain ⟨c', h', -, -⟩ := h₁.event e
        exact ⟨c', h'⟩

/-- An allocation never has nothing to write. -/
theorem change_allocate_none {x : MachineRecord} {a b : Ambient} :
    (Operation.allocate req).change x a ≠ (.ok none, b) := by
  intro h
  simp only [Operation.change] at h
  split at h <;> cases h

/-- A winner was one before, or has just had its write taken. -/
theorem Won.before (hwon : (after s (e :: h)).Won j m c' req) :
    (∃ c, (after s h).Won j m c req)
      ∨ ∃ ch v, e = .step j ch
          ∧ Follows s h j ch m (.change (.allocate req)) v := by
  obtain ⟨⟨r, d, hj⟩, hm, hop, hres⟩ := hwon
  rw [after_cons] at hj
  have hs := slot_step hj
  generalize hg : (after s h).step e = g at hs
  cases hs with
  | same hs he => exact Or.inl ⟨c', ⟨r, d, hs⟩, hm, hop, hres⟩
  | idle hs => exact Or.inl ⟨c', ⟨r, d, hs⟩, hm, hop, hres⟩
  | submitted hs => cases hres
  | dropped hs => exact Or.inl ⟨c', ⟨r, false, hs⟩, hm, hop, hres⟩
  | @advanced ch _ _ _ g hs ht =>
      have hsame := ht.same
      cases ht with
      | @lifecycle c _ _ _ hstep =>
          have hm₁ : c.machine = m := by
            rw [← hm]
            exact (hsame.machine).symm
          have hop₁ : c.operation = .allocate req := by
            cases hsame
            exact hop
          have hback : result? c = result? c' →
              ∃ c, (after s h).Won j m c req := by
            intro heq
            exact ⟨c, ⟨r, false, hs⟩, hm₁, hop₁, by rw [heq]; exact hres⟩
          cases hstep with
          | @wrote tm w _ _ hw hon hfit hwr hstill =>
              right
              obtain ⟨-, μ, hfol⟩ := follows_of_fits (.serve tm) hs
                hw hfit (by
                  rw [after_cons, hg]
                  obtain ⟨a, -, rfl⟩ := hstill
                  rfl)
              obtain ⟨r', t', hi', -, hμ⟩ := hfol.call
              cases hs.symm.trans hi'
              rw [allocate_mutation hop₁ hμ,
                show (Task.lifecycle c).machine = m from hm₁] at hfol
              exact ⟨_, _, rfl, hfol⟩
          | published h1 hch hc =>
              exact Or.inl (hback (by rw [hc.result.1, result?, h1]))
          | recorded added h1 =>
              exact Or.inl (hback (by rw [result?, h1]; rfl))
          | kept h1 hv hx hc =>
              rw [hop₁] at hx
              exact absurd hx change_allocate_none
          | unread h1 he hc => rw [hc.result] at hres; cases hres
          | unwritten h1 he hc => rw [hc.result] at hres; cases hres
          | lost h1 hc => rw [hc.result] at hres; cases hres
          | prepared => cases hres
          | rejected => cases hres
          | unknown => cases hres
          | resumed => cases hres

/-- A call whose allocation is taken is a winner, and about to announce
it. -/
theorem Follows.won (hch : ch.faithful = true)
    (hfol : Follows s h i ch m (.change (.allocate req)) v) :
    ∃ c, (after s (.step i ch :: h)).Won i m c req
      ∧ (∃ r, (after s (.step i ch :: h)).slots[i]?
        = some ⟨r, .lifecycle c, false⟩)
      ∧ ∃ x, c.stage = .publishing x := by
  obtain ⟨r, t, t', g, hi, hm, hμ, ht, hst, hy⟩ := hfol.step
  cases ht with
  | @lifecycle c _ c' _ hstep =>
      have hop : c.operation = .allocate req := by
        obtain ⟨machine, op, topic, retry, pacing, stage⟩ := c
        cases stage with
        | creating =>
            cases op <;> cases hμ
        | writing => cases hμ; rfl
        | _ => cases hμ
      obtain ⟨w, hw, hwr⟩ := hstep.taken hch hst
      rcases hwr with ⟨req', -, rfl⟩ | ⟨hno, -⟩
      · exact ⟨_, ⟨⟨r, false, hy⟩, hm, hop, rfl⟩, ⟨r, hy⟩, _, rfl⟩
      · exact absurd hop (hno req)
  | @wait c _ c' _ hstep =>
      obtain ⟨machine, node, settings, retry, stage⟩ := c
      cases stage with
      | marking => cases hμ
      | clearing _ k => cases k <;> cases hμ
      | _ => cases hμ

-- ============================================================= the ledger

theorem ledger_initial (s : Setting) (m : String) :
    Ledger (initial s) m := by
  refine .free ?_ ?_ rfl rfl
  · rintro ⟨v, hv, -⟩
    cases hv
  · rintro i c req ⟨⟨r, d, hi⟩, -⟩
    cases hi

/-- The event that allocates the machine: it was free, and the call whose
write is taken wins. -/
theorem Ledger.taken (hl : Ledger (after s h) m)
    (hch : ch.faithful = true)
    (hfol : Follows s h i ch m (.change (.allocate req)) v) :
    Ledger (after s (.step i ch :: h)) m := by
  obtain ⟨-, hterms, hnot⟩ := hfol.allocated
  cases hl with
  | won hwon honly ht => exact absurd (allocated_iff.mpr ⟨_, ht⟩) hnot
  | free hfree hnone htold hentered =>
      obtain ⟨c, hwon, -⟩ := hfol.won hch
      have hcount : (after s (.step i ch :: h)).told m = 0
          ∧ (after s (.step i ch :: h)).entered m = 0 := by
        rcases ledger_event s h (.step i ch) m with
          ⟨h1, h2⟩ | ⟨j, r, c₁, c₂, req₁, -, hwon₁, -⟩
        · exact ⟨h1.trans htold, h2.trans hentered⟩
        · exact absurd hwon₁ (hnone _ _ _)
      refine .won hwon ?_ ?_ ?_ ?_
      · intro j c₁ req₁ hj
        rcases hj.before with ⟨c₀, h₀⟩ | ⟨ch₀, v₀, heq, -⟩
        · exact absurd h₀ (hnone _ _ _)
        · cases heq
          rfl
      · rw [hfol.stored]
        exact hterms
      · rw [hcount.1]
        exact Nat.zero_le _
      · rw [hcount.2]
        exact Nat.zero_le _

/-- Any other event leaves the ledger free, or to its winner. -/
theorem Ledger.kept (hl : Ledger (after s h) m)
    (hno : ∀ i ch req v, e = .step i ch →
      ¬ Follows s h i ch m (.change (.allocate req)) v) :
    Ledger (after s (e :: h)) m := by
  cases hl with
  | free hfree hnone htold hentered =>
      refine .free ?_ ?_ ?_ ?_
      · rintro ⟨v, hv, ha⟩
        rcases stored_step s h e m with hsame | ⟨i, ch, μ, u, rfl, hfol⟩
        · exact hfree ⟨v, hsame ▸ hv, ha⟩
        · obtain ⟨ch', q, -, -, hmade, -, -⟩ := hfol.made
          cases hfol.stored.symm.trans hv
          rcases Mutation.apply_terms hmade with
            ⟨req, x, rfl, -⟩ | ⟨-, hterms⟩
          · exact hno i ch req _ rfl hfol
          · rw [MachineRecord.isAllocated_eq, hterms] at ha
            obtain ⟨w, hw, hx⟩ := Option.bind_eq_some_iff.mp
              (Option.isSome_iff_exists.mp ha).choose_spec
            obtain ⟨y, hy, rfl⟩ := Option.map_eq_some_iff.mp hw
            refine hfree ⟨y, hy, ?_⟩
            rw [MachineRecord.isAllocated_eq, hx]
            rfl
      · -- nobody wins but by a write, and this event is none
        intro j c req hj
        rcases hj.before with ⟨c₀, h₀⟩ | ⟨ch, v, heq, hfol⟩
        · exact hnone _ _ _ h₀
        · exact hno j ch req v heq hfol
      · rcases ledger_event s h e m with
          ⟨h1, -⟩ | ⟨j, r, c₁, c₂, req₁, -, hwon₁, -⟩
        · exact h1.trans htold
        · exact absurd hwon₁ (hnone _ _ _)
      · rcases ledger_event s h e m with
          ⟨-, h2⟩ | ⟨j, r, c₁, c₂, req₁, -, hwon₁, -⟩
        · exact h2.trans hentered
        · exact absurd hwon₁ (hnone _ _ _)
  | @won i c req hwon honly hterms htold hentered =>
      obtain ⟨c', hwon', htell, henter⟩ := hwon.event e
      have hcount : (after s (e :: h)).told m ≤ mayTell c'
          ∧ (after s (e :: h)).entered m ≤ mayEnter c' := by
        rcases ledger_event s h e m with
          ⟨h1, h2⟩ | ⟨j, r, c₁, c₂, req₁, hj, hwon₁, hadds⟩
        · exact ⟨by rw [h1]; exact Nat.le_trans htold htell,
            by rw [h2]; exact Nat.le_trans hentered henter⟩
        · -- the step is the winner's own
          cases honly j c₁ req₁ hwon₁
          obtain ⟨r₀, d₀, h₀⟩ := hwon.slot
          obtain ⟨r₁, d₁, h₁⟩ := hwon₁.slot
          cases h₀.symm.trans h₁
          obtain ⟨r₂, d₂, h₂⟩ := hwon'.slot
          cases (after_cons s e h ▸ hj).symm.trans h₂
          constructor
          · rcases hadds.told with h1 | ⟨⟨x, hx⟩, hone, hle⟩
            · rw [h1]
              exact Nat.le_trans htold htell
            · have hzero : mayTell c = 0 := by rw [mayTell, hx]
              omega
          · rcases hadds.entered with h1 | ⟨⟨x, event, hx⟩, hone, hle⟩
            · rw [h1]
              exact Nat.le_trans hentered henter
            · have hzero : mayEnter c = 0 := by rw [mayEnter, hx]
              omega
      refine .won hwon' ?_ (terms_step hterms e) hcount.1 hcount.2
      intro j c₁ req₁ hj
      rcases hj.before with ⟨c₀, h₀⟩ | ⟨ch, v, heq, hfol⟩
      · exact honly j c₀ req₁ h₀
      · exact absurd hfol (hno j ch req₁ v heq)

theorem ledger (hf : Faithful h) (m : String) :
    Ledger (after s h) m := by
  induction h with
  | nil => exact ledger_initial s m
  | cons e h ih =>
      have hl := ih (fun e' he => hf e' (List.mem_cons_of_mem e he))
      by_cases htaken : ∃ i ch req v, e = .step i ch
          ∧ Follows s h i ch m (.change (.allocate req)) v
      · obtain ⟨i, ch, req, v, rfl, hfol⟩ := htaken
        exact hl.taken (hf _ List.mem_cons_self) hfol
      · exact hl.kept (fun i ch req v heq hfol =>
          htaken ⟨i, ch, req, v, heq, hfol⟩)

-- ============================================================ the theorem

/-- An event that leaves the store, the histories, the bus and all
signals as they are. -/
structure Traceless (f g : Fleet) : Prop where
  store : g.store = f.store
  events : g.events = f.events
  bus : g.bus = f.bus
  posted : g.posted = f.posted
  registries : g.registries = f.registries

/-- A step of an allocation that leaves a trace makes it the winner, or
is the winner's. -/
theorem traceless_step (hf : Faithful h)
    (hq : (.step j ch :: p) <:+ h)
    (hj : (after s p).slots[j]? = some ⟨r, .lifecycle c, false⟩)
    (hm : c.machine = m) (hop : c.operation = .allocate req)
    (hlost : ∀ c' req', ¬ (after s h).Won j m c' req') :
    Traceless (after s p) (after s (.step j ch :: p)) := by
  have hch : ch.faithful = true := hf _ (hq.subset List.mem_cons_self)
  have hph : p <:+ h := (List.suffix_cons _ _).trans hq
  have hnow : ∀ x, result? c ≠ some x := by
    intro x hx
    obtain ⟨c', hc'⟩ := Won.later hph
      ⟨⟨r, false, hj⟩, hm, hop, by rw [hx]; rfl⟩
    exact hlost c' req hc'
  have hh := happened (after s p) (.step j ch)
  generalize hg : (after s p).step (.step j ch) = g at hh
  rw [after_cons, hg]
  cases hh with
  | idle he => exact ⟨rfl, rfl, rfl, rfl, rfl⟩
  | @advanced _ r' _ t t' g hi ht =>
      cases hi.symm.trans hj
      -- a write that is taken would make the call the winner
      have hstore : g.store = (after s p).store := by
        rcases ht.store with hst | ⟨w, hw, hfit, hst⟩
        · exact hst
        · obtain ⟨-, μ, hfol⟩ := follows_of_fits ch hi hw hfit
            (by rw [after_cons, hg]; exact hst)
          obtain ⟨r₁, t₁, h₁, -, hμ⟩ := hfol.call
          cases hi.symm.trans h₁
          rw [allocate_mutation hop hμ,
            show (Task.lifecycle c).machine = m from hm] at hfol
          obtain ⟨c₁, hwon, -⟩ := hfol.won hch
          obtain ⟨c₂, hwon⟩ := hwon.later hq
          exact absurd hwon (hlost _ _)
      -- and only a winner announces the allocation, or enters it
      have hposts : g.bus = (after s p).bus
          ∧ g.posted = (after s p).posted := by
        rcases ht.posts with hp | ⟨c₁, x, heq, hst, -⟩
        · exact hp
        · cases heq
          exact absurd (by rw [result?, hst]) (hnow x)
      have hevents : g.events = (after s p).events := by
        rcases ht.events with he | ⟨c₁, x, event, heq, hst, -⟩
        · exact he
        · cases heq
          exact absurd (by rw [result?, hst]) (hnow x)
      have hsignals : g.registries = (after s p).registries := by
        cases ht with
        | lifecycle hstep => exact hstep.registries
      exact ⟨hstore, hevents, hposts.1, hposts.2, hsignals⟩

/-- A machine that is allocated once at most. -/
structure AllocatedOnce (s : Setting) (h : History) (m : String) :
    Prop where
  /-- A call that returned an allocation has won. -/
  returned : ∀ i r c d req x, (after s h).slots[i]?
      = some ⟨r, .lifecycle c, d⟩ → c.machine = m →
    c.operation = .allocate req → c.stage = .finished (.ok x) →
      (after s h).Won i m c req
  /-- One call wins at most. -/
  single : ∀ i j c c' req req', (after s h).Won i m c req →
    (after s h).Won j m c' req' → i = j
  /-- From then on the record bears the winner's terms. -/
  terms : ∀ p i c req, p <:+ h → (after s p).Won i m c req →
    ((after s h).stored m).bind (fun v => v.record.terms?)
      = some req.terms
  /-- All other allocations of the machine leave no trace, and end with
  an error, -/
  lost : ∀ j r c d req, (after s h).slots[j]?
      = some ⟨r, .lifecycle c, d⟩ → c.machine = m →
    c.operation = .allocate req → ¬ (after s h).Won j m c req →
      (∀ q ch, (.step j ch :: q) <:+ h →
        Traceless (after s q) (after s (.step j ch :: q)))
      ∧ ∀ result, c.stage = .finished result → ∃ e, result = .error e
  /-- which they do get, if they are served and not given up. -/
  answered : ∀ j r c l q, h = l ++ q → (after s q).slots[j]?
      = some ⟨r, .lifecycle c, false⟩ → .drop j ∉ l →
    patience c ≤ turns j l → ∃ c' result, (after s h).slots[j]?
        = some ⟨r, .lifecycle c', false⟩
      ∧ c'.stage = .finished result
  /-- The allocation is announced once and entered once, at most. -/
  told : (after s h).told m ≤ 1
  entered : (after s h).entered m ≤ 1

theorem mayTell_le (c : Lifecycle.Call) : mayTell c ≤ 1 := by
  unfold mayTell
  split <;> omega

theorem mayEnter_le (c : Lifecycle.Call) : mayEnter c ≤ 1 := by
  unfold mayEnter
  split <;> omega

/-- Calls keep what they are about, also further back. -/
theorem slot_earlier {x : Slot} (hp : p <:+ h)
    (hx : (after s h).slots[i]? = some x) {y : Slot}
    (hy : (after s p).slots[i]? = some y) : y.task.Same x.task := by
  obtain ⟨x', hx', -, hsame⟩ := slot_later hp hy
  cases hx.symm.trans hx'
  exact hsame

theorem Ledger.single (hl : Ledger f m) (hi : f.Won i m c req)
    (hj : f.Won j m c' req') : i = j := by
  cases hl with
  | free hfree hnone => exact absurd hi (hnone _ _ _)
  | won hwon honly => rw [honly i c req hi, honly j c' req' hj]

/-- The terms of the winner are what is stored. -/
theorem Ledger.terms (hl : Ledger f m) (hi : f.Won i m c req) :
    (f.stored m).bind (fun v => v.record.terms?) = some req.terms := by
  cases hl with
  | free hfree hnone => exact absurd hi (hnone _ _ _)
  | @won k c₂ req₂ hwon honly hterms =>
      cases honly i c req hi
      obtain ⟨r₁, d₁, hs₁⟩ := hi.slot
      obtain ⟨r₂, d₂, hs₂⟩ := hwon.slot
      cases hs₁.symm.trans hs₂
      cases hi.operation.symm.trans hwon.operation
      exact hterms

theorem Ledger.counts (hl : Ledger f m) :
    f.told m ≤ 1 ∧ f.entered m ≤ 1 := by
  cases hl with
  | free hfree hnone htold hentered => omega
  | @won i c req hwon honly hterms htold hentered =>
      exact ⟨Nat.le_trans htold (mayTell_le c),
        Nat.le_trans hentered (mayEnter_le c)⟩

/-- No step of a call that does not win leaves a trace. -/
theorem loser_traceless (hf : Faithful h) {d : Bool}
    (hj : (after s h).slots[j]? = some ⟨r, .lifecycle c, d⟩)
    (hm : c.machine = m) (hop : c.operation = .allocate req)
    (hlost : ¬ (after s h).Won j m c req)
    (hq : (.step j ch :: p) <:+ h) :
    Traceless (after s p) (after s (.step j ch :: p)) := by
  have hnever : ∀ c' req', ¬ (after s h).Won j m c' req' := by
    intro c' req' hwon
    obtain ⟨r', d', hj'⟩ := hwon.slot
    cases hj'.symm.trans hj
    cases hop.symm.trans hwon.operation
    exact hlost hwon
  have hidle : after s (.step j ch :: p) = after s p →
      Traceless (after s p) (after s (.step j ch :: p)) := by
    intro heq
    rw [heq]
    exact ⟨rfl, rfl, rfl, rfl, rfl⟩
  cases hs : (after s p).slots[j]? with
  | none =>
      refine hidle ?_
      simp only [after_cons, step, advance, hs]
  | some y =>
      have hsame := slot_earlier ((List.suffix_cons _ _).trans hq) hj hs
      obtain ⟨r₀, t₀, d₀⟩ := y
      cases d₀ with
      | true =>
          refine hidle ?_
          simp only [after_cons, step, advance, hs, if_true]
      | false =>
          cases t₀ with
          | lifecycle c₀ =>
              -- an earlier state of the same call, so about the same
              cases hsame
              exact traceless_step hf hq hs hm hop hnever
          | wait c₀ => cases hsame

/-- Of all calls that allocate a machine one at most succeeds, its terms
stand, and all others fail and leave no trace. -/
theorem allocated_once (hf : Faithful h) (m : String) :
    AllocatedOnce s h m where
  returned i r c d req x hi hm hop hx :=
    ⟨⟨r, d, hi⟩, hm, hop, by rw [result?, hx]; rfl⟩
  single i j c c' req req' hi hj := (ledger hf m).single hi hj
  terms p i c req hp hwon := by
    obtain ⟨c₁, h₁⟩ := hwon.later hp
    exact (ledger hf m).terms h₁
  lost j r c d req hj hm hop hlost := by
    refine ⟨fun q ch hq => loser_traceless hf hj hm hop hlost hq, ?_⟩
    intro result hfin
    cases result with
    | error e => exact ⟨e, rfl⟩
    | ok x =>
        exact absurd ⟨⟨r, d, hj⟩, hm, hop, by rw [result?, hfin]; rfl⟩
          hlost
  answered j r c l q hlq hj hd hle := by
    subst hlq
    exact served_out hj hd hle
  told := (ledger hf m).counts.1
  entered := (ledger hf m).counts.2

/-- Two allocations read the same version. The first to write wins; the
other starts over, and finds the machine allocated. -/
def contest : History :=
  [.step 2 (.serve 0), .step 2 (.serve 0), .step 1 (.serve 0),
    .step 1 (.serve 0), .step 2 (.serve 0), .step 1 (.serve 0),
    .step 2 (.serve 0), .step 1 (.serve 0),
    .submit 1 labRetry "m" (.allocate
      { project := "b", hostname := "g", image := "j" }),
    .submit 0 labRetry "m" (.allocate
      { project := "a", hostname := "h", image := "i" }),
    .step 0 (.serve 0), .step 0 (.serve 0),
    .submit 0 labRetry "m" (.register {})]

theorem allocated_once_contest :
    (after lab contest).told "m" = 1
      ∧ (after lab contest).entered "m" = 1
      ∧ AllocatedOnce lab contest "m" :=
  ⟨by rfl, by rfl, allocated_once (by unfold Faithful contest; decide) "m"⟩

end ControlPlane.Fleet
