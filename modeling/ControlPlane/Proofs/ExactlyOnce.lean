/-
What a lifecycle call leaves behind when it has ended, on backends in
memory: one version of its machine's record or none, one message or
none, one entry in the machine's history or none, each by what the
operation is and by whether there was anything to write. A call that has
failed leaves nothing at all (`exactly_once`).

# What a call has done

`deeds` watches the fleet from outside. Around each step of the call it
compares what is stored, published and entered, and adds up what is new.
Nothing about the code of the call goes into it.

# Why a retry repeats nothing

Attempts end in front of the publication and the entry, and only an
attempt that is taken goes on to them. So while a call can still fail or
start over it has done nothing (`Standing`), and behind its write it has
one thing to do at each stage.

Outages are events of their own and may come between any two steps. A
backend in memory fails while it is out of reach and at no other time,
and its bus and its histories never do (`InMemory`).

Chain: over Linearizability.lean and SingleAllocation.lean, and for
calls that were posted over Http/Refusals.lean.
-/
import ControlPlane.Proofs.Http.Refusals
import ControlPlane.Proofs.Linearizability
import ControlPlane.Proofs.SingleAllocation
import ControlPlane.Proofs.Wiring

namespace ControlPlane

/-- The kind of the entry that an operation leaves. -/
def Operation.kind? : Operation → Option EventKind
  | register _ => some .registered
  | attach _ => none
  | allocate _ => some .allocated
  | assignVrf _ => none
  | report req => some (if req.success then .provisioned else .failed)
  | abortReinstall _ => some .reinstallAborted

theorem Operation.entry_kind (op : Operation) (created : Bool) :
    (op.entry created).map Prod.fst = op.kind? := by
  cases op with
  | report req =>
      simp only [entry, kind?]
      split <;> rfl
  | _ => rfl

/-- The message that an operation publishes. -/
def Operation.message? (topic machine : String) :
    Operation → Option (String × Json)
  | allocate _ => some (topic, Notifier.payload machine)
  | _ => none

/-- May there be nothing to write for the operation? -/
def Operation.Optional : Operation → Prop
  | attach _ | assignVrf _ | abortReinstall _ => True
  | register _ | allocate _ | report _ => False

variable {op : Operation} {r x : MachineRecord} {a b : Ambient}

theorem Operation.optional_of_none (h : op.change r a = (.ok none, b)) :
    op.Optional := by
  cases op with
  | register req => cases h
  | allocate req =>
      simp only [change] at h
      split at h <;> cases h
  | report req =>
      simp only [change] at h
      split at h <;> cases h
  | _ => trivial

/-- Where there may be nothing to write, what is written is
different. -/
theorem Operation.change_differs (hop : op.Optional)
    (h : op.change r a = (.ok (some x), b)) : x ≠ r := by
  cases op with
  | attach new =>
      simp only [change] at h
      split at h
      · cases h
      · rename_i hnew
        cases h
        exact fun he => hnew ((r.attachCount_eq_zero new).mpr he)
  | assignVrf vrf =>
      simp only [change] at h
      split at h
      · cases h
      · rename_i y hy
        split at h
        · cases h
        · rename_i hvrf
          cases h
          intro he
          have hall := congrArg MachineRecord.allocation he
          rw [hy] at hall
          have hsame := congrArg Allocation.vrf (Option.some.inj hall)
          exact hvrf hsame.symm
  | abortReinstall diskWiped =>
      simp only [change] at h
      split at h
      · rename_i y hy
        split at h
        · rename_i hre
          cases h
          intro he
          have hall := congrArg MachineRecord.allocation he
          rw [hy] at hall
          have hsame := congrArg Allocation.reinstall (Option.some.inj hall)
          simp only at hsame
          rw [← hsame] at hre
          cases hre
        · cases h
      · cases h
  | _ => exact hop.elim

namespace Fleet

variable {s : Setting} {f g : Fleet} {e : Event} {h p q : History}
  {i k : Nat} {ch : Choice} {m : String} {c c' : Lifecycle.Call}
  {d : Bool}

-- =============================================================== deeds

/-- What there is to see of a call, for one machine. -/
structure Deeds where
  /-- The versions of the machine's record that it wrote. -/
  versions : List Versioned := []
  /-- All that it published, with the topics. -/
  messages : List (String × Json) := []
  /-- The entries that it added to the machine's history. -/
  entries : List ProvisioningEvent := []

/-- One after the other. -/
def Deeds.append (a b : Deeds) : Deeds :=
  ⟨a.versions ++ b.versions, a.messages ++ b.messages,
    a.entries ++ b.entries⟩

@[simp] theorem Deeds.append_empty (a : Deeds) : a.append {} = a := by
  simp [Deeds.append]

@[simp] theorem Deeds.empty_append (a : Deeds) : Deeds.append {} a = a := by
  simp [Deeds.append]

/-- What is new in `g`. -/
def seen (m : String) (f g : Fleet) : Deeds where
  versions := if g.stored m = f.stored m then [] else (g.stored m).toList
  messages := g.posted.take (g.posted.length - f.posted.length)
  entries := (g.events.list m).drop (f.events.list m).length

/-- All that call `i` has done, as far as machine `m` is concerned. -/
def deeds (s : Setting) (i : Nat) (m : String) : History → Deeds
  | [] => {}
  | e :: h =>
      if e.caller? = some i then
        (deeds s i m h).append (seen m (after s h) (after s (e :: h)))
      else deeds s i m h

/-- Nothing is new. -/
theorem seen_same (hstored : g.stored m = f.stored m)
    (hposted : g.posted = f.posted) (hevents : g.events = f.events) :
    seen m f g = {} := by
  simp [seen, hstored, hposted, hevents]

theorem seen_still (hg : Still f g) (m : String) : seen m f g = {} := by
  obtain ⟨a, -, rfl⟩ := hg
  exact seen_same rfl rfl rfl

theorem deeds_other (he : e.caller? ≠ some i) (m : String) :
    deeds s i m (e :: h) = deeds s i m h :=
  if_neg he

theorem deeds_own (he : e.caller? = some i) (m : String) :
    deeds s i m (e :: h)
      = (deeds s i m h).append (seen m (after s h) (after s (e :: h))) :=
  if_pos he

/-- An event that shows nothing adds nothing. -/
theorem deeds_unseen (hg : seen m (after s h) (after s (e :: h)) = {}) :
    deeds s i m (e :: h) = deeds s i m h := by
  by_cases he : e.caller? = some i
  · rw [deeds_own he, hg, Deeds.append_empty]
  · exact deeds_other he m

/-- A call that has not begun has done nothing. -/
theorem deeds_none (hi : (after s h).slots[i]? = none) (m : String) :
    deeds s i m h = {} := by
  induction h with
  | nil => rfl
  | cons e h ih =>
      have hbefore := slot_absent hi
      by_cases he : e.caller? = some i
      · have hidle : after s (e :: h) = after s h := by
          rw [after_cons]
          cases e with
          | step j ch =>
              cases he
              simp only [step, advance, hbefore]
          | expire j =>
              cases he
              simp only [step, expire, hbefore]
          | drop j =>
              cases he
              simp only [step, giveUp, hbefore]
          | _ => cases he
        rw [deeds_unseen (hidle ▸ seen_same rfl rfl rfl)]
        exact ih hbefore
      · rw [deeds_other he]
        exact ih hbefore

-- ========================================================= after a call

/-- Does a backend in memory do this? -/
def Choice.inMemory : Choice → Bool
  | refuse _ | lose _ | garble _ _ => false
  | _ => true

/-- Can it happen with backends in memory? -/
def Event.inMemory : Event → Bool
  | step _ ch => ch.inMemory
  | _ => true

/-- Backends in memory do what they are asked to: the store fails while
it is out of reach, the bus and the histories never. -/
def InMemory (h : History) : Prop := ∀ e ∈ h, e.inMemory = true

/-- What a call wrote to machine `m` for the record `x` that it has: one
version, which it made of the one before, or none, as there was nothing
to write. -/
inductive Written (s : Setting) (h : History) (i : Nat) (m : String)
    (op : Operation) (x : MachineRecord) : List Versioned → Prop
  | once {ch q v μ} (hq : (.step i ch :: q) <:+ h)
      (hfol : Follows s q i ch m μ v) (hv : v.record = x)
      (hμ : (∃ req, op = .register req ∧ μ = .create req)
        ∨ μ = .change op) :
      Written s h i m op x [v]
  | unchanged {ch q v} (hq : (.step i ch :: q) <:+ h)
      (hv : (after s q).stored m = some v) (hx : v.record = x)
      (hkept : (op.change x (after s q).ambient).1 = .ok none) :
      Written s h i m op x []

/-- What a call of an operation on machine `m` has done that holds the
record `x`: it wrote, and then it published these messages and entered
something of these kinds. -/
structure Did (s : Setting) (h : History) (i : Nat) (m : String)
    (op : Operation) (x : MachineRecord) (messages : List (String × Json))
    (kinds : List EventKind) : Prop where
  /-- No other machine was touched. -/
  elsewhere : ∀ m', m' ≠ m →
    (deeds s i m' h).versions = [] ∧ (deeds s i m' h).entries = []
  written : Written s h i m op x (deeds s i m h).versions
  messages : ∀ m', (deeds s i m' h).messages = messages
  entries : (deeds s i m h).entries.map ProvisioningEvent.kind = kinds

/-- The messages that a call publishes. -/
def messages (c : Lifecycle.Call) : List (String × Json) :=
  (c.operation.message? c.topic c.machine).toList

/-- What a call has done by the stage at which it stands. -/
def Standing (s : Setting) (h : History) (i : Nat) (c : Lifecycle.Call) :
    Prop :=
  match c.stage with
  | .publishing x => Did s h i c.machine c.operation x [] []
  | .recording x _ => Did s h i c.machine c.operation x (messages c) []
  | .finished (.ok x) =>
      Did s h i c.machine c.operation x (messages c)
        c.operation.kind?.toList
  | _ => ∀ m, deeds s i m h = {}

/-- What has been done stays done. -/
theorem Written.later {x : MachineRecord} {vs : List Versioned}
    (hw : Written s p i m op x vs) (hp : p <:+ h) :
    Written s h i m op x vs := by
  cases hw with
  | once hq hfol hv hμ => exact .once (hq.trans hp) hfol hv hμ
  | unchanged hq hv hx hkept => exact .unchanged (hq.trans hp) hv hx hkept

theorem Did.later {x : MachineRecord} {messages : List (String × Json)}
    {kinds : List EventKind} (hd : Did s h i m op x messages kinds)
    (hsame : ∀ m, deeds s i m (e :: h) = deeds s i m h) :
    Did s (e :: h) i m op x messages kinds where
  elsewhere m hm := by
    rw [hsame]
    exact hd.elsewhere m hm
  written := by
    rw [hsame]
    exact hd.written.later (List.suffix_cons e h)
  messages m := by
    rw [hsame]
    exact hd.messages m
  entries := by
    rw [hsame]
    exact hd.entries

theorem Standing.later (hst : Standing s h i c)
    (hsame : ∀ m, deeds s i m (e :: h) = deeds s i m h) :
    Standing s (e :: h) i c := by
  unfold Standing at hst ⊢
  cases hs : c.stage with
  | publishing x =>
      rw [hs] at hst
      exact Did.later hst hsame
  | recording x event =>
      rw [hs] at hst
      exact Did.later hst hsame
  | finished result =>
      rw [hs] at hst
      cases result with
      | ok x => exact Did.later hst hsame
      | error e =>
          intro m
          rw [hsame]
          exact hst m
  | _ =>
      rw [hs] at hst
      intro m
      rw [hsame]
      exact hst m

-- ========================================================== single steps

/-- A call that has its record, and has published what it was to, goes
on to its entry, or is done. -/
theorem Settles.standing {x : MachineRecord} {created : Bool}
    (hc : Settles c x created c')
    (hd : Did s h i c.machine c.operation x (messages c) []) :
    Standing s h i c' := by
  have hkind := c.operation.entry_kind created
  rcases hc with ⟨hnone, rfl⟩ | ⟨kind, words, now, hsome, rfl⟩
  · rw [hnone] at hkind
    show Did s h i c.machine c.operation x (messages c)
      c.operation.kind?.toList
    rw [← hkind]
    exact hd
  · exact hd

theorem FailedWith.standing {x : StoreError} (hc : FailedWith c x c')
    (hnone : ∀ m, deeds s i m h = {}) : Standing s h i c' := by
  rcases hc with ⟨rfl, -⟩ | ⟨-, -, _, _, -, rfl⟩
  · exact hnone
  · exact hnone

/-- While a call reads, it has done nothing. -/
theorem Standing.reading (hst : Standing s h i c)
    (hs : c.stage = .reading) (m : String) : deeds s i m h = {} := by
  unfold Standing at hst
  rw [hs] at hst
  exact hst m

/-- While it is about to write neither. -/
theorem Standing.writing {w : Write} (hst : Standing s h i c)
    (hw : lifecycleWrite? c = some w) (m : String) :
    deeds s i m h = {} := by
  unfold lifecycleWrite? at hw
  unfold Standing at hst
  cases hs : c.stage with
  | creating =>
      rw [hs] at hst
      exact hst m
  | writing =>
      rw [hs] at hst
      exact hst m
  | _ =>
      rw [hs] at hw
      cases hw

/-- Only allocations publish. -/
theorem messages_eq_nil (hop : ∀ req, c.operation ≠ .allocate req) :
    messages c = [] := by
  unfold messages
  cases hc : c.operation with
  | allocate req => exact absurd hc (hop req)
  | _ => rfl

/-- A call that finds nothing to write has its record without doing
anything. -/
theorem did_keep {v : Versioned} {a : Ambient}
    (hv : (after s h).stored c.machine = some v)
    (hx : c.operation.change v.record (after s h).ambient
      = (.ok none, a))
    (hnone : ∀ m, deeds s i m (.step i ch :: h) = {}) :
    Did s (.step i ch :: h) i c.machine c.operation v.record
      (messages c) [] := by
  have hopt := Operation.optional_of_none hx
  have hmessages : messages c = [] := by
    refine messages_eq_nil fun req hop => ?_
    rw [hop] at hopt
    exact hopt
  refine ⟨?_, ?_, ?_, ?_⟩
  · intro m hm
    rw [hnone]
    exact ⟨rfl, rfl⟩
  · rw [hnone]
    refine .unchanged List.suffix_rfl hv rfl ?_
    rw [hx]
  · intro m
    rw [hnone, hmessages]
  · rw [hnone]
    rfl

/-- The write that is taken is all that the call has done so far. -/
theorem did_write {w : Write} {r : Nat}
    (hi : (after s h).slots[i]? = some ⟨r, .lifecycle c, false⟩)
    (hw : lifecycleWrite? c = some w)
    (hnone : ∀ m, deeds s i m h = {})
    (hfit : w.Fits (after s h).store)
    (hstill : Still { after s h with store := w.apply (after s h).store } g)
    (hg : after s (.step i ch :: h) = g.setSlot i ⟨r, .lifecycle c', false⟩) :
    Did s (.step i ch :: h) i c.machine c.operation w.record [] [] := by
  have hst : (after s (.step i ch :: h)).store
      = w.apply (after s h).store := by
    rw [hg]
    obtain ⟨a, -, rfl⟩ := hstill
    rfl
  have hrest : (after s (.step i ch :: h)).posted = (after s h).posted
      ∧ (after s (.step i ch :: h)).events = (after s h).events := by
    rw [hg]
    obtain ⟨a, -, rfl⟩ := hstill
    exact ⟨rfl, rfl⟩
  obtain ⟨hkey, μ, hfol⟩ := follows_of_fits ch hi hw hfit hst
  change w.key = c.machine at hkey
  change Follows s h i ch c.machine μ _ at hfol
  have hdeeds : ∀ m, deeds s i m (.step i ch :: h)
      = seen m (after s h) (after s (.step i ch :: h)) := by
    intro m
    rw [deeds_own (e := .step i ch) rfl, hnone, Deeds.empty_append]
  have hversions : (deeds s i c.machine (.step i ch :: h)).versions
      = [⟨w.record, (after s h).store.revision + 1⟩] := by
    rw [hdeeds, seen]
    show (if _ then _ else _) = _
    rw [if_neg hfol.moves, hfol.stored]
    rfl
  refine ⟨?_, ?_, ?_, ?_⟩
  · intro m hm
    have hsame : (after s (.step i ch :: h)).stored m
        = (after s h).stored m := by
      rw [stored_apply w hst, if_neg (fun he => hm (he.symm.trans hkey))]
    rw [hdeeds, seen_same hsame hrest.1 hrest.2]
    exact ⟨rfl, rfl⟩
  · rw [hversions]
    refine .once List.suffix_rfl hfol rfl ?_
    obtain ⟨r', t', hi', -, hμ⟩ := hfol.call
    cases hi.symm.trans hi'
    exact operation_mutation hμ
  · intro m
    rw [hdeeds]
    simp [seen, hrest.1]
  · rw [hdeeds]
    simp [seen, hrest.2]

/-- A publication is all that a call does in that step. -/
theorem did_post {r : Nat} {x : MachineRecord} {req : AllocateRequest}
    (hop : c.operation = .allocate req)
    (hd : Did s h i c.machine c.operation x [] [])
    (hstill : Still
      ((after s h).post c.topic (Notifier.payload c.machine)) g)
    (hg : after s (.step i ch :: h) = g.setSlot i ⟨r, .lifecycle c', false⟩) :
    Did s (.step i ch :: h) i c.machine c.operation x (messages c) [] := by
  have hseen : ∀ m, seen m (after s h) (after s (.step i ch :: h))
      = { messages := [(c.topic, Notifier.payload c.machine)] } := by
    intro m
    rw [hg]
    obtain ⟨a, -, rfl⟩ := hstill
    have hlen : ∀ x : String × Json, ∀ l : List (String × Json),
        (x :: l).length - l.length = 1 := by
      intro x l
      rw [List.length_cons]
      omega
    show Deeds.mk _ _ _ = _
    rw [Deeds.mk.injEq]
    refine ⟨if_pos rfl, ?_, List.drop_length⟩
    show List.take (List.length (_ :: (after s h).posted) - _) _ = _
    rw [hlen]
    rfl
  have hdeeds : ∀ m, deeds s i m (.step i ch :: h)
      = (deeds s i m h).append
        { messages := [(c.topic, Notifier.payload c.machine)] } := by
    intro m
    rw [deeds_own (e := .step i ch) rfl, hseen]
  refine ⟨?_, ?_, ?_, ?_⟩
  · intro m hm
    have hbefore := hd.elsewhere m hm
    rw [hdeeds]
    simp [Deeds.append, hbefore]
  · rw [hdeeds]
    simp only [Deeds.append, List.append_nil]
    exact hd.written.later (List.suffix_cons _ h)
  · intro m
    rw [hdeeds]
    simp [Deeds.append, hd.messages m, messages, Operation.message?, hop]
  · rw [hdeeds]
    simp [Deeds.append, hd.entries]

/-- An entry is all that a call does in that step. -/
theorem did_enter {r : Nat} {x : MachineRecord}
    {messages : List (String × Json)} {event : ProvisioningEvent}
    (hd : Did s h i c.machine op x messages [])
    (hstill : Still { after s h with
      events := (after s h).events.append c.machine event } g)
    (hg : after s (.step i ch :: h) = g.setSlot i ⟨r, .lifecycle c', false⟩) :
    Did s (.step i ch :: h) i c.machine op x messages [event.kind] := by
  have hstored : ∀ m, (after s (.step i ch :: h)).stored m
      = (after s h).stored m := by
    intro m
    rw [hg]
    obtain ⟨a, -, rfl⟩ := hstill
    rfl
  have hposted : (after s (.step i ch :: h)).posted
      = (after s h).posted := by
    rw [hg]
    obtain ⟨a, -, rfl⟩ := hstill
    rfl
  have hevents : (after s (.step i ch :: h)).events
      = (after s h).events.append c.machine event := by
    rw [hg]
    obtain ⟨a, -, rfl⟩ := hstill
    rfl
  have hlist : ∀ m, (after s (.step i ch :: h)).events.list m
      = (after s h).events.list m
        ++ if c.machine = m then [event] else [] := by
    intro m
    rw [hevents, list_append]
    split
    · rfl
    · exact (List.append_nil _).symm
  have hdeeds : ∀ m, deeds s i m (.step i ch :: h)
      = (deeds s i m h).append
        { entries := if c.machine = m then [event] else [] } := by
    intro m
    rw [deeds_own (e := .step i ch) rfl]
    simp [seen, hstored, hposted, hlist]
  refine ⟨?_, ?_, ?_, ?_⟩
  · intro m hm
    have hbefore := hd.elsewhere m hm
    have hne : c.machine ≠ m := fun he => hm he.symm
    rw [hdeeds]
    simp [Deeds.append, hbefore, hne]
  · rw [hdeeds]
    simp only [Deeds.append, List.append_nil]
    exact hd.written.later (List.suffix_cons _ h)
  · intro m
    rw [hdeeds]
    simp [Deeds.append, hd.messages m]
  · rw [hdeeds]
    simp [Deeds.append, hd.entries]

/-- What a step of the call adds, on a backend in memory. -/
theorem standing_step {r : Nat}
    (hi : (after s h).slots[i]? = some ⟨r, .lifecycle c, false⟩)
    (hstep : LifecycleStep (after s h) c ch c' g)
    (hg : after s (.step i ch :: h) = g.setSlot i ⟨r, .lifecycle c', false⟩)
    (hch : ch.inMemory = true) (ih : Standing s h i c) :
    Standing s (.step i ch :: h) i c' := by
  have hquiet : Still (after s h) g →
      ∀ m, deeds s i m (.step i ch :: h) = deeds s i m h := by
    intro hstill m
    refine deeds_unseen ?_
    rw [hg]
    exact seen_still hstill m
  cases hstep with
  | @prepared t v x a hs hv hx =>
      have hclock := change_clock c.operation v.record (after s h).ambient
      rw [hx] at hclock
      intro m
      rw [hquiet ⟨_, le_trans hclock a.clock_le_now, rfl⟩]
      exact ih.reading hs m
  | unknown hs hop he =>
      intro m
      rw [hquiet ⟨_, (after s h).ambient.clock_le_now, rfl⟩]
      exact ih.reading hs m
  | @kept t v a c' g hs hv hx hc hstill =>
      exact hc.standing (did_keep hv hx fun m =>
        (hquiet hstill m).trans (ih.reading hs m))
  | rejected hs hv hx hstill =>
      intro m
      rw [hquiet hstill]
      exact ih.reading hs m
  | unread hs he hc hstill =>
      refine hc.standing fun m => ?_
      rw [hquiet hstill]
      exact ih.reading hs m
  | unwritten hw he hc hstill =>
      refine hc.standing fun m => ?_
      rw [hquiet hstill]
      exact ih.writing hw m
  | @wrote t w c' g hw hon hfit hc hstill =>
      have hdid := did_write hi hw (ih.writing hw) hfit hstill hg
      rcases hc with ⟨req, hop, rfl⟩ | ⟨hop, hc⟩
      · exact hdid
      · refine hc.standing ?_
        rw [messages_eq_nil hop]
        exact hdid
  | lost hw hc hstill => cases hch
  | @published ch sent x c' g hs hhow hc hstill =>
      obtain ⟨req, hop⟩ := (proper hi).publishing x hs
      unfold Standing at ih
      rw [hs] at ih
      rcases hhow with ⟨t, rfl, rfl⟩ | ⟨e, rfl⟩
      · exact hc.standing (did_post hop ih hstill hg)
      · cases hch
  | @recorded ch x event g added hs hhow hstill =>
      obtain ⟨created, words, hentry⟩ := (proper hi).recording x event hs
      have hkind := c.operation.entry_kind created
      rw [hentry] at hkind
      unfold Standing at ih
      rw [hs] at ih
      rcases hhow with ⟨t, rfl, rfl⟩ | ⟨e, rfl, -⟩ | ⟨e, rfl, -⟩
      · show Did _ _ _ _ _ _ _ c.operation.kind?.toList
        rw [← hkind]
        exact did_enter ih hstill hg
      · cases hch
      · cases hch
  | resumed hs hstill =>
      intro m
      rw [hquiet hstill]
      unfold Standing at ih
      rw [hs] at ih
      exact ih m

/-- What a call has done, at every moment of every history. -/
theorem standing (hm : InMemory h) {r : Nat}
    (hi : (after s h).slots[i]? = some ⟨r, .lifecycle c, d⟩) :
    Standing s h i c := by
  induction h generalizing c d with
  | nil => cases hi
  | cons e h ih =>
      have ih := fun {c d} => @ih c d fun e' he =>
        hm e' (List.mem_cons_of_mem e he)
      have hi' := hi
      rw [after_cons] at hi'
      have hstep := slot_step hi'
      generalize hg : (after s h).step e = g at hstep
      cases hstep with
      | same hi he => exact (ih hi).later (deeds_other he)
      | idle hi =>
          refine (ih hi).later fun m => deeds_unseen ?_
          rw [after_cons, hg]
          exact seen_same rfl rfl rfl
      | submitted hnone =>
          intro m
          rw [deeds_other (by rintro ⟨⟩)]
          exact deeds_none hnone m
      | @advanced ch r t t' g hi ht =>
          cases ht with
          | lifecycle hstep =>
              have hch : ch.inMemory = true := hm _ List.mem_cons_self
              exact standing_step hi hstep hg hch (ih hi)
      | dropped hbefore =>
          refine (ih hbefore).later fun m => deeds_unseen ?_
          rw [after_cons]
          simp only [step, giveUp, hbefore]
          exact seen_same rfl rfl rfl

-- ============================================================ the theorem

/-- What a call leaves behind that has returned the record `x`. -/
structure Done (s : Setting) (h : History) (i : Nat) (c : Lifecycle.Call)
    (x : MachineRecord) : Prop where
  did : Did s h i c.machine c.operation x
    (c.operation.message? s.topic c.machine).toList
    c.operation.kind?.toList
  /-- Registrations, allocations and reports write in any case. -/
  always : ¬ c.operation.Optional →
    ∃ v, (deeds s i c.machine h).versions = [v]
  /-- Others write what is different from the version before. -/
  differs : c.operation.Optional →
    ∀ v, (deeds s i c.machine h).versions = [v] →
      ∃ ch q u y a b, (.step i ch :: q) <:+ h
        ∧ (after s q).stored c.machine = some u
        ∧ (after s (.step i ch :: q)).stored c.machine = some v
        ∧ c.operation.change u.record a = (.ok (some y), b)
        ∧ x = { y with changedAt := b.now.1 } ∧ y ≠ u.record

theorem Did.done {x : MachineRecord}
    (hd : Did s h i c.machine c.operation x
      (c.operation.message? s.topic c.machine).toList
      c.operation.kind?.toList) : Done s h i c x where
  did := hd
  always hop := by
    have hw := hd.written
    generalize (deeds s i c.machine h).versions = vs at hw
    cases hw with
    | once => exact ⟨_, rfl⟩
    | @unchanged ch q v hq hv hx hkept =>
        have hpair : c.operation.change x (after s q).ambient
            = (.ok none, (c.operation.change x (after s q).ambient).2) :=
          Prod.ext hkept rfl
        exact absurd (Operation.optional_of_none hpair) hop
  differs hop v hv := by
    have hw := hd.written
    rw [hv] at hw
    cases hw with
    | @once ch q v μ hq hfol hx hμ =>
        obtain rfl : μ = .change c.operation := by
          rcases hμ with ⟨req, hreg, -⟩ | hμ
          · rw [hreg] at hop
            exact hop.elim
          · exact hμ
        obtain ⟨ch', q', -, -, hmade, -, -⟩ := hfol.made
        have hmade := Mutation.apply_made hmade
        rw [hx] at hmade
        generalize hu : (after s q).stored c.machine = base at hmade
        cases base with
        | none => cases hmade
        | some u =>
            rw [Option.map_some] at hmade
            generalize hr : u.record = r at hmade
            cases hmade with
            | changed hy =>
                refine ⟨ch, q, u, _, _, _, hq, hu, hfol.stored,
                  hr ▸ hy, rfl, ?_⟩
                rw [hr]
                exact Operation.change_differs hop hy

/-- A request, the call that was made for it, if one was, and its
answer. -/
inductive Answered (s : Setting) (h : History) :
    Http.Request → Option Nat → Http.Response → Prop
  | atOnce {req resp} (hp : req.plan = .reply resp) :
      Answered s h req none resp
  | called {req machine op i r c d result a}
      (hp : req.plan = .call machine op)
      (hi : (after s h).slots[i]? = some ⟨r, .lifecycle c, d⟩)
      (hm : c.machine = machine) (hop : c.operation = op)
      (hs : c.stage = .finished result) :
      Answered s h req (some i) (Http.answerRecord result a).1

/-- Calls that end well have done what they are for, once, and others
have done nothing. -/
structure ExactlyOnce (s : Setting) (h : History) : Prop where
  done : ∀ i r c d x, (after s h).slots[i]? = some ⟨r, .lifecycle c, d⟩ →
    c.stage = .finished (.ok x) → Done s h i c x
  failed : ∀ i r c d e, (after s h).slots[i]? = some ⟨r, .lifecycle c, d⟩ →
    c.stage = .finished (.error e) → ∀ m, deeds s i m h = {}
  /-- A request that is answered with success was a call that ended
  well. -/
  granted : ∀ req k resp, Answered s h req k resp → resp.status = 200 →
    ∃ i r c d x, k = some i
      ∧ (after s h).slots[i]? = some ⟨r, .lifecycle c, d⟩
      ∧ req.plan = .call c.machine c.operation
      ∧ c.stage = .finished (.ok x) ∧ Done s h i c x
  refused : ∀ req k resp, Answered s h req k resp → resp.status ≠ 200 →
    ∀ i, k = some i → ∀ m, deeds s i m h = {}

theorem done_of_ok (hm : InMemory h) {r : Nat} {x : MachineRecord}
    (hi : (after s h).slots[i]? = some ⟨r, .lifecycle c, d⟩)
    (hs : c.stage = .finished (.ok x)) : Done s h i c x := by
  have hst := standing hm hi
  unfold Standing at hst
  rw [hs] at hst
  have htopic := (proper hi).topic
  refine Did.done ?_
  rw [← htopic]
  exact hst

theorem nothing_of_error (hm : InMemory h) {r : Nat} {e : ServiceError}
    (hi : (after s h).slots[i]? = some ⟨r, .lifecycle c, d⟩)
    (hs : c.stage = .finished (.error e)) (m : String) :
    deeds s i m h = {} := by
  have hst := standing hm hi
  unfold Standing at hst
  rw [hs] at hst
  exact hst m

/-- On backends in memory, whatever calls interleave, whenever the store
goes out of reach, and however many attempts are lost to others. -/
theorem exactly_once (hm : InMemory h) : ExactlyOnce s h where
  done i r c d x hi hs := done_of_ok hm hi hs
  failed i r c d e hi hs := nothing_of_error hm hi hs
  granted req k resp ha hok := by
    cases ha with
    | atOnce hp => exact absurd hok (Http.plan_strict req resp hp)
    | @called _ _ i r c d result a hp hi hmachine hop hs =>
        obtain ⟨x, rfl⟩ := (Http.answerRecord_status result a).mp hok
        exact ⟨i, r, c, d, x, rfl, hi, by rw [hmachine, hop, hp], hs,
          done_of_ok hm hi hs⟩
  refused req k resp ha hno j hj := by
    cases ha with
    | atOnce hp => cases hj
    | @called _ _ i r c d result a hp hi hmachine hop hs =>
        cases hj
        cases result with
        | ok x =>
            exact absurd ((Http.answerRecord_status _ a).mpr ⟨x, rfl⟩) hno
        | error e => exact nothing_of_error hm hi hs

/-- A machine is registered. An allocation and a second registration
read the same version, and the registration has to start over; a wiring
finds the store out of reach. -/
def crowded : History :=
  [.aside (.outage false), .step 3 (.serve 0),
    .submit 0 labRetry "m" (.attach []), .aside (.outage true),
    .step 2 (.serve 0), .step 2 (.serve 0), .step 2 (.serve 0),
    .step 2 (.serve 0), .step 2 (.serve 0), .step 1 (.serve 0),
    .step 1 (.serve 0), .step 1 (.serve 0), .step 2 (.serve 0),
    .step 1 (.serve 0),
    .submit 1 labRetry "m" (.register { partition := "p" }),
    .submit 0 labRetry "m" (.allocate
      { project := "a", hostname := "h", image := "i" }),
    .step 0 (.serve 0), .step 0 (.serve 0), .step 0 (.serve 0),
    .submit 0 labRetry "m" (.register {})]

theorem exactly_once_crowded :
    (∃ c x, (after lab crowded).slots[1]? = some ⟨0, .lifecycle c, false⟩
        ∧ c.stage = .finished (.ok x))
      ∧ (∃ c e, (after lab crowded).slots[3]?
            = some ⟨0, .lifecycle c, false⟩
        ∧ c.stage = .finished (.error e))
      ∧ ExactlyOnce lab crowded :=
  ⟨⟨_, _, rfl, rfl⟩, ⟨_, _, rfl, rfl⟩,
    exactly_once (by unfold InMemory crowded; decide)⟩

end Fleet

end ControlPlane
