/-
Two calls that do the same at different times. Their records differ in
the readings of the clock and their versions in the revisions, and in
nothing else; a renaming pairs the values of the one with those of the
other, and what a call does next does not depend on which of the two it
was given.

# Renamings

A renaming is a set of pairs. It only ever grows, by a pair that is
later than all before it on both sides (`Upto.insert`), so it keeps the
order (`Ordered`) and with it equality (`Ordered.eq_iff`). That is all
an operation needs: it compares revisions for equality and looks at no
clock value at all.

# What is left out

The lengths of pauses. Chance's numbers are shared by all calls, so a
call that runs alone draws others; how often it pauses, and what it does
then, is the same.

The parts of a call take like to like: `Alike`, a lemma for each part.

Chain: over Calls.lean; Beside.lean adds the stores that answer.
-/
import Mathlib.Data.Option.Basic
import Mathlib.Data.Set.Insert
import ControlPlane.Proofs.Fleet.Calls

namespace ControlPlane

-- ============================================================= renamings

namespace Renaming

variable {α β : Type} [LinearOrder α] [LinearOrder β] {S : Set (α × β)}
  {a a' : α} {b b' : β}

/-- Later values stand for later ones. -/
def Ordered (S : Set (α × β)) : Prop :=
  ∀ p ∈ S, ∀ q ∈ S, p.1 < q.1 ↔ p.2 < q.2

/-- Every value stands for one only. -/
theorem Ordered.eq_iff (h : Ordered S) {p q : α × β} (hp : p ∈ S)
    (hq : q ∈ S) : p.1 = q.1 ↔ p.2 = q.2 := by
  have hpq := h p hp q hq
  have hqp := h q hq p hp
  constructor
  · intro he
    apply le_antisymm
    · exact not_lt.mp fun hlt => (hqp.mpr hlt).ne he.symm
    · exact not_lt.mp fun hlt => (hpq.mpr hlt).ne he
  · intro he
    apply le_antisymm
    · exact not_lt.mp fun hlt => (hqp.mp hlt).ne he.symm
    · exact not_lt.mp fun hlt => (hpq.mp hlt).ne he

/-- The order is kept, and nothing is renamed that is still to come. -/
structure Upto (S : Set (α × β)) (a : α) (b : β) : Prop where
  ordered : Ordered S
  below : ∀ p ∈ S, p.1 ≤ a ∧ p.2 ≤ b

theorem upto_empty (a : α) (b : β) : Upto (∅ : Set (α × β)) a b :=
  ⟨fun _ hp => absurd hp (Set.notMem_empty _),
    fun _ hp => absurd hp (Set.notMem_empty _)⟩

theorem Upto.later (h : Upto S a b) (ha : a ≤ a') (hb : b ≤ b') :
    Upto S a' b' where
  ordered := h.ordered
  below p hp := ⟨(h.below p hp).1.trans ha, (h.below p hp).2.trans hb⟩

/-- A new value may stand for a new value. -/
theorem Upto.insert (h : Upto S a b) (ha : a < a') (hb : b < b') :
    Upto (insert (a', b') S) a' b' where
  ordered := by
    -- an old pair is below the new one, on both sides
    have hold : ∀ p ∈ S, p.1 < a' ∧ p.2 < b' := fun p hp =>
      ⟨(h.below p hp).1.trans_lt ha, (h.below p hp).2.trans_lt hb⟩
    rintro p (rfl | hp) q (rfl | hq)
    · simp
    · exact iff_of_false (hold q hq).1.not_gt (hold q hq).2.not_gt
    · exact iff_of_true (hold p hp).1 (hold p hp).2
    · exact h.ordered p hp q hq
  below := by
    rintro p (rfl | hp)
    · exact ⟨le_refl _, le_refl _⟩
    · exact (h.later ha.le hb.le).below p hp

end Renaming

open Renaming

-- ======================================================== renamed values

variable {τ τ' : Set (Timestamp × Timestamp)} {ρ ρ' : Set (Int × Int)}

/-- An allocation, at another time. -/
inductive Allocation.Renamed (τ : Set (Timestamp × Timestamp))
    (x : Allocation) : Allocation → Prop
  | intro {t} (ht : (x.allocatedAt, t) ∈ τ) :
      Renamed τ x { x with allocatedAt := t }

/-- A record whose changes were made at other times. -/
inductive MachineRecord.Renamed (τ : Set (Timestamp × Timestamp))
    (r : MachineRecord) : MachineRecord → Prop
  | intro {allocation createdAt changedAt}
      (ha : Option.Rel (Allocation.Renamed τ) r.allocation allocation)
      (hc : (r.createdAt, createdAt) ∈ τ)
      (hd : (r.changedAt, changedAt) ∈ τ) :
      Renamed τ r { r with allocation, createdAt, changedAt }

/-- An entry of a history, made at another time. -/
inductive ProvisioningEvent.Renamed (τ : Set (Timestamp × Timestamp))
    (e : ProvisioningEvent) : ProvisioningEvent → Prop
  | intro {t} (ht : (e.time, t) ∈ τ) : Renamed τ e { e with time := t }

/-- A version of a record, at another revision. -/
inductive Versioned.Renamed (ρ : Set (Int × Int))
    (τ : Set (Timestamp × Timestamp)) (v : Versioned) : Versioned → Prop
  | intro {r n} (hr : v.record.Renamed τ r) (hn : (v.revision, n) ∈ ρ) :
      Renamed ρ τ v ⟨r, n⟩

theorem Allocation.Renamed.mono {x y : Allocation} (h : x.Renamed τ y)
    (ht : τ ⊆ τ') : x.Renamed τ' y := by
  cases h with
  | intro h => exact .intro (ht h)

/-- Optional values that are in a relation are in every weaker one. -/
theorem rel_mono {α : Type} {R R' : α → α → Prop} {x y : Option α}
    (h : Option.Rel R x y) (hR : ∀ a b, R a b → R' a b) :
    Option.Rel R' x y := by
  cases h with
  | none => exact .none
  | some h => exact .some (hR _ _ h)

theorem rel_cases {α : Type} {R : α → α → Prop} {x y : Option α}
    (h : Option.Rel R x y) :
    (x = none ∧ y = none) ∨ ∃ a b, x = some a ∧ y = some b ∧ R a b := by
  cases h with
  | none => exact Or.inl ⟨rfl, rfl⟩
  | some h => exact Or.inr ⟨_, _, rfl, rfl, h⟩

theorem rel_isSome {α : Type} {R : α → α → Prop} {x y : Option α}
    (h : Option.Rel R x y) : y.isSome = x.isSome := by
  cases h with
  | none => rfl
  | some h => rfl

theorem MachineRecord.Renamed.mono {r r' : MachineRecord}
    (h : r.Renamed τ r') (ht : τ ⊆ τ') : r.Renamed τ' r' := by
  cases h with
  | intro ha hc hd =>
      exact .intro (rel_mono ha fun _ _ h => h.mono ht) (ht hc) (ht hd)

theorem ProvisioningEvent.Renamed.mono {e e' : ProvisioningEvent}
    (h : e.Renamed τ e') (ht : τ ⊆ τ') : e.Renamed τ' e' := by
  cases h with
  | intro h => exact .intro (ht h)

theorem Versioned.Renamed.mono {v v' : Versioned} (h : v.Renamed ρ τ v')
    (hr : ρ ⊆ ρ') (ht : τ ⊆ τ') : v.Renamed ρ' τ' v' := by
  cases h with
  | intro hx hn => exact .intro (hx.mono ht) (hr hn)

theorem Versioned.Renamed.record {v v' : Versioned}
    (h : v.Renamed ρ τ v') : v.record.Renamed τ v'.record := by
  cases h with
  | intro hr hn => exact hr

theorem MachineRecord.Renamed.id {r r' : MachineRecord}
    (h : r.Renamed τ r') : r'.id = r.id := by
  cases h
  rfl

theorem MachineRecord.Renamed.isAllocated {r r' : MachineRecord}
    (h : r.Renamed τ r') : r'.isAllocated = r.isAllocated := by
  cases h with
  | intro ha hc hd => exact rel_isSome ha

/-- An outcome in place of another: both fail for the same reason, or
neither does. -/
inductive Outcome {ε α : Type} (R : α → α → Prop) :
    Except ε α → Except ε α → Prop
  | error (e : ε) : Outcome R (.error e) (.error e)
  | ok {x y : α} (h : R x y) : Outcome R (.ok x) (.ok y)

theorem Outcome.mono {ε α : Type} {R R' : α → α → Prop}
    {x y : Except ε α} (h : Outcome R x y)
    (hR : ∀ a b, R a b → R' a b) : Outcome R' x y := by
  cases h with
  | error e => exact .error e
  | ok h => exact .ok (hR _ _ h)

-- ========================================================== renamed calls

open Lifecycle (Call Stage)

/-- A call that stands where another one stands. -/
inductive Lifecycle.Stage.Renamed (ρ : Set (Int × Int))
    (τ : Set (Timestamp × Timestamp)) : Stage → Stage → Prop
  | reading : Renamed ρ τ .reading .reading
  | creating {r r'} (hr : r.Renamed τ r') :
      Renamed ρ τ (.creating r) (.creating r')
  | writing {v v' r r'} (hv : v.Renamed ρ τ v') (hr : r.Renamed τ r') :
      Renamed ρ τ (.writing v r) (.writing v' r')
  | pausing (d d' : Duration) : Renamed ρ τ (.pausing d) (.pausing d')
  | publishing {r r'} (hr : r.Renamed τ r') :
      Renamed ρ τ (.publishing r) (.publishing r')
  | recording {r r' e e'} (hr : r.Renamed τ r') (he : e.Renamed τ e') :
      Renamed ρ τ (.recording r e) (.recording r' e')
  | finished {x x'} (hx : Outcome (MachineRecord.Renamed τ) x x') :
      Renamed ρ τ (.finished x) (.finished x')

/-- A call of the same operation that has made as many attempts, and
stands where the other one stands. -/
inductive Lifecycle.Call.Renamed (ρ : Set (Int × Int))
    (τ : Set (Timestamp × Timestamp)) (c : Call) : Call → Prop
  | intro {stage} (h : c.stage.Renamed ρ τ stage) :
      Renamed ρ τ c (c.goto stage)

theorem Lifecycle.Stage.Renamed.mono {s s' : Stage}
    (h : s.Renamed ρ τ s') (hr : ρ ⊆ ρ') (ht : τ ⊆ τ') :
    s.Renamed ρ' τ' s' := by
  cases h with
  | reading => exact .reading
  | creating hx => exact .creating (hx.mono ht)
  | writing hv hx => exact .writing (hv.mono hr ht) (hx.mono ht)
  | pausing d d' => exact .pausing d d'
  | publishing hx => exact .publishing (hx.mono ht)
  | recording hx he => exact .recording (hx.mono ht) (he.mono ht)
  | finished hx => exact .finished (hx.mono fun _ _ h => h.mono ht)

theorem Lifecycle.Call.Renamed.mono {c c' : Call} (h : c.Renamed ρ τ c')
    (hr : ρ ⊆ ρ') (ht : τ ⊆ τ') : c.Renamed ρ' τ' c' := by
  cases h with
  | intro h => exact .intro (h.mono hr ht)

-- ==================================================== the parts of a call

/-- A reading of the one clock may stand for one of the other. -/
theorem read_now {a a' : Ambient} (h : Upto τ a.clock a'.clock) :
    Upto (insert (a.now.1, a'.now.1) τ) a.now.2.clock a'.now.2.clock :=
  h.insert a.clock_lt_now a'.clock_lt_now

/-- Two steps lead to calls alike, wherever the clocks stand; what they
read of the clocks is renamed as well. -/
def Alike (ρ : Set (Int × Int)) (τ : Set (Timestamp × Timestamp))
    (k k' : Move Call) : Prop :=
  ∀ l l', Upto τ l.ambient.clock l'.ambient.clock →
    ∃ τ', τ ⊆ τ'
      ∧ Upto τ' (k l).2.ambient.clock (k' l').2.ambient.clock
      ∧ (k l).1.Renamed ρ τ' (k' l').1

variable {c : Call} {r r' : MachineRecord} {v v' : Versioned}

/-- The end of a call. -/
theorem finished_alike {x x' : Except ServiceError MachineRecord}
    (h : Outcome (MachineRecord.Renamed τ) x x') :
    (c.goto (.finished x)).Renamed ρ τ (c.goto (.finished x')) :=
  .intro (c := c.goto (.finished x)) (.finished h)

/-- Steps that say something first, or do anything else but read the
clock, are as much alike. -/
theorem record_alike (c : Call) (hr : r.Renamed τ r') (created : Bool) :
    Alike ρ τ (c.record r created) (c.record r' created) := by
  intro l l' hl
  unfold Call.record
  cases c.operation.entry created with
  | none => exact ⟨τ, subset_rfl, hl, finished_alike (.ok hr)⟩
  | some entry =>
      have hsub := Set.subset_insert (l.ambient.now.1, l'.ambient.now.1) τ
      refine ⟨_, hsub, read_now hl, ?_⟩
      have he : ProvisioningEvent.Renamed
          (insert (l.ambient.now.1, l'.ambient.now.1) τ)
          ⟨entry.1, entry.2, l.ambient.now.1⟩
          ⟨entry.1, entry.2, l'.ambient.now.1⟩ :=
        .intro (Set.mem_insert _ _)
      exact Lifecycle.Call.Renamed.intro
        (c := c.goto (.recording r ⟨entry.1, entry.2, l.ambient.now.1⟩))
        (.recording (hr.mono hsub) he)

theorem written_alike (c : Call) (hr : r.Renamed τ r') (created : Bool) :
    Alike ρ τ (c.written r created) (c.written r' created) := by
  intro l l' hl
  unfold Call.written
  cases c.operation with
  | register req => exact record_alike c hr created (l.say _) (l'.say _) hl
  | allocate req =>
      exact ⟨τ, subset_rfl, hl,
        Lifecycle.Call.Renamed.intro (c := c.goto (.publishing r))
          (.publishing hr)⟩
  | _ => exact record_alike c hr created l l' hl

/-- Whether there is another attempt, and with which pace, is not up to
chance; only the length of the pause is. -/
theorem again_alike (op : String) (s : RetrySettings) (p : Pacing) :
    (∀ a, p.again op s a = none)
      ∨ ∃ p', ∀ a, ∃ d a', p.again op s a = some (d, p', a')
          ∧ a'.clock = a.clock := by
  by_cases hb : p.attempts < s.budget
  · refine Or.inr ⟨⟨p.attempts + 1, s.grow p.interval⟩, fun a => ?_⟩
    simp only [Pacing.again, Pacing.next, if_pos hb]
    exact ⟨_, _, rfl, rfl⟩
  · refine Or.inl fun a => ?_
    simp only [Pacing.again, Pacing.next, if_neg hb]

theorem attemptFailed_alike (c : Call) (e : StoreError) :
    Alike ρ τ (c.attemptFailed e) (c.attemptFailed e) := by
  intro l l' hl
  have hfail : (c.fail (.ofStore e)).Renamed ρ τ (c.fail (.ofStore e)) :=
    finished_alike (.error _)
  unfold Call.attemptFailed
  cases e.isConflict with
  | false => exact ⟨τ, subset_rfl, hl, hfail⟩
  | true =>
      rcases again_alike c.operation.name c.retry c.pacing with h | ⟨p, h⟩
      · rw [if_pos rfl, if_pos rfl, h, h]
        exact ⟨τ, subset_rfl, hl, hfail⟩
      · obtain ⟨d, a, hd, ha⟩ := h l.ambient
        obtain ⟨d', a', hd', ha'⟩ := h l'.ambient
        rw [if_pos rfl, if_pos rfl, hd, hd']
        refine ⟨τ, subset_rfl, ?_, ?_⟩
        · show Upto τ a.clock a'.clock
          rw [ha, ha']
          exact hl
        · exact Lifecycle.Call.Renamed.intro
            (c := { c with pacing := p, stage := .pausing d })
            (.pausing d d')

/-- Two operations have ended alike, and the clocks have moved on. -/
def Changed (τ : Set (Timestamp × Timestamp))
    (x x' : Except ServiceError (Option MachineRecord) × Ambient) : Prop :=
  ∃ τ', τ ⊆ τ' ∧ Upto τ' x.2.clock x'.2.clock
    ∧ Outcome (Option.Rel (MachineRecord.Renamed τ')) x.1 x'.1

/-- An operation that does not look at the clock. -/
theorem changed_still {a a' : Ambient}
    {x x' : Except ServiceError (Option MachineRecord)}
    (ha : Upto τ a.clock a'.clock)
    (hx : Outcome (Option.Rel (MachineRecord.Renamed τ)) x x') :
    Changed τ (x, a) (x', a') :=
  ⟨τ, subset_rfl, ha, hx⟩

/-- An operation changes records alike into records alike. -/
theorem change_alike (op : Operation) (hr : r.Renamed τ r')
    {a a' : Ambient} (ha : Upto τ a.clock a'.clock) :
    Changed τ (op.change r a) (op.change r' a') := by
  have halloc := hr.isAllocated
  cases hr with
  | @intro x t u hx hc hd =>
  have hcases := rel_cases hx
  cases op with
  | register req =>
      refine changed_still ha (.ok (.some ?_))
      by_cases hp : req.partition = ""
      · simp only [if_pos hp]
        exact .intro hx hc hd
      · simp only [if_neg hp]
        exact .intro hx hc hd
  | attach connections =>
      simp only [Operation.change, MachineRecord.attachCount]
      by_cases hn : countNew r.connections connections = 0
      · simp only [hn, if_true]
        exact changed_still ha (.ok .none)
      · simp only [hn, if_false]
        exact changed_still ha (.ok (.some (.intro hx hc hd)))
  | allocate req =>
      simp only [Operation.change, halloc]
      cases r.isAllocated with
      | true => exact changed_still ha (.error _)
      | false =>
          have hsub := Set.subset_insert (a.now.1, a'.now.1) τ
          refine ⟨_, hsub, read_now ha, .ok (.some ?_)⟩
          refine .intro (.some ?_) (hsub hc) (hsub hd)
          exact Allocation.Renamed.intro (x := .ofRequest req a.now.1)
            (Set.mem_insert _ _)
  | assignVrf vrf =>
      rcases hcases with ⟨hr, rfl⟩ | ⟨y, _, hr, rfl, ⟨ht⟩⟩
      · simp only [Operation.change, hr]
        exact changed_still ha (.error _)
      · simp only [Operation.change, hr]
        by_cases hv : y.vrf = some vrf
        · simp only [hv, if_true]
          exact changed_still ha (.ok .none)
        · simp only [hv, if_false]
          exact changed_still ha
            (.ok (.some (.intro (.some (.intro ht)) hc hd)))
  | report req =>
      rcases hcases with ⟨hr, rfl⟩ | ⟨y, _, hr, rfl, ⟨ht⟩⟩
      · simp only [Operation.change, hr]
        exact changed_still ha (.error _)
      · simp only [Operation.change, hr]
        exact changed_still ha
          (.ok (.some (.intro (.some (.intro ht)) hc hd)))
  | abortReinstall diskWiped =>
      rcases hcases with ⟨hr, rfl⟩ | ⟨y, _, hr, rfl, ⟨ht⟩⟩
      · simp only [Operation.change, hr]
        exact changed_still ha (.ok .none)
      · simp only [Operation.change, hr]
        cases y.reinstall && ! diskWiped with
        | false => exact changed_still ha (.ok .none)
        | true =>
            exact changed_still ha
              (.ok (.some (.intro (.some (.intro ht)) hc hd)))

/-- A call that found records alike. -/
theorem found_alike (c : Call) (hv : v.Renamed ρ τ v') :
    Alike ρ τ (c.found v) (c.found v') := by
  intro l l' hl
  have hr := hv.record
  obtain ⟨τ', hsub, hl', hx⟩ := change_alike c.operation hr hl
  unfold Call.found
  generalize c.operation.change v.record l.ambient = x at hl' hx
  generalize c.operation.change v'.record l'.ambient = x' at hl' hx
  obtain ⟨x, a⟩ := x
  obtain ⟨x', a'⟩ := x'
  cases hx with
  | error e => exact ⟨τ', hsub, hl', finished_alike (.error e)⟩
  | ok hx =>
      cases hx with
      | none =>
          obtain ⟨τ'', hsub', hup, hc⟩ := record_alike (ρ := ρ) c
            (hr.mono hsub) false (Local.say { l with ambient := a } _)
            (Local.say { l' with ambient := a' } _) hl'
          exact ⟨τ'', hsub.trans hsub', hup, hc⟩
      | @some r r' hr =>
          have hnew := Set.subset_insert (a.now.1, a'.now.1) τ'
          refine ⟨_, hsub.trans hnew, read_now hl', ?_⟩
          have hw : MachineRecord.Renamed
              (insert (a.now.1, a'.now.1) τ')
              { r with changedAt := a.now.1 }
              { r' with changedAt := a'.now.1 } := by
            cases hr with
            | intro hx hc hd =>
                exact .intro (rel_mono hx fun _ _ h => h.mono hnew)
                  (hnew hc) (Set.mem_insert _ _)
          exact Lifecycle.Call.Renamed.intro
            (c := c.goto (.writing v { r with changedAt := a.now.1 }))
            (.writing (hv.mono subset_rfl (hsub.trans hnew)) hw)

/-- A registration creates records alike. -/
theorem created_alike (req : RegisterRequest) (m : String)
    {t t' : Timestamp} (ht : (t, t') ∈ τ) :
    (Operation.created req m t).Renamed τ (Operation.created req m t') :=
  .intro .none ht ht

theorem missed_alike (c : Call) (e : StoreError) :
    Alike ρ τ (c.missed e) (c.missed e) := by
  intro l l' hl
  unfold Call.missed
  split
  · rename_i req id hop
    have hsub := Set.subset_insert (l.ambient.now.1, l'.ambient.now.1) τ
    refine ⟨_, hsub, read_now hl, ?_⟩
    exact Lifecycle.Call.Renamed.intro
      (c := c.goto (.creating (Operation.created req c.machine
        l.ambient.now.1)))
      (.creating (created_alike req c.machine (Set.mem_insert _ _)))
  · exact attemptFailed_alike c _ l l' hl

theorem published_alike (c : Call) (hr : r.Renamed τ r')
    (answer : Except BusError Unit) :
    Alike ρ τ (c.published r answer) (c.published r' answer) := by
  intro l l' hl
  have hsaid : ∀ l : Local,
      (Notifier.published c.machine c.topic answer l).ambient.clock
        = l.ambient.clock := by
    intro l
    cases answer with
    | ok x => rfl
    | error e => rfl
  have hl' : Upto τ
      (Notifier.published c.machine c.topic answer l).ambient.clock
      (Notifier.published c.machine c.topic answer l').ambient.clock := by
    rw [hsaid, hsaid]
    exact hl
  unfold Call.published
  cases c.operation with
  | allocate req =>
      exact record_alike c hr false (Local.say _ _) (Local.say _ _) hl'
  | _ => exact record_alike c hr false _ _ hl'

theorem recorded_alike (c : Call) (hr : r.Renamed τ r')
    (kind : EventKind) (answer : Except StoreError Unit) :
    Alike ρ τ (c.recorded r kind answer) (c.recorded r' kind answer) := by
  intro l l' hl
  cases answer with
  | ok x => exact ⟨τ, subset_rfl, hl, finished_alike (.ok hr)⟩
  | error e => exact ⟨τ, subset_rfl, hl, finished_alike (.ok hr)⟩

/-- A call that looked takes answers alike. -/
theorem looked_alike (c : Call) {x x' : Except StoreError Versioned} :
    Outcome (Versioned.Renamed ρ τ) x x' →
      Alike ρ τ
        (match x with
          | .ok v => c.found v
          | .error e => c.missed e)
        (match x' with
          | .ok v => c.found v
          | .error e => c.missed e) := by
  intro hx
  cases hx with
  | error e => exact missed_alike c e
  | ok hv => exact found_alike c hv

/-- A call that attempted to write takes answers alike. -/
theorem answered_alike (c : Call) (created : Bool)
    {x x' : Except StoreError Versioned} :
    Outcome (Versioned.Renamed ρ τ) x x' →
      Alike ρ τ
        (match x with
          | .ok v => c.written v.record created
          | .error e => c.attemptFailed e)
        (match x' with
          | .ok v => c.written v.record created
          | .error e => c.attemptFailed e) := by
  intro hx
  cases hx with
  | error e => exact attemptFailed_alike c e
  | ok hv =>
      cases hv with
      | intro hr hn => exact written_alike c hr created

end ControlPlane
