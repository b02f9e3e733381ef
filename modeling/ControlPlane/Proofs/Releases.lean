/-
Every way out of a wait lets go of its signal, and does so once. What a
replica's registry keeps is then nothing but the calls that are blocked:
an entry for each of their machines, held as often as there are calls
(`released_once`). Nothing is left behind when all of them are over, and
registering, which fails on a closed signal only, never does.

# Two invariants meet

- The registry's books (`Registry.Tracks`) say that entries and counts
  are those of the live registrations, whoever does what. Here the
  registrations are the holds of the calls (`grips`), and every event
  takes one, gives one back, or leaves them alone (`Gripped`).
- A hold stands under its machine and is open (`Kept`) as long as nobody
  else takes signals of the replica away. This is what rules the closed
  signal out.

Chain: over Registrations.lean and Holds.lean.
-/
import ControlPlane.Proofs.Fleet.Holds
import ControlPlane.Proofs.Registrations

namespace ControlPlane.Fleet

variable {s : Setting} {f g : Fleet} {h : History} {i k r : Nat}
  {m : String} {x x' : Slot} {a : Registration}

-- ============================================================== the holds

/-- The registration that a call holds on replica `r`. -/
def Slot.grip? (r : Nat) (x : Slot) : Option Registration :=
  if x.replica = r then x.hold? else none

/-- The registrations that calls hold on replica `r`. -/
def grips (f : Fleet) (r : Nat) : List Registration :=
  f.slots.filterMap (Slot.grip? r)

theorem grip_iff : x.grip? r = some a
    ↔ x.replica = r ∧ x.hold? = some a := by
  unfold Slot.grip?
  split
  · rename_i hr
    simp only [hr, true_and]
  · rename_i hr
    simp only [hr, false_and, reduceCtorEq]

theorem mem_grips : a ∈ f.grips r
    ↔ ∃ x ∈ f.slots, x.replica = r ∧ x.hold? = some a := by
  simp only [grips, List.mem_filterMap, grip_iff]

theorem held_grip (ha : a ∈ f.grips r) :
    f.Held r a.generation a.machine := by
  obtain ⟨x, hx, hr, hh⟩ := mem_grips.mp ha
  obtain ⟨j, hj⟩ := List.getElem?_of_mem hx
  exact ⟨j, x, a, hj, hr, hh, rfl, rfl⟩

/-- What the calls of a replica hold before and after one call has
moved: what that call holds, and the same as before. -/
theorem grips_set (hi : f.slots[i]? = some x)
    (hslots : g.slots = f.slots.set i x') (r : Nat) :
    ∃ rest, (f.grips r).Perm ((x.grip? r).toList ++ rest)
      ∧ (g.grips r).Perm ((x'.grip? r).toList ++ rest) := by
  have hcons : ∀ (y : Slot) (l : List Slot),
      (y :: l).filterMap (Slot.grip? r)
        = (y.grip? r).toList ++ l.filterMap (Slot.grip? r) := by
    intro y l
    rw [List.filterMap_cons]
    cases y.grip? r <;> rfl
  obtain ⟨hf, hg⟩ := Registry.perm_set hi x'
  refine ⟨(f.slots.eraseIdx i).filterMap (Slot.grip? r), ?_, ?_⟩
  · rw [← hcons]
    exact hf.filterMap _
  · rw [← hcons, grips, hslots]
    exact hg.filterMap _

-- ============================================================== the books

theorem tracks_still (ht : (f.registries r).Tracks (f.grips r))
    (hslots : g.slots = f.slots)
    (hreg : g.registries r = f.registries r) :
    (g.registries r).Tracks (g.grips r) := by
  rw [hreg, grips, hslots]
  exact ht

/-- A call that takes hold, lets go or keeps to what it has leaves the
books right. -/
theorem tracks_moved (ht : (f.registries r).Tracks (f.grips r))
    (hi : f.slots[i]? = some x) (hslots : g.slots = f.slots.set i x')
    (hr : x'.replica = x.replica)
    (hgrip : Grip m (f.registries x.replica) (g.registries x.replica)
      x.hold? x'.hold?)
    (hothers : ∀ j, j ≠ x.replica → g.registries j = f.registries j) :
    (g.registries r).Tracks (g.grips r) := by
  obtain ⟨rest, hf, hg⟩ := grips_set hi hslots r
  unfold Slot.grip? at hf hg
  rw [hr] at hg
  by_cases hrx : x.replica = r
  · subst hrx
    rw [if_pos rfl] at hf hg
    have hf := ht.perm hf
    refine Registry.Tracks.perm ?_ hg.symm
    generalize x.hold? = before at hgrip hf
    generalize x'.hold? = later at hgrip
    generalize g.registries x.replica = reg at hgrip
    cases hgrip with
    | free => exact hf
    | kept hm hgen => exact hf.observed hm hgen
    | taken hreg => exact hf.register hreg
    | released => exact hf.release
  · rw [if_neg hrx] at hf hg
    rw [hothers r (Ne.symm hrx)]
    exact (ht.perm hf).perm hg.symm

/-- What is heard fires a signal, or nothing. -/
theorem tracks_heard (ht : (f.registries r).Tracks (f.grips r)) (i : Nat)
    (payload : Json) :
    ((f.heard i payload).registries r).Tracks
      ((f.heard i payload).grips r) := by
  unfold heard
  cases told? payload with
  | none => exact ht
  | some m =>
      by_cases hri : r = i
      · subst hri
        show (((f.setRegistry r _).registries r)).Tracks (f.grips r)
        rw [setRegistry_self, Registry.notified]
        cases (f.registries r).lookup m with
        | none => exact ht
        | some n => exact ht.fire n true
      · exact tracks_still ht rfl (setRegistry_of_ne _ hri)

theorem tracks_aside (ht : (f.registries r).Tracks (f.grips r))
    {a : Aside} (h : AsideStep f a g) :
    (g.registries r).Tracks (g.grips r) := by
  cases h with
  | clock hg =>
      obtain ⟨b, -, rfl⟩ := hg
      exact tracks_still ht rfl rfl
  | @delivered k other m n g hk hg =>
      obtain ⟨b, -, rfl⟩ := hg
      rcases f.received_cases n m.payload with hr | ⟨j, -, hr⟩
      · rw [hr]
        exact tracks_still ht rfl rfl
      · rw [hr]
        exact tracks_still (tracks_heard ht j m.payload) rfl rfl
  | @redelivered name k payload i g hk hg =>
      obtain ⟨b, -, rfl⟩ := hg
      exact tracks_still (tracks_heard ht i payload) rfl rfl
  | @removed m i =>
      by_cases hri : r = i
      · subst hri
        rw [setRegistry_self]
        exact ht.remove m
      · exact tracks_still ht rfl (setRegistry_of_ne _ hri)
  | @closed i k =>
      by_cases hri : r = i
      · subst hri
        rw [setRegistry_self]
        exact ht.close k
      · exact tracks_still ht rfl (setRegistry_of_ne _ hri)
  | _ => exact tracks_still ht rfl rfl

/-- The books of every replica are right about its calls. -/
theorem tracked (s : Setting) (h : History) (r : Nat) :
    ((after s h).registries r).Tracks ((after s h).grips r) := by
  induction h with
  | nil => exact Registry.tracks_empty
  | cons e h ih =>
      have hgrip := gripped (after s h) e
      rw [after_cons]
      generalize (after s h).step e = g at hgrip
      cases hgrip with
      | @begun _ x _ hx hslots hreg =>
          have hnone : x.grip? r = none := by
            unfold Slot.grip?
            rw [hx, ite_self]
          rw [hreg, grips, hslots, List.filterMap_append,
            List.filterMap_cons_none hnone, List.filterMap_nil,
            List.append_nil]
          exact ih
      | moved hi hslots hr hgrip hothers =>
          exact tracks_moved ih hi hslots hr hgrip hothers
      | aside ha => exact tracks_aside ih ha
      | idle => exact ih

-- ====================================================== failures within

/-- Registering never fails if nobody takes signals away. -/
theorem registers (hm : ∀ e ∈ h, e.meddlesWith r = false) (m : String) :
    ∃ a reg, ((after s h).registries r).register m = (.ok a, reg) := by
  rcases ((after s h).registries r).register_cases m with
    ⟨g, hl, -, hc, -⟩ | ⟨g, a, reg, -, -, -, hr, -⟩ | ⟨a, reg, -, hr, -⟩
  · -- an entry is held, and what is held is open
    obtain ⟨a, ha, -, rfl⟩ := (tracked s h r).entered m g hl
    exact absurd hc ((kept_here hm).opened _ _ (held_grip ha))
  · exact ⟨a, reg, hr⟩
  · exact ⟨a, reg, hr⟩

/-- A call that fails from within does so because its sink said so. -/
theorem internal_stalled (hm : ∀ e ∈ h, e.meddlesWith r = false)
    {c : Wait.Call} {d : Bool} {w : String}
    (hi : (after s h).slots[i]? = some ⟨r, .wait c, d⟩)
    (ho : outcome? c = some (.error (.internal w))) :
    ∃ q, (.step i (.stall (.internal w)) :: q) <:+ h := by
  induction h generalizing c d with
  | nil => cases hi
  | cons e h ih =>
      have hmh : ∀ e' ∈ h, e'.meddlesWith r = false :=
        fun e' he => hm e' (List.mem_cons_of_mem e he)
      have hback : ∀ {c d}, (after s h).slots[i]? = some ⟨r, .wait c, d⟩ →
          outcome? c = some (.error (.internal w)) →
          ∃ q, (.step i (.stall (.internal w)) :: q) <:+ e :: h := by
        intro c d hi ho
        obtain ⟨q, hq⟩ := ih hmh hi ho
        exact ⟨q, hq.trans (List.suffix_cons e h)⟩
      rw [after_cons] at hi
      have hstep := slot_step hi
      generalize (after s h).step e = g at hstep
      cases hstep with
      | same hi' he => exact hback hi' ho
      | idle hi' => exact hback hi' ho
      | dropped hi' => exact hback hi' ho
      | awaited hi' => cases ho
      | expired hi' hu => cases ho
      | @advanced ch _ t _ g hi' ht =>
          cases ht with
          | @wait c₀ _ _ _ hw =>
              rcases hw.failed ho with
                hbefore | (⟨x, hx⟩ | ⟨cause, hx⟩ | rfl) | ⟨x, hreg⟩
              · exact hback hi' hbefore
              · -- the store is to blame for none of these
                cases x <;> cases hx
              · cases hx
              · exact ⟨h, List.suffix_refl _⟩
              · obtain ⟨a, reg, hok⟩ := registers (s := s) hmh c₀.machine
                cases hreg.symm.trans hok

-- ================================================= nothing is left behind

/-- Is a call on replica `r` blocked for machine `m`? -/
def Slot.blocks (r : Nat) (m : String) (x : Slot) : Bool :=
  match x with
  | ⟨j, .wait c, false⟩ =>
      j == r && c.machine == m && c.stage.block?.isSome
  | _ => false

/-- Is nothing under way any more that could hold a signal? -/
def Slot.isOver : Slot → Bool
  | ⟨_, .wait c, false⟩ =>
      match c.stage with
      | .ended _ => true
      | _ => false
  | _ => true

/-- Does a keep-alive fail with something else than the loss of its
peer? -/
def Event.breaches : Event → Bool
  | step _ (.stall (.transport _)) => false
  | step _ (.stall _) => true
  | _ => false

/-- A call is blocked for the machine whose signal it holds. -/
theorem blocks_iff (hx : x ∈ (after s h).slots) : x.blocks r m = true
    ↔ x.replica = r ∧ ∃ a, x.hold? = some a ∧ a.machine = m := by
  obtain ⟨j, hj⟩ := List.getElem?_of_mem hx
  obtain ⟨n, t, d⟩ := x
  have hmachine : ∀ a, t.hold? = some a → a.machine = t.machine :=
    fun a ha => hold_machine hj ha
  cases d with
  | true =>
      constructor
      · intro hb
        cases t <;> cases hb
      · rintro ⟨-, a, ha, -⟩
        cases ha
  | false =>
      cases t with
      | lifecycle c =>
          constructor
          · intro hb
            cases hb
          · rintro ⟨-, a, ha, -⟩
            cases ha
      | wait c =>
          simp only [Slot.blocks, Bool.and_eq_true, beq_iff_eq, and_assoc]
          refine and_congr_right fun _ => ?_
          constructor
          · rintro ⟨hm, hb⟩
            obtain ⟨b, hb⟩ := Option.isSome_iff_exists.mp hb
            have ha : (Task.wait c).hold? = some b.registration := by
              simp only [Task.hold?, hb, Option.map_some]
            exact ⟨_, ha, (hmachine _ ha).trans hm⟩
          · rintro ⟨a, ha, rfl⟩
            change (Task.wait c).hold? = some a at ha
            refine ⟨(hmachine a ha).symm, ?_⟩
            unfold Task.hold? at ha
            obtain ⟨b, hb, -⟩ := Option.map_eq_some_iff.mp ha
            exact Option.isSome_of_eq_some hb

/-- What a blocked call holds stands under its machine. -/
theorem blocks_entry (hm : ∀ e ∈ h, e.meddlesWith r = false)
    (hx : x ∈ (after s h).slots) (hr : x.replica = r)
    (ha : x.hold? = some a) :
    ((after s h).registries r).lookup a.machine = some a.generation :=
  (kept_here hm).entered _ _ (held_grip (mem_grips.mpr ⟨x, hx, hr, ha⟩))

/-- An entry is held by the calls that are blocked for its machine. -/
theorem holders_blocks (hm : ∀ e ∈ h, e.meddlesWith r = false)
    (hl : ((after s h).registries r).lookup m = some k) :
    (((after s h).registries r).signal k).holders
      = (after s h).slots.countP (Slot.blocks r m) := by
  have ht := tracked s h r
  rw [ht.counted, grips, List.countP_filterMap]
  refine List.countP_congr fun x hx => ?_
  rw [blocks_iff hx]
  constructor
  · intro hk
    cases ha : x.grip? r with
    | none =>
        rw [ha] at hk
        cases hk
    | some a =>
        rw [ha] at hk
        have hgen : a.generation = k := beq_iff_eq.mp hk
        obtain ⟨hr, hh⟩ := grip_iff.mp ha
        exact ⟨hr, a, hh,
          ht.owned hl (mem_grips.mpr ⟨x, hx, hr, hh⟩) hgen⟩
  · rintro ⟨hr, a, hh, rfl⟩
    cases hl.symm.trans (blocks_entry hm hx hr hh)
    rw [grip_iff.mpr ⟨hr, hh⟩]
    exact beq_self_eq_true _

theorem over_hold (h : x.isOver = true) : x.hold? = none := by
  obtain ⟨n, t, d⟩ := x
  cases d with
  | true => rfl
  | false =>
      cases t with
      | lifecycle c => rfl
      | wait c =>
          show c.stage.block?.map _ = none
          cases hs : c.stage with
          | ended result => rfl
          | _ =>
              simp only [Slot.isOver, hs] at h
              cases h

/-- A registry that nothing can be found in is empty. -/
theorem size_of_lookup_none {reg : Registry}
    (h : ∀ m, reg.lookup m = none) : reg.size = 0 := by
  unfold Registry.size Table.size
  cases he : reg.entries.entries with
  | nil => rfl
  | cons entry rest =>
      obtain ⟨m, g⟩ := entry
      have hm := h m
      unfold Registry.lookup Table.get? at hm
      rw [he, Table.find, if_pos rfl] at hm
      cases hm

/-- What is promised of the signals of replica `r`. -/
structure ReleasedOnce (s : Setting) (h : History) (r : Nat) : Prop where
  /-- There is an entry for every machine that a call is blocked for,
  and for no other. -/
  entered : ∀ m, (∃ g, ((after s h).registries r).lookup m = some g)
    ↔ ∃ x ∈ (after s h).slots, x.blocks r m = true
  /-- It is held once for each of these calls. -/
  counted : ∀ m g, ((after s h).registries r).lookup m = some g →
    (((after s h).registries r).signal g).holders
      = (after s h).slots.countP (Slot.blocks r m)
  /-- A call that comes to register can do so. -/
  registers : ∀ m, ∃ a reg,
    ((after s h).registries r).register m = (.ok a, reg)
  /-- If sinks fail only when their peer is gone, no call fails from
  within. -/
  contained : (∀ e ∈ h, e.breaches = false) → ∀ (i : Nat) c d w,
    (after s h).slots[i]? = some ⟨r, .wait c, d⟩ →
      outcome? c ≠ some (.error (.internal w))
  /-- When all calls are over, the registry is empty, -/
  emptied : (∀ x ∈ (after s h).slots, x.replica = r → x.isOver = true) →
    ((after s h).registries r).size = 0
  /-- and every signal that was ever issued is final. -/
  closed : (∀ x ∈ (after s h).slots, x.replica = r → x.isOver = true) →
    ∀ g, g < ((after s h).registries r).signals.length →
      (((after s h).registries r).signal g).isClosed = true

/-- On a replica whose signals nobody takes away from outside, what the
registry keeps is exactly what blocked calls hold. -/
theorem released_once (hm : ∀ e ∈ h, e.meddlesWith r = false) :
    ReleasedOnce s h r := by
  have ht := tracked s h r
  have hnone : (∀ x ∈ (after s h).slots, x.replica = r →
      x.isOver = true) → ∀ a, a ∉ (after s h).grips r := by
    intro hover a ha
    obtain ⟨x, hx, hr, hh⟩ := mem_grips.mp ha
    cases (over_hold (hover x hx hr)).symm.trans hh
  refine ⟨?_, fun m g hl => holders_blocks hm hl, registers hm,
    ?_, ?_, ?_⟩
  · intro m
    constructor
    · rintro ⟨g, hl⟩
      obtain ⟨a, ha, hmach, -⟩ := ht.entered m g hl
      obtain ⟨x, hx, hr, hh⟩ := mem_grips.mp ha
      exact ⟨x, hx, (blocks_iff hx).mpr ⟨hr, a, hh, hmach⟩⟩
    · rintro ⟨x, hx, hb⟩
      obtain ⟨hr, a, hh, rfl⟩ := (blocks_iff hx).mp hb
      exact ⟨_, blocks_entry hm hx hr hh⟩
  · intro hsinks i c d w hi ho
    obtain ⟨q, hq⟩ := internal_stalled hm hi ho
    cases hsinks _ (hq.subset List.mem_cons_self)
  · intro hover
    refine size_of_lookup_none fun m => ?_
    cases hl : ((after s h).registries r).lookup m with
    | none => rfl
    | some g =>
        obtain ⟨a, ha, -⟩ := ht.entered m g hl
        exact absurd ha (hnone hover a)
  · intro hover g hg
    refine ht.abandoned g hg ?_
    rw [ht.counted, List.countP_eq_zero]
    intro a ha
    exact absurd ha (hnone hover a)

/-- A machine comes back while its first call is still blocked, and the
first call is cancelled then. -/
def comeback : History :=
  [.step 1 .cancel,
    .step 2 (.serve 2), .step 2 (.serve 2), .step 2 (.serve 2),
    .step 2 (.serve 2), .await 0 "n" ⟨⟨5⟩, ⟨9⟩⟩ labRetry "m",
    .step 1 (.serve 1), .step 1 (.serve 1), .step 1 (.serve 1),
    .step 1 (.serve 1), .await 0 "n" ⟨⟨5⟩, ⟨9⟩⟩ labRetry "m",
    .step 0 (.serve 0), .step 0 (.serve 0),
    .submit 0 labRetry "m" (.register {})]

theorem released_once_comeback :
    ReleasedOnce lab comeback 0
      ∧ ((after lab comeback).registries 0).lookup "m" = some 0
      ∧ (((after lab comeback).registries 0).signal 0).holders = 1 :=
  ⟨released_once (by unfold comeback; decide), rfl, rfl⟩

end ControlPlane.Fleet
