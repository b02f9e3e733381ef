/-
Nobody comes too late. A wait call registers right behind its marking
write, and that write is taken only while the machine is not allocated
(`entering_unallocated`); so whoever takes hold of a signal does so
before the allocation (`enters_before`), and whoever holds one for an
allocated machine has held it before (`held_before`).

# Why the scheduler matters

The write and the registration are two events here. If another one came
between them, the machine could be allocated, its message published and
handled, and the call would then register for it all the same. A task
gives way to others only where it awaits something, and between a write
in memory and the registration there is nothing to await; the histories
meant here are those in which the two are one step (`Cooperative`).

Chain: over Tenancy.lean and Versions.lean; consumed by NoLostWakeup.lean
and Redelivery.lean.
-/
import ControlPlane.Proofs.Fleet.Tenancy
import ControlPlane.Proofs.Fleet.Versions

namespace ControlPlane.Fleet

variable {s : Setting} {f : Fleet} {e : Event} {h p : History} {i n r : Nat}
  {ch : Choice} {m : String} {x' : Slot} {a : Registration}

-- ======================================================== what is assumed

/-- Has a call made a write that the next thing it does belongs to? -/
def Task.urgent : Task → Bool
  | lifecycle c =>
      match c.stage with
      | .publishing _ => true
      | _ => false
  | wait c =>
      match c.stage with
      | .entering => true
      | _ => false

def Slot.urgent (x : Slot) : Bool := !x.dropped && x.task.urgent

/-- Call `i` is to go on before anything else happens. -/
def Urgent (f : Fleet) (i : Nat) : Prop :=
  ∃ x, f.slots[i]? = some x ∧ x.urgent = true

/-- Call `i` has set the waiting flag and is about to register. -/
def Entering (f : Fleet) (i : Nat) : Prop :=
  ∃ r c, f.slots[i]? = some ⟨r, .wait c, false⟩ ∧ c.stage = .entering

theorem Entering.urgent (hi : Entering f i) : Urgent f i := by
  obtain ⟨r, c, hi, hs⟩ := hi
  refine ⟨_, hi, ?_⟩
  simp only [Slot.urgent, Task.urgent, hs]
  rfl

/-- Nothing comes between a marking write and the registration. -/
def Cooperative (s : Setting) (h : History) : Prop :=
  ∀ e p i, (e :: p) <:+ h → Entering (after s p) i → ∃ ch, e = .step i ch

theorem Cooperative.before (hc : Cooperative s h) (hp : p <:+ h) :
    Cooperative s p :=
  fun e q i hq hi => hc e q i (hq.trans hp) hi

/-- Does nothing come between a write and what belongs to it? -/
def promptly (s : Setting) : History → Bool
  | [] => true
  | e :: p =>
      ((after s p).slots.zipIdx.all fun x =>
          !x.1.urgent || match e with
            | .step i _ => i == x.2
            | _ => false)
        && promptly s p

theorem prompt_of_promptly (hb : promptly s h = true) (hp : (e :: p) <:+ h)
    (hi : (after s p).Urgent i) : ∃ ch, e = .step i ch := by
  induction h with
  | nil => cases List.suffix_nil.mp hp
  | cons e' h ih =>
      rw [promptly, Bool.and_eq_true, List.all_eq_true] at hb
      rcases List.suffix_cons_iff.mp hp with heq | hp'
      · cases heq
        obtain ⟨x, hx, hurg⟩ := hi
        have hmem : (x, i) ∈ (after s p).slots.zipIdx :=
          List.mem_zipIdx_iff_getElem?.mpr hx
        have hit := hb.1 _ hmem
        simp only [hurg, Bool.not_true, Bool.false_or] at hit
        split at hit
        · rename_i j ch
          cases (beq_iff_eq.mp hit)
          exact ⟨ch, rfl⟩
        · cases hit
      · exact ih hb.2 hp'

-- ================================================== nobody comes too late

/-- A marking write that is taken leaves its machine unallocated. -/
theorem Follows.marked {v : Versioned}
    (hfol : Follows s h i ch m .mark v) :
    ¬ (after s (.step i ch :: h)).Allocated m := by
  rintro ⟨u, hu, ha⟩
  cases hfol.stored.symm.trans hu
  obtain ⟨ch', q, -, -, hmade, -, -⟩ := hfol.made
  have hterms := Mutation.apply_made hmade
  generalize ((after s h).stored m).map Versioned.record = base at hterms
  generalize v.record = x at hterms ha
  cases hterms with
  | marked hr => cases hr.symm.trans ha

/-- A call that has set the waiting flag, and is about to register, is
about a machine that is not allocated. -/
theorem entering_unallocated (hc : Cooperative s h) {c : Wait.Call}
    (hi : (after s h).slots[i]? = some ⟨r, .wait c, false⟩)
    (hs : c.stage = .entering) : ¬ (after s h).Allocated c.machine := by
  induction h generalizing r c with
  | nil => cases hi
  | cons e h ih =>
      have hcb := hc.before (List.suffix_cons e h)
      rw [after_cons] at hi
      have hstep := slot_step hi
      generalize hg : (after s h).step e = g at hstep
      cases hstep with
      | same hi' he =>
          -- the call was about to register before: the event is its own
          obtain ⟨ch, rfl⟩ := hc e h i (List.suffix_refl _)
            ⟨r, c, hi', hs⟩
          exact absurd rfl he
      | idle hi' =>
          rw [after_cons, hg]
          exact ih hcb hi' hs
      | awaited hi' => cases hs
      | expired hi' hunder => cases hs
      | @advanced ch _ t _ g hi' ht =>
          cases ht with
          | @wait c₀ _ _ _ hw =>
              cases hw with
              | @marked tm old next g h1 hon hfit hst =>
                  obtain ⟨-, μ, hfol⟩ := follows_of_fits (.serve tm) hi'
                    (by simp only [Task.write?, h1]) hfit (by
                      rw [after_cons, hg]
                      obtain ⟨a, -, rfl⟩ := hst
                      rfl)
                  obtain ⟨r', t', hi'', -, hμ⟩ := hfol.call
                  cases hi'.symm.trans hi''
                  have hmark : μ = .mark := by
                    simp only [Task.mutation?, h1] at hμ
                    exact (Option.some.inj hμ).symm
                  rw [hmark] at hfol
                  exact hfol.marked
              | @stays ch b st b' g h1 hb =>
                  cases (show st = .entering from hs)
                  cases hb
              | clearUnread h1 he hc => exact absurd hs hc.away.1
              | unclear h1 he hc => exact absurd hs hc.away.1
              | clearLost h1 hc => exact absurd hs hc.away.1
              | _ => cases hs

/-- A call that takes hold of a signal does so while its machine is not
allocated. -/
theorem enters_before (hc : Cooperative s (e :: h))
    (hx : ∀ x, (after s h).slots[i]? = some x → x.hold? = none)
    (hi' : (after s (e :: h)).slots[i]? = some x')
    (hx' : x'.hold? = some a) :
    ¬ (after s (e :: h)).Allocated a.machine := by
  have hcb := hc.before (List.suffix_cons e h)
  rw [hold_machine hi' (by
    unfold Slot.hold? at hx'
    split at hx'
    · cases hx'
    · exact hx')]
  rw [after_cons] at hi' ⊢
  have hstep := slot_step hi'
  generalize (after s h).step e = g at hstep
  cases hstep with
  | same hs he => cases (hx _ hs).symm.trans hx'
  | idle hs => cases (hx _ hs).symm.trans hx'
  | submitted hs => cases hx'
  | awaited hs => cases hx'
  | expired hs hunder => cases hx'
  | dropped hs => cases hx'
  | @advanced ch r t t' g hs ht =>
      have hnone := hx _ hs
      have haway : ∀ {c c' : Wait.Call} {b : Pacing} {y : StoreError},
          ClearFailed c b y c' → (Task.wait c').hold? ≠ some a := by
        intro c c' b y hc heq
        rw [Task.hold?, hc.away.2] at heq
        cases heq
      cases ht with
      | lifecycle hw => cases hx'
      | @wait c _ _ _ hw =>
          cases hw with
          | entered h1 hr hg =>
              -- registering leaves the records alone
              obtain ⟨b, -, rfl⟩ := hg
              exact entering_unallocated (c := c) hcb hs h1
          | stays h1 hb =>
              simp only [Slot.hold?, Task.hold?, h1] at hnone
              cases hnone
          | clearUnread h1 he hc => exact absurd hx' (haway hc)
          | unclear h1 he hc => exact absurd hx' (haway hc)
          | clearLost h1 hc => exact absurd hx' (haway hc)
          | _ => cases hx'

/-- Whoever holds a signal for an allocated machine has held it
before. -/
theorem held_before (hc : Cooperative s (e :: h))
    (ha : (after s (e :: h)).Allocated m)
    (hh : (after s (e :: h)).Held r n m) : (after s h).Held r n m := by
  obtain ⟨j, x', a, hj, hr, hx', hn, hm⟩ := hh
  have hold : ¬ ∀ x, (after s h).slots[j]? = some x → x.hold? = none :=
    fun hnone => enters_before hc hnone hj hx' (hm ▸ ha)
  rw [after_cons] at hj
  have hstep := slot_step hj
  generalize (after s h).step e = g at hstep
  cases hstep with
  | same hs he => exact ⟨j, x', a, hs, hr, hx', hn, hm⟩
  | idle hs => exact ⟨j, x', a, hs, hr, hx', hn, hm⟩
  | submitted hs => cases hx'
  | awaited hs => cases hx'
  | expired hs hunder => cases hx'
  | dropped hs => cases hx'
  | @advanced ch r' t t' g hs ht =>
      have hgrip := ht.grip
      have hold : t.hold? ≠ none := by
        intro hnone
        refine hold fun x hx => ?_
        cases hx.symm.trans hs
        exact hnone
      change t'.hold? = some a at hx'
      generalize hb : t.hold? = before at hgrip hold
      generalize g.registries r' = reg at hgrip
      rw [hx'] at hgrip
      cases hgrip with
      | @kept b _ hm' hg' =>
          exact ⟨j, _, b, hs, hr, hb, hg'.symm.trans hn,
            hm'.symm.trans hm⟩
      | taken => exact absurd rfl hold

end ControlPlane.Fleet
