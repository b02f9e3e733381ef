/-
The order of points in time, as the clock of a fleet uses it: seconds
first, nanoseconds second, leap seconds included. Every reading of the
clock (`Ambient.now`) is later than the one before, and nothing sets
the clock back.

Chain: the base layer of everything said about `changedAt`; consumed by
Bus.lean, by the step lemmas of Fleet/Calls.lean and by Chronology.lean.
-/
import Mathlib.Order.Defs.LinearOrder
import ControlPlane.Telemetry.Ambient

namespace ControlPlane.Timestamp

-- ========================================================= the order

theorem lt_iff (a b : Timestamp) :
    a < b ↔ a.secs < b.secs ∨ (a.secs = b.secs ∧ a.nanos < b.nanos) :=
  Iff.rfl

instance : LE Timestamp := ⟨fun a b => ¬ b < a⟩

theorem le_iff (a b : Timestamp) :
    a ≤ b ↔ a.secs < b.secs ∨ (a.secs = b.secs ∧ a.nanos ≤ b.nanos) := by
  have h : a ≤ b ↔ ¬ b < a := Iff.rfl
  rw [h, lt_iff]
  omega

instance : DecidableLE Timestamp :=
  fun a b => inferInstanceAs (Decidable (¬ b < a))

/-- Points in time are ordered by their seconds, then by what is behind
them. -/
instance : LinearOrder Timestamp where
  le_refl a := by rw [le_iff]; omega
  le_trans a b c hab hbc := by
    rw [le_iff] at hab hbc ⊢
    omega
  lt_iff_le_not_ge a b := by
    rw [lt_iff, le_iff, le_iff]
    omega
  le_antisymm a b hab hba := by
    rw [le_iff] at hab hba
    obtain ⟨s, n⟩ := a
    obtain ⟨s', n'⟩ := b
    simp only [mk.injEq] at hab hba ⊢
    omega
  le_total a b := by
    rw [le_iff, le_iff]
    omega
  toDecidableLE := inferInstance

/-- The next point is later. -/
theorem lt_succ (t : Timestamp) : t < t.succ := by
  rw [lt_iff]
  unfold succ
  split
  · exact Or.inr ⟨rfl, Nat.lt_succ_self _⟩
  · exact Or.inl (Int.lt_succ _)

end ControlPlane.Timestamp

namespace ControlPlane.Ambient

-- ====================================================== the readings

/-- A reading is later than all before it. -/
theorem clock_lt_now (a : Ambient) : a.clock < a.now.1 :=
  a.clock.lt_succ

theorem clock_le_now (a : Ambient) : a.clock ≤ a.now.2.clock :=
  le_of_lt a.clock_lt_now

end ControlPlane.Ambient
