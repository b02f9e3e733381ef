/-
Exact fractions that are not negative, unreduced: what is needed to
compare and to round.
-/

namespace ControlPlane

/-- `num / den` as an exact fraction, `den > 0`. -/
structure Ratio where
  num : Nat
  den : Nat
  deriving DecidableEq, Repr

namespace Ratio

/-- The order of two fractions. -/
def le (a b : Ratio) : Bool := a.num * b.den ≤ b.num * a.den

/-- The strict order of two fractions. -/
def lt (a b : Ratio) : Bool := a.num * b.den < b.num * a.den

/-- The greatest whole number that is not above a fraction. -/
def floor (r : Ratio) : Nat := r.num / r.den

/-- The nearest whole number, the even one of two. -/
def nearest (r : Ratio) : Nat :=
  let twice := 2 * (r.num % r.den)
  if twice < r.den ∨ (twice = r.den ∧ r.floor % 2 = 0) then r.floor
  else r.floor + 1

/-- A fraction times a power of two. -/
def scale (r : Ratio) (q : Int) : Ratio :=
  if 0 ≤ q then ⟨r.num * Nat.pow 2 q.toNat, r.den⟩
  else ⟨r.num, r.den * Nat.pow 2 (-q).toNat⟩

/-- `m · 2^q` as a fraction. -/
def ofBinary (m : Nat) (q : Int) : Ratio := scale ⟨m, 1⟩ q

/-- `n · 10^e` as a fraction. -/
def ofDecimal (n : Nat) (e : Int) : Ratio :=
  if 0 ≤ e then ⟨n * Nat.pow 10 e.toNat, 1⟩ else ⟨n, Nat.pow 10 (-e).toNat⟩

/-- The place of the leading binary digit of a positive fraction: the
greatest `k` for which `2^k` is not above it. The lengths of the two
numbers give it up to one. -/
def leading (r : Ratio) : Int :=
  let k : Int := (Nat.log2 r.num : Int) - (Nat.log2 r.den : Int)
  if r.lt (ofBinary 1 k) then k - 1 else k

end Ratio

end ControlPlane
