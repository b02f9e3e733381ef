/-
Doubles: numbers of 53 binary digits, as their exact values. An operation
takes the exact result and rounds it to the nearest double, the one with
an even last digit of two; so every function here computes on whole
numbers alone.
-/
import ControlPlane.Number.Ratio

namespace ControlPlane

/-- What a double holds. -/
inductive Double
  /-- No number, such as zero divided by zero. -/
  | undefined
  /-- More than the greatest number, or less than the least. -/
  | infinite (negative : Bool)
  /-- `m · 2^q`, with `m` below `2^53`, and not below `2^52` unless `q` is
  the least exponent. -/
  | finite (negative : Bool) (m : Nat) (q : Int)
  deriving DecidableEq, Repr, Inhabited

namespace Double

/-- The exponent of the last digit of the smallest numbers. -/
def leastExpo : Int := -1074

/-- The exponent of the last digit of the largest numbers. -/
def greatestExpo : Int := 971

/-- The least significand of 53 digits. -/
def leastFull : Nat := 4503599627370496

/-- Zero, with a sign. -/
def zero (negative : Bool) : Double := .finite negative 0 leastExpo

/-- The double nearest to a fraction. -/
def round (negative : Bool) (r : Ratio) : Double :=
  if r.num = 0 then zero negative
  else
    let q := max (r.leading - 52) leastExpo
    let m := (r.scale (-q)).nearest
    let (m, q) := if m = 2 * leastFull then (leastFull, q + 1) else (m, q)
    if greatestExpo < q then .infinite negative else .finite negative m q

/-- The double nearest to a natural number. -/
def ofNat (n : Nat) : Double := round false ⟨n, 1⟩

/-- The number with the other sign. -/
def neg : Double → Double
  | undefined => undefined
  | infinite s => .infinite (! s)
  | finite s m q => .finite (! s) m q

/-- Is the sign negative? -/
def isNegative : Double → Bool
  | undefined => false
  | infinite s => s
  | finite s _ _ => s

/-- Is it zero, of either sign? -/
def isZero : Double → Bool
  | finite _ m _ => m = 0
  | _ => false

/-- The size of a finite number; zero for what is no finite number. -/
def size : Double → Ratio
  | finite _ m q => .ofBinary m q
  | _ => ⟨0, 1⟩

/-- The product. -/
def mul : Double → Double → Double
  | finite s m q, finite t n p => round (s != t) (.ofBinary (m * n) (q + p))
  | undefined, _ => undefined
  | _, undefined => undefined
  | x, y =>
    if x.isZero || y.isZero then undefined
    else .infinite (x.isNegative != y.isNegative)

/-- The quotient. -/
def div : Double → Double → Double
  | finite s m q, finite t n p =>
    if n = 0 then (if m = 0 then undefined else .infinite (s != t))
    else round (s != t) (Ratio.scale ⟨m, n⟩ (q - p))
  | finite s _ _, infinite t => zero (s != t)
  | infinite s, finite t _ _ => .infinite (s != t)
  | _, _ => undefined

/-- A finite number as a count of steps of `2^q`, `q` being not above its
own exponent. -/
def steps (negative : Bool) (m : Nat) (own q : Int) : Int :=
  let n := m * Nat.pow 2 (own - q).toNat
  if negative then -(n : Int) else n

/-- The sum. An exact zero is negative only if both parts are. -/
def add : Double → Double → Double
  | finite s m q, finite t n p =>
    let last := min q p
    let sum := steps s m q last + steps t n p last
    if sum = 0 then zero (s && t)
    else round (decide (sum < 0)) (.ofBinary sum.natAbs last)
  | infinite s, infinite t => if s = t then .infinite s else undefined
  | infinite s, finite _ _ _ => .infinite s
  | finite _ _ _, infinite t => .infinite t
  | _, _ => undefined

/-- The difference. -/
def sub (x y : Double) : Double := x.add y.neg

/-- The order; what is undefined stands in no order. -/
def le : Double → Double → Bool
  | finite s m q, finite t n p => steps s m q (min q p) ≤ steps t n p (min q p)
  | infinite s, infinite t => s || ! t
  | infinite s, finite _ _ _ => s
  | finite _ _ _, infinite t => ! t
  | _, _ => false

/-- The whole number of a double, cut off at its point, of those below
`bound`: what lies outside goes to the nearest of them, and no number to
zero. -/
def toNatBelow (bound : Nat) : Double → Nat
  | undefined => 0
  | infinite s => if s then 0 else bound - 1
  | finite s m q => if s then 0 else min (Ratio.ofBinary m q).floor (bound - 1)

end Double

end ControlPlane
