/-
Two ways between doubles and decimal numbers.

`render` writes a finite double with the fewest digits that read back to
it, of several such decimals the nearest. A double is `m · 2^q` with whole
`m` and `q`, and the reals that round to it form an interval whose ends
lie half a step away; on the grid of decimals with a given last place only
the two neighbours of the double can lie nearest to it, so trying the
grids from the coarsest one on finds the fewest digits. All arithmetic is
exact, on natural numbers.

`scaled` is the quick way back: the significand as a double, times or over
a power of ten. It is not correctly rounded, and readers that use it
depend on its very result.
-/
import ControlPlane.Number.Double

namespace ControlPlane.Decimal

/-- The size `m · 2^q` of a finite double that is not zero. -/
structure Binary where
  m : Nat
  q : Int
  deriving Repr

/-- Is the double the least of its binade? The gap below it is then half
of the gap above. -/
def Binary.isNarrow (b : Binary) : Bool :=
  b.m = Double.leastFull && Double.leastExpo < b.q

/-- Does a fraction round to the double? The ends of the interval do iff
`m` is even. -/
def Binary.covers (b : Binary) (r : Ratio) : Bool :=
  let high := Ratio.ofBinary (2 * b.m + 1) (b.q - 1)
  let low := if b.isNarrow then Ratio.ofBinary (4 * b.m - 1) (b.q - 2)
    else Ratio.ofBinary (2 * b.m - 1) (b.q - 1)
  if b.m % 2 = 0 then low.le r && r.le high else low.lt r && r.lt high

/-- A decimal `digits · 10^expo`. -/
structure Digits where
  digits : Nat
  expo : Int
  deriving Repr

/-- The better of the double's two neighbours on the grid of the multiples
of `10^e`, if one of them rounds to it. Of two, the nearer one is better,
and the even one at equal distance. -/
def Binary.onGrid (b : Binary) (e : Int) : Option Digits :=
  let x := Ratio.ofBinary b.m b.q
  let unit := Ratio.ofDecimal 1 e
  let below := (x.num * unit.den) / (x.den * unit.num)
  let inside := fun n => decide (0 < n) && b.covers (Ratio.ofDecimal n e)
  match inside below, inside (below + 1) with
  | false, false => none
  | true, false => some ⟨below, e⟩
  | false, true => some ⟨below + 1, e⟩
  | true, true =>
    let twice := 2 * (x.num * unit.den - below * (x.den * unit.num))
    let whole := x.den * unit.num
    if twice < whole then some ⟨below, e⟩
    else if whole < twice then some ⟨below + 1, e⟩
    else if below % 2 = 0 then some ⟨below, e⟩ else some ⟨below + 1, e⟩

/-- The number of decimal digits of a natural number; one for zero. -/
def width (n : Nat) : Nat := (Nat.toDigits 10 n).length

/-- The exponent of the decimal point's place before the first digit of a
fraction: the least `k` with `r < 10^k`, looked for downwards from `k`. -/
def magnitude (r : Ratio) : Nat → Int → Int
  | 0, k => k
  | fuel + 1, k =>
    if r.lt (Ratio.ofDecimal 1 (k - 1)) then magnitude r fuel (k - 1) else k

/-- The first grid from the coarsest one on that holds a decimal of the
double. -/
def Binary.search (b : Binary) : Nat → Int → Digits
  | 0, _ => ⟨0, 0⟩
  | fuel + 1, e =>
    match b.onGrid e with
    | some d => d
    | none => b.search fuel (e - 1)

/-- The fewest digits that read back, of a double that is not zero. -/
def Binary.shortest (b : Binary) : Digits :=
  b.search 20 (magnitude (Ratio.ofBinary b.m b.q) 640 310)

/-- A decimal without zeros at its end. -/
def Digits.trimmed : Nat → Digits → Digits
  | 0, d => d
  | fuel + 1, d =>
    if d.digits ≠ 0 ∧ d.digits % 10 = 0 then
      trimmed fuel ⟨d.digits / 10, d.expo + 1⟩
    else d

/-- The text of a decimal: positional with at least one place while the
point stands at most five zeros before the digits and at most sixteen
digits behind their start, else with an exponent that has a sign. -/
def Digits.text (d : Digits) : String :=
  let ds := Nat.toDigits 10 d.digits
  let point : Int := ds.length + d.expo
  let zeros := fun n => List.replicate n '0'
  if 0 ≤ d.expo ∧ point ≤ 16 then
    String.ofList (ds ++ zeros d.expo.toNat ++ ['.', '0'])
  else if 0 < point ∧ point ≤ 16 then
    String.ofList (ds.take point.toNat ++ '.' :: ds.drop point.toNat)
  else if -5 < point ∧ point ≤ 0 then
    String.ofList ('0' :: '.' :: (zeros (-point).toNat ++ ds))
  else
    let expo := (if point - 1 < 0 then "" else "+") ++ toString (point - 1)
    match ds with
    | [c] => String.ofList [c, 'e'] ++ expo
    | c :: rest => String.ofList (c :: '.' :: rest) ++ "e" ++ expo
    | [] => expo

/-- The text of a double. -/
def render : Double → String
  | .undefined => "NaN"
  | .infinite s => if s then "-inf" else "inf"
  | .finite s m q =>
    (if s then "-" else "") ++
      if m = 0 then "0.0" else ((Binary.mk m q).shortest.trimmed 20).text

/-- A power of ten as the nearest double. -/
def powerOfTen (n : Nat) : Double := .ofNat (Nat.pow 10 n)

/-- The significand times ten to the exponent, by one product or quotient
of doubles; beyond the largest power of ten the number is first brought
nearer by that power. `none` if the result is too large for a double. -/
def scaleBy : Nat → Double → Int → Option Double
  | 0, f, _ => some f
  | fuel + 1, f, e =>
    if e.natAbs ≤ 308 then
      if 0 ≤ e then
        match f.mul (powerOfTen e.toNat) with
        | .infinite _ => none
        | g => some g
      else some (f.div (powerOfTen e.natAbs))
    else if f.isZero then some f
    else if 0 ≤ e then none
    else scaleBy fuel (f.div (powerOfTen 308)) (e + 308)

/-- The double that a significand and a decimal exponent stand for, by the
quick way; `none` if it is out of range. -/
def scaled (negative : Bool) (significand : Nat) (expo : Int) :
    Option Double :=
  (scaleBy 4 (.ofNat significand) expo).map fun f =>
    if negative then f.neg else f

end ControlPlane.Decimal
