import SharedViews.Decimal.Dyadic

/-! The fewest digits that read back.

A double stands for every real number that rounds to it: an interval around it
whose ends belong to it when its mantissa is even. `shortest` looks for a
decimal in that interval on coarser grids first (one digit, two, up to
seventeen); on each grid only the two points next to the double can be inside,
since a point of the interval farther out has one of them between itself and the
double. Of two points inside, the nearer is taken, and of two equally near the
one with the even last digit. All of it is comparison of natural numbers. -/
namespace SharedViews.Decimal

/-- The number `digits · 10 ^ scale`. -/
structure Scaled where
  digits : Nat
  scale : Int
  deriving DecidableEq, Repr

/-- A positive fraction with the interval of reals that round to it, all four
over one denominator. -/
structure Rounding where
  low : Nat
  value : Nat
  high : Nat
  denominator : Nat
  closed : Bool
  deriving DecidableEq, Repr

/-- The interval of a positive double. The gap below a power of two is half the
gap above it, except where the exponent cannot fall further. -/
def Rounding.ofDyadic (m : Nat) (e : Int) : Rounding :=
  let narrow := m = leadingBit ∧ -1074 < e
  let low := if narrow then 4 * m - 1 else 4 * m - 2
  let up := Nat.pow 2 (e - 2).toNat
  let down := Nat.pow 2 (2 - e).toNat
  ⟨low * up, 4 * m * up, (4 * m + 2) * up, down, m % 2 == 0⟩

/-- Whether `n · 10 ^ scale` rounds to the double. -/
def Rounding.holds (r : Rounding) (n : Nat) (scale : Int) : Bool :=
  let x := n * Nat.pow 10 scale.toNat * r.denominator
  let up := Nat.pow 10 (-scale).toNat
  if r.closed then r.low * up ≤ x && x ≤ r.high * up
  else r.low * up < x && x < r.high * up

/-- The number of decimal digits of a natural number; zero has none. -/
def digitCount (n : Nat) : Nat := if n = 0 then 0 else (Nat.toDigits 10 n).length

/-- The place `p` with `10 ^ (p - 1) ≤ value < 10 ^ p`. -/
def Rounding.place (r : Rounding) : Int :=
  if r.denominator ≤ r.value then digitCount (r.value / r.denominator)
  else
    let whole := r.denominator / r.value
    let places := digitCount whole
    -- A reciprocal that is a power of ten starts at its own place.
    if whole = Nat.pow 10 (places - 1) ∧ r.denominator % r.value = 0 then 2 - (places : Int)
    else 1 - (places : Int)

/-- The grid point of `count` digits that reads back, if there is one. -/
def Rounding.onGrid (r : Rounding) (place : Int) (count : Nat) : Option Scaled :=
  let scale := place - count
  let numerator := r.value * Nat.pow 10 (-scale).toNat
  let denominator := r.denominator * Nat.pow 10 scale.toNat
  let below := numerator / denominator
  let belowHolds := decide (0 < below) && r.holds below scale
  if r.holds (below + 1) scale then
    if belowHolds then some ⟨roundQuotient numerator denominator, scale⟩
    else some ⟨below + 1, scale⟩
  else if belowHolds then some ⟨below, scale⟩
  else none

/-- Moves trailing zeros of the digits into the scale. -/
def Scaled.normalize : Nat → Scaled → Scaled
  | 0, d => d
  | fuel + 1, d =>
    if d.digits ≠ 0 ∧ d.digits % 10 = 0 then normalize fuel ⟨d.digits / 10, d.scale + 1⟩ else d

/-- The shortest decimal that rounds to a positive double, its last digit not
zero. Seventeen digits always suffice; the last alternative is never taken. -/
def shortest (m : Nat) (e : Int) : Scaled :=
  let r := Rounding.ofDyadic m e
  let place := r.place
  match (List.range 17).findSome? fun k => r.onGrid place (k + 1) with
  | some d => d.normalize 20
  | none => ⟨m, e⟩

end SharedViews.Decimal
