/-! Doubles as exact numbers.

A finite double is a sign, a natural number and a power of two (`Dyadic`), read
off its sixty-four bits, and everything said about its decimal texts is said in
that arithmetic. In the other direction `nearestBits` picks the double closest
to a fraction, a tie going to the even mantissa, by exact division: the powers
of two on either side are found first, so that one quotient of fifty-three bits
(fewer below the normal range) decides. -/
namespace SharedViews.Decimal

/-- The number `± mantissa · 2 ^ exponent`. -/
structure Dyadic where
  negative : Bool
  mantissa : Nat
  exponent : Int
  deriving DecidableEq, Repr

/-- A double by its kind. -/
inductive Reading
  | finite (value : Dyadic)
  | infinite (negative : Bool)
  | undefined
  deriving DecidableEq, Repr

/-- The bit of a normal mantissa that its field leaves out; the exponent's field
starts there. -/
def leadingBit : Nat := Nat.pow 2 52

/-- The bit of the sign. -/
def signBit : Nat := Nat.pow 2 63

/-- The bits of infinity. -/
def infinityBits : Nat := 2047 * leadingBit

/-- What the bits of a double stand for. -/
def Reading.ofBits (bits : Nat) : Reading :=
  let negative := bits / signBit % 2 == 1
  let field : Nat := bits / leadingBit % 2048
  let fraction : Nat := bits % leadingBit
  if field = 2047 then
    if fraction = 0 then .infinite negative else .undefined
  else if field = 0 then .finite ⟨negative, fraction, -1074⟩
  else .finite ⟨negative, leadingBit + fraction, (field : Int) - 1075⟩

def Reading.ofFloat (x : Float) : Reading := .ofBits x.toBits.toNat

/-- A quotient rounded to the nearest integer, a tie going to the even one. -/
def roundQuotient (numerator denominator : Nat) : Nat :=
  let q := numerator / denominator
  let rest := 2 * (numerator % denominator)
  if rest < denominator then q
  else if denominator < rest then q + 1
  else q + q % 2

/-- `roundQuotient` is within half a unit. -/
theorem roundQuotient_bounds (n d : Nat) (hd : 0 < d) :
    2 * n ≤ 2 * (roundQuotient n d * d) + d ∧ 2 * (roundQuotient n d * d) ≤ 2 * n + d := by
  have h := Nat.div_add_mod n d
  have hr := Nat.mod_lt n hd
  have hq : (n / d + 1) * d = d * (n / d) + d := by rw [Nat.add_mul, Nat.one_mul, Nat.mul_comm]
  have hp : n / d * d = d * (n / d) := Nat.mul_comm _ _
  unfold roundQuotient
  simp only
  split
  · rw [hp]; omega
  · split
    · rw [hq]; omega
    · rcases Nat.mod_two_eq_zero_or_one (n / d) with h2 | h2 <;> rw [h2]
      · rw [Nat.add_zero, hp]; omega
      · rw [hq]; omega

/-- The bits of the double nearest to `numerator / denominator`, a tie going to
the even mantissa and everything beyond the largest double to infinity. -/
def nearestBits (numerator denominator : Nat) : Nat :=
  if numerator = 0 ∨ denominator = 0 then 0
  else
    -- The quotient lies strictly between `2 ^ (top - 1)` and `2 ^ (top + 1)`.
    let top : Int := (Nat.log2 numerator : Int) - Nat.log2 denominator
    let below : Bool :=
      if 0 ≤ top then numerator < denominator * Nat.pow 2 top.toNat
      else numerator * Nat.pow 2 (-top).toNat < denominator
    let leading : Int := if below then top - 1 else top
    let unit : Int := max (leading - 52) (-1074)
    let m := if 0 ≤ unit then roundQuotient numerator (denominator * Nat.pow 2 unit.toNat)
      else roundQuotient (numerator * Nat.pow 2 (-unit).toNat) denominator
    -- Adding the leading bit to the exponent field below it gives the field its
    -- value, and a mantissa rounded up to a power of two carries into it.
    min ((unit + 1074).toNat * leadingBit + m) infinityBits

/-- The double nearest to `± digits · 10 ^ scale`. -/
def nearest (negative : Bool) (digits : Nat) (scale : Int) : Float :=
  let magnitude :=
    if digits = 0 ∨ scale < -400 - (Nat.log2 digits : Int) then 0
    else if 400 < scale then infinityBits
    else if 0 ≤ scale then nearestBits (digits * Nat.pow 10 scale.toNat) 1
    else nearestBits digits (Nat.pow 10 (-scale).toNat)
  Float.ofBits (UInt64.ofNat ((if negative then signBit else 0) + magnitude))

end SharedViews.Decimal
