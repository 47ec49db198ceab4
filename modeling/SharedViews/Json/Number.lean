import SharedViews.Decimal.Layout

/-! Numbers of JSON data.

A number is an integer of at most sixty-four bits, signed or not, or a double,
and the two stay apart: `2` and `2.0` are different data with different texts.
Reading keeps an integer whenever the text has neither a fraction nor an
exponent and the value fits; any other text becomes a double. A double is its
significand — as many leading digits as fit in sixty-four bits, the rest
dropped — times or over a power of ten, each of the two steps rounded. -/
namespace SharedViews.Json

inductive Number
  | integer (n : Int)
  | float (x : Float)
  deriving Inhabited

namespace Number

/-- Doubles are written in full between a hundred-thousandth and ten million
billions, otherwise with a signed exponent. -/
def style : Decimal.FloatStyle := ⟨-5, 15, fun negative => if negative then "e-" else "e+"⟩

/-- The text of a double; what is not finite has none and is written `null`. -/
def floatChars (x : Float) : List Char :=
  match Decimal.Reading.ofFloat x with
  | .finite d => Decimal.layout style d
  | _ => "null".toList

def intChars (n : Int) : List Char :=
  if n < 0 then '-' :: Decimal.digitChars n.natAbs else Decimal.digitChars n.natAbs

def chars : Number → List Char
  | integer n => intChars n
  | float x => floatChars x

/-- The value as a double. -/
def toFloat : Number → Float
  | integer n => if n < 0 then -n.natAbs.toUInt64.toFloat else n.natAbs.toUInt64.toFloat
  | float x => x

/-- The value as an unsigned word; doubles are none, whole or not. -/
def toNat? : Number → Option Nat
  | integer n => if 0 ≤ n then some n.toNat else none
  | float _ => none

/-! ### Reading -/

def wordLimit : Nat := UInt64.size

/-- Leading digits collected while they fit in a word. From the first digit that no
longer fits, `full` says, digits are dropped, and `scale` counts the places lost;
the digits behind the point are tried anew. -/
structure Significand where
  value : Nat
  scale : Int
  full : Bool

/-- One more digit. A digit behind the point lowers the scale when it is kept, a
digit before it raises the scale when it is dropped. -/
def Significand.push (behind : Bool) (s : Significand) (c : Char) : Significand :=
  let next := s.value * 10 + (c.toNat - '0'.toNat)
  if !s.full && next < wordLimit then ⟨next, if behind then s.scale - 1 else s.scale, false⟩
  else ⟨s.value, if behind then s.scale else s.scale + 1, true⟩

/-- A significand times a power of ten, in doubles; `none` beyond the largest
one. A power too small to be a double is divided out in two strides. -/
def scaleFloat (significand : Nat) (scale : Int) : Option Float :=
  let f := significand.toUInt64.toFloat
  if scale < -308 then
    if significand = 0 ∨ scale < -1000 then some 0.0
    else
      let g := f / Decimal.nearest false 1 308
      if -616 ≤ scale then some (g / Decimal.nearest false 1 (-scale - 308))
      else some (g / Decimal.nearest false 1 308 / Decimal.nearest false 1 (-scale - 616))
  else if scale < 0 then some (f / Decimal.nearest false 1 (-scale))
  else if 308 < scale then if significand = 0 then some 0.0 else none
  else
    let x := f * Decimal.nearest false 1 scale
    if x.isInf then none else some x

/-- The number written by a sign, the digits before the point, the digits behind
it and an exponent; a missing part is `none`. -/
def ofParts (negative : Bool) (whole : List Char) (fraction : Option (List Char))
    (exponent : Option Int) : Option Number :=
  let before := whole.foldl (Significand.push false) ⟨0, 0, false⟩
  let signed (x : Float) : Number := .float (if negative then -x else x)
  match fraction, exponent with
  | none, none =>
    if before.full then (scaleFloat before.value before.scale).map signed
    else if !negative then some (.integer before.value)
    else if before.value = 0 ∨ wordLimit / 2 < before.value then
      some (signed before.value.toUInt64.toFloat)
    else some (.integer (-before.value))
  | _, _ =>
    let all := (fraction.getD []).foldl (Significand.push true) {before with full := false}
    (scaleFloat all.value (all.scale + exponent.getD 0)).map signed

end Number
end SharedViews.Json
