import SharedViews.Decimal.Shortest

/-! How a number is laid out as text.

Digits and a place give a text in two ways: positional, with a point set among
the digits, or scientific, with one digit before the point and an exponent
behind. Which of the two is written, and how the exponent is marked, is the
format's choice and stands in one record (`FloatStyle`). -/
namespace SharedViews.Decimal

/-- The decimal digits of a natural number as characters. -/
def digitChars (n : Nat) : List Char := Nat.toDigits 10 n

/-- A format for floating-point numbers. -/
structure FloatStyle where
  /-- The leading digit's exponents that are written positionally, inclusive. -/
  positionalFrom : Int
  positionalTo : Int
  /-- What stands between the digits and the exponent, by the exponent's sign. -/
  exponentMark : Bool → String

/-- The digits with a point after the first `place` of them, and at least one
digit on either side of it. -/
def positional (digits : List Char) (place : Int) : List Char :=
  if place ≤ 0 then
    '0' :: '.' :: (List.replicate (-place).toNat '0' ++ digits)
  else
    let before := digits.take place.toNat
    let padding := List.replicate (place.toNat - digits.length) '0'
    let after := digits.drop place.toNat
    before ++ padding ++ '.' :: (if after.isEmpty then ['0'] else after)

/-- One digit, a point if more follow, and the exponent. -/
def scientific (style : FloatStyle) (digits : List Char) (exponent : Int) : List Char :=
  let rest := digits.drop 1
  digits.take 1 ++ (if rest.isEmpty then [] else '.' :: rest) ++
    (style.exponentMark (exponent < 0)).toList ++ digitChars exponent.natAbs

/-- The shortest text of a finite double in a format. -/
def layout (style : FloatStyle) (x : Dyadic) : List Char :=
  let sign := if x.negative then ['-'] else []
  if x.mantissa = 0 then sign ++ ['0', '.', '0']
  else
    let d := shortest x.mantissa x.exponent
    let digits := digitChars d.digits
    let exponent := d.scale + digits.length - 1
    if style.positionalFrom ≤ exponent ∧ exponent ≤ style.positionalTo then
      sign ++ positional digits (exponent + 1)
    else sign ++ scientific style digits exponent

/-! ### Fixed places -/

/-- A finite double to a fixed number of places, from its exact value; a tie goes
to the even last digit. The sign stays even when every digit is zero. -/
def fixed (places : Nat) (x : Dyadic) : List Char :=
  let n := roundQuotient (x.mantissa * Nat.pow 2 x.exponent.toNat * Nat.pow 10 places)
    (Nat.pow 2 (-x.exponent).toNat)
  let digits := digitChars n
  let padded := List.replicate (places + 1 - digits.length) '0' ++ digits
  let split := padded.length - places
  (if x.negative then ['-'] else []) ++ padded.take split ++
    (if places = 0 then [] else '.' :: padded.drop split)

end SharedViews.Decimal
