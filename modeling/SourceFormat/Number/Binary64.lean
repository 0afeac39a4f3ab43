/-!
# Binary floating point, exactly

A finite 64-bit floating point number is `mantissa · 2 ^ exponent` with a mantissa below `2 ^ 53`.
Everything here is done on those two numbers in exact arithmetic: rounding a decimal fraction to the
nearest of them, and finding the decimal fraction with the fewest digits that rounds back.

The text of a number is positional, whatever its size, and always has a point, so that it is never
taken for an integer.
-/

namespace SourceFormat

/-- A 64-bit floating point number; a finite one is `mantissa · 2 ^ exponent`, negated if it is
`negative`. -/
inductive Binary64 where
  | finite (negative : Bool) (mantissa : Nat) (exponent : Int)
  | infinite (negative : Bool)
  | notANumber
  deriving Repr, DecidableEq

namespace Binary64

/-- The smallest exponent. -/
def minExponent : Int := -1074

/-- The largest exponent. -/
def maxExponent : Int := 971

/-- The number of mantissas. -/
def mantissaBound : Nat := 9007199254740992

/-- The least mantissa of full width. -/
def fullMantissa : Nat := 4503599627370496

/-- A positive rational number, as numerator and denominator. -/
structure Ratio where
  num : Nat
  den : Nat
  deriving Repr

/-- `r / 2 ^ e`. -/
def Ratio.unscale2 (r : Ratio) (e : Int) : Ratio :=
  if 0 ≤ e then { r with den := r.den * Nat.pow 2 e.toNat }
  else { r with num := r.num * Nat.pow 2 (-e).toNat }

/-- `r / 10 ^ e`. -/
def Ratio.unscale10 (r : Ratio) (e : Int) : Ratio :=
  if 0 ≤ e then { r with den := r.den * Nat.pow 10 e.toNat }
  else { r with num := r.num * Nat.pow 10 (-e).toNat }

/-- The nearest whole number, the even one of two that are equally near. -/
def Ratio.round (r : Ratio) : Nat :=
  let q := r.num / r.den
  let twice := 2 * (r.num % r.den)
  if twice < r.den then q
  else if r.den < twice then q + 1
  else if q % 2 = 0 then q else q + 1

/-- The exponent at which the mantissa of `r` has 53 bits, or the smallest exponent if that is
larger. -/
def Ratio.exponent (r : Ratio) : Int :=
  let guess : Int := (Nat.log2 r.num : Int) - (Nat.log2 r.den : Int) - 52
  -- the two logarithms are rounded down, so the guess is right or one too large
  let s := r.unscale2 guess
  let exact := if s.num / s.den < fullMantissa then guess - 1 else guess
  max minExponent exact

/-- The mantissa and exponent nearest to `r`; none if they are out of range. -/
def Ratio.nearest? (r : Ratio) : Option (Nat × Int) :=
  let e := r.exponent
  let m := (r.unscale2 e).round
  let (m, e) := if m = mantissaBound then (fullMantissa, e + 1) else (m, e)
  if maxExponent < e then none else some (m, e)

/-- The number nearest to `digits · 10 ^ scale`; none if it is too large for one.  Far below the
smallest number the answer is zero, and far above the largest there is none, without computing the
power. -/
def ofDecimal? (negative : Bool) (digits : Nat) (scale : Int) : Option Binary64 :=
  if digits = 0 then some (.finite negative 0 minExponent)
  else
    let places : Int := (Nat.toDigits 10 digits).length + scale
    if 400 < places then none
    else if places < -400 then some (.finite negative 0 minExponent)
    else ((⟨digits, 1⟩ : Ratio).unscale10 (-scale)).nearest?.map fun (m, e) => .finite negative m e

/-- The value of a mantissa and an exponent. -/
def valueOf (mantissa : Nat) (exponent : Int) : Ratio :=
  (⟨mantissa, 1⟩ : Ratio).unscale2 (-exponent)

/-- Whether `digits · 10 ^ scale` rounds to the given mantissa and exponent. -/
def readsBack (mantissa : Nat) (exponent : Int) (digits : Nat) (scale : Int) : Bool :=
  digits ≠ 0 &&
    ((⟨digits, 1⟩ : Ratio).unscale10 (-scale)).nearest? = some (mantissa, exponent)

/-- The place of the leading digit of `r`: the largest `k` with `10 ^ k ≤ r`. -/
def Ratio.leadingPlace (r : Ratio) : Int :=
  if r.den ≤ r.num then ((Nat.toDigits 10 (r.num / r.den)).length : Int) - 1
  else
    let guess : Int := ((Nat.toDigits 10 r.num).length : Int) - (Nat.toDigits 10 r.den).length
    let s := r.unscale10 guess
    if s.den ≤ s.num then guess else guess - 1

/-- The distance from `r` to the whole number `n`, over the denominator of `r`. -/
def Ratio.distance (r : Ratio) (n : Nat) : Nat :=
  max r.num (n * r.den) - min r.num (n * r.den)

/-- Search the decimal fractions of `count`, `count + 1`, … digits for the first count at which one
of the two neighbours of the value reads back; of two that do, the nearer one. -/
def shortestFrom (mantissa : Nat) (exponent : Int) (place : Int) : Nat → Nat → Nat × Int
  | count, 0 =>
    let scale := place - count + 1
    (((valueOf mantissa exponent).unscale10 scale).round, scale)
  | count, fuel + 1 =>
    let scale := place - count + 1
    let s := (valueOf mantissa exponent).unscale10 scale
    let below := s.num / s.den
    match readsBack mantissa exponent below scale,
      readsBack mantissa exponent (below + 1) scale with
    | true, true =>
      (if s.distance below ≤ s.distance (below + 1) then below else below + 1, scale)
    | true, false => (below, scale)
    | false, true => (below + 1, scale)
    | false, false => shortestFrom mantissa exponent place (count + 1) fuel

/-- The decimal fraction `digits · 10 ^ scale` with the fewest digits that reads back.  Seventeen
digits always suffice. -/
def shortest (mantissa : Nat) (exponent : Int) : Nat × Int :=
  if mantissa = 0 then (0, 0)
  else shortestFrom mantissa exponent (valueOf mantissa exponent).leadingPlace 1 17

/-- `digits · 10 ^ scale` in positional notation, with a point. -/
def positional (digits : Nat) (scale : Int) : String :=
  let ds := Nat.toDigits 10 digits
  if 0 ≤ scale then String.ofList (ds ++ List.replicate scale.toNat '0') ++ ".0"
  else
    let behind := (-scale).toNat
    let padded := List.replicate (behind + 1 - ds.length) '0' ++ ds
    let fraction := (padded.drop (padded.length - behind)).reverse.dropWhile (· = '0')
    String.ofList (padded.take (padded.length - behind)) ++ "."
      ++ (if fraction.isEmpty then "0" else String.ofList fraction.reverse)

/-- The text of a number. -/
def text : Binary64 → String
  | finite negative mantissa exponent =>
    let (digits, scale) := shortest mantissa exponent
    (if negative then "-" else "") ++ positional digits scale
  | infinite negative => if negative then "-inf" else "inf"
  | notANumber => "NaN"

end Binary64

end SourceFormat
