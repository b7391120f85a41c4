/-!
# The exact value of a floating point number

A finite number is `mantissa * 2 ^ exponent`, with its sign apart. Rounding to a number of decimal
places and comparison with integers are exact on that value.
-/

namespace ThreatAtlas.Number

inductive Exact where
  | nan
  | infinite (negative : Bool)
  | finite (negative : Bool) (mantissa : Nat) (exponent : Int)
deriving Repr, DecidableEq

def exact (x : Float) : Exact :=
  let bits := x.toBits.toNat
  let negative := bits / Nat.pow 2 63 == 1
  let field : Nat := bits / Nat.pow 2 52 % Nat.pow 2 11
  let fraction := bits % Nat.pow 2 52
  if field == 2047 then
    if fraction == 0 then .infinite negative else .nan
  else if field == 0 then .finite negative fraction (-1074)
  else .finite negative (Nat.pow 2 52 + fraction) ((field : Int) - 1075)

/-- The nearest integer to `num / den`, a tie going to the even one. -/
def roundDiv (num den : Nat) : Nat :=
  let q := num / den
  let r := num % den
  if 2 * r < den then q
  else if den < 2 * r then q + 1
  else if q % 2 == 0 then q else q + 1

def fraction (mantissa : Nat) (exponent : Int) : Nat × Nat :=
  (mantissa * Nat.pow 2 exponent.toNat, Nat.pow 2 (-exponent).toNat)

/-- The binary fraction with 53 significant bits nearest to `num / den`, as mantissa and exponent; a tie
goes to the even mantissa. -/
def nearest (num den : Nat) : Nat × Int :=
  let scaled (exponent : Int) : Nat × Nat :=
    (num * Nat.pow 2 (-exponent).toNat, den * Nat.pow 2 exponent.toNat)
  let low : Int := (Nat.log2 num : Int) - Nat.log2 den - 53
  let (n, d) := scaled low
  let exponent := if n < Nat.pow 2 53 * d then low else low + 1
  let (n, d) := scaled exponent
  (roundDiv n d, exponent)

/-- The number of units of `10 ^ (-places)` nearest to the value. -/
def units (places mantissa : Nat) (exponent : Int) : Nat :=
  let (num, den) := fraction mantissa exponent
  roundDiv (num * Nat.pow 10 places) den

/-- The number nearest to `digits * 10 ^ power`. Powers far outside the range are not computed. -/
def ofDecimal (negative : Bool) (digits : Nat) (power : Int) : Float :=
  let size := (Nat.toDigits 10 digits).length + power
  let x : Float :=
    if digits == 0 || size < -330 then 0.0
    else if 310 < size then 1.0 / 0.0
    else if power < 0 then Float.ofScientific digits true power.natAbs
    else Float.ofScientific digits false power.natAbs
  if negative then -x else x

/-- `x` rounded to `places` decimal places, ties to even on the exact value. -/
def round (places : Nat) (x : Float) : Float :=
  match exact x with
  | .finite negative m e => ofDecimal negative (units places m e) (-places)
  | _ => x

def ofInt (n : Int) : Float :=
  ofDecimal (n < 0) n.natAbs 0

/-- Order of an integer and a number; nothing when the number is not one. -/
def compareInt (n : Int) (x : Float) : Option Ordering :=
  match exact x with
  | .nan => none
  | .infinite negative => some (if negative then .gt else .lt)
  | .finite negative m e =>
    let (num, den) := fraction m e
    let signed : Int := if negative then -num else num
    some (compare (n * den) signed)

def truncate? (x : Float) : Option Int :=
  match exact x with
  | .finite negative m e =>
    let (num, den) := fraction m e
    let n : Int := (num / den : Nat)
    some (if negative then -n else n)
  | _ => none

end ThreatAtlas.Number
