import ThreatAtlas.Number.Binary

/-!
# Decimal texts of floating point numbers

`shortest` gives the fewest digits that read back as the same number, the nearest of them to the
exact value. `write` puts them positionally from `0.0001` up to sixteen digits before the point and
with an exponent otherwise; `fixed` writes a given number of decimal places.
-/

namespace ThreatAtlas.Number

/-- The numbers that read back as `mantissa * 2 ^ exponent` lie between these multiples of
`2 ^ (exponent - 2)`. Below a power of two the neighbour is only half as far. -/
def readBackBounds (mantissa : Nat) (exponent : Int) : Nat × Nat :=
  let below := if mantissa == Nat.pow 2 52 && -1074 < exponent then 1 else 2
  (4 * mantissa - below, 4 * mantissa + 2)

def compareDecimal (digits : Nat) (power : Int) (n : Nat) (exponent : Int) : Ordering :=
  compare (digits * Nat.pow 10 power.toNat * Nat.pow 2 (-exponent).toNat)
    (n * Nat.pow 2 exponent.toNat * Nat.pow 10 (-power).toNat)

def readsBack (mantissa : Nat) (exponent : Int) (digits : Nat) (power : Int) : Bool :=
  let (low, high) := readBackBounds mantissa exponent
  let atLow := compareDecimal digits power low (exponent - 2)
  let atHigh := compareDecimal digits power high (exponent - 2)
  if mantissa % 2 == 0 then atLow != .lt && atHigh != .gt else atLow == .gt && atHigh == .lt

def leadingPower (mantissa : Nat) (exponent : Int) : Int :=
  let (num, den) := fraction mantissa exponent
  (Nat.toDigits 10 (num * Nat.pow 10 400 / den)).length - 401

/-- The multiple of `10 ^ power` that reads back, of the two around the value, if one does. -/
def candidate (mantissa : Nat) (exponent power : Int) : Option Nat :=
  let (num, den) := fraction mantissa exponent
  let num := num * Nat.pow 10 (-power).toNat
  let den := den * Nat.pow 10 power.toNat
  let d := num / den
  match readsBack mantissa exponent d power, readsBack mantissa exponent (d + 1) power with
  | true, true => some (roundDiv num den)
  | true, false => some d
  | false, true => some (d + 1)
  | false, false => none

/-- Digits and power of ten of the shortest decimal that reads back. -/
def shortest (mantissa : Nat) (exponent : Int) : Nat × Int :=
  let top := leadingPower mantissa exponent
  let hit := (List.range 17).findSome? fun (n : Nat) =>
    (candidate mantissa exponent (top - n)).map fun d => (d, top - n)
  hit.getD (mantissa, exponent)

def zeros (n : Nat) : List Char :=
  List.replicate n '0'

/-- Two digits at least. -/
def exponentDigits (n : Nat) : List Char :=
  let ds := Nat.toDigits 10 n
  zeros (2 - ds.length) ++ ds

/-- Lays out digits whose decimal point stands after the first `point` of them. -/
def layOut (ds : List Char) (point : Int) : List Char :=
  let n := ds.length
  if -4 < point && point ≤ 16 then
    if point ≤ 0 then '0' :: '.' :: zeros (-point).toNat ++ ds
    else if n ≤ point then ds ++ zeros (point - n).toNat ++ ['.', '0']
    else ds.take point.toNat ++ '.' :: ds.drop point.toNat
  else
    let e := point - 1
    let lead := if n ≤ 1 then ds else ds.take 1 ++ '.' :: ds.drop 1
    lead ++ 'e' :: (if e < 0 then '-' else '+') :: exponentDigits e.natAbs

/-- Digits without the zeros at the end, and the power of ten those stood for. -/
def dropZeros (ds : List Char) (power : Int) : List Char × Int :=
  let kept := (ds.reverse.dropWhile (· == '0')).reverse
  (kept, power + (ds.length - kept.length : Nat))

def signed (negative : Bool) (cs : List Char) : String :=
  String.ofList (if negative then '-' :: cs else cs)

def write (x : Float) : String :=
  match exact x with
  | .nan => "nan"
  | .infinite negative => signed negative "inf".toList
  | .finite negative 0 _ => signed negative "0.0".toList
  | .finite negative m e =>
    let (digits, power) := shortest m e
    let (ds, power) := dropZeros (Nat.toDigits 10 digits) power
    signed negative (layOut ds (ds.length + power))

def fixed (places : Nat) (x : Float) : String :=
  match exact x with
  | .nan => "nan"
  | .infinite negative => signed negative "inf".toList
  | .finite negative m e =>
    let n := units places m e
    let ds := Nat.toDigits 10 n
    let ds := zeros (places + 1 - ds.length) ++ ds
    let whole := ds.take (ds.length - places)
    signed negative (if places == 0 then whole else whole ++ '.' :: ds.drop (ds.length - places))

def grouped (n : Int) : String :=
  let rec group : List Char → List Char
    | a :: b :: c :: d :: rest => a :: b :: c :: ',' :: group (d :: rest)
    | ds => ds
  signed (n < 0) (group (Nat.toDigits 10 n.natAbs).reverse).reverse

end ThreatAtlas.Number
