import ThreatAtlas.Number.Binary
import ThreatAtlas.Text.Basic
import ThreatAtlas.Text.Case

/-!
# Reading numbers

Blanks around a number are skipped, digits of any script count, and an underscore may stand between
two digits.
-/

namespace ThreatAtlas.Number

/-- Reads digits from the front: their number, how many there are, and what follows them. -/
def readDigits : List Char → Nat → Nat → Nat × Nat × List Char
  | '_' :: c :: cs, n, count =>
    if 0 < count then
      match Text.decimalValue? c with
      | some d => readDigits cs (10 * n + d) (count + 1)
      | none => (n, count, '_' :: c :: cs)
    else (n, count, '_' :: c :: cs)
  | c :: cs, n, count =>
    match Text.decimalValue? c with
    | some d => readDigits cs (10 * n + d) (count + 1)
    | none => (n, count, c :: cs)
  | [], n, count => (n, count, [])

def readSign : List Char → Bool × List Char
  | '-' :: cs => (true, cs)
  | '+' :: cs => (false, cs)
  | cs => (false, cs)

/-- The blanks that may stand around a number: all but the four marks that separate records. -/
def isPadding (c : Char) : Bool :=
  Text.isBlank c && !('\x1c' ≤ c && c ≤ '\x1f')

def withoutPadding (s : String) : List Char :=
  Text.trimEndChars isPadding (s.toList.dropWhile isPadding)

inductive Unread where
  | notNumber
  | tooLong (digits : Nat)
deriving Repr, DecidableEq

def digitLimit : Nat := 4300

def tooLongText (digits : Nat) : String :=
  s!"Exceeds the limit ({digitLimit} digits) for integer string conversion: value has {digits} digits; use sys.set_int_max_str_digits() to increase the limit"

/-- Reads a whole number. Too many digits are refused before what follows them is looked at, unless an
underscore does. -/
def readInt (s : String) : Except Unread Int :=
  let (negative, cs) := readSign (withoutPadding s)
  let (n, count, rest) := readDigits cs 0 0
  if digitLimit < count && rest.head? != some '_' then .error (.tooLong count)
  else if count == 0 || !rest.isEmpty then .error .notNumber
  else .ok (if negative then -(n : Int) else n)

/-- The power of ten after `e`, or zero when there is none. -/
def readExponent? : List Char → Option Int
  | [] => some 0
  | c :: cs =>
    if c == 'e' || c == 'E' then
      let (negative, cs) := readSign cs
      match readDigits cs 0 0 with
      | (n, count, []) =>
        if count == 0 then none else some (if negative then -(n : Int) else n)
      | _ => none
    else none

def readFloat? (s : String) : Option Float :=
  let (negative, cs) := readSign (withoutPadding s)
  let word := Text.lower (String.ofList cs)
  let signedBy (x : Float) := some (if negative then -x else x)
  if word == "inf" || word == "infinity" then signedBy (1.0 / 0.0)
  else if word == "nan" then signedBy (0.0 / 0.0)
  else
    let (whole, count, rest) := readDigits cs 0 0
    let (digits, more, rest) :=
      match rest with
      | '.' :: cs => readDigits cs whole 0
      | _ => (whole, 0, rest)
    if count + more == 0 then none
    else (readExponent? rest).map fun e => ofDecimal negative digits (e - more)

end ThreatAtlas.Number
