import ThreatAtlas.Failure
import ThreatAtlas.Number.Read

/-!
# Reading JSON

The reader keeps the place of each character, so that a fault names the line, the column and the
offset at which the text stops being JSON. Integers have any size up to a limit on their digits, `NaN`
and the infinities are numbers, and of a repeated name the last value counts, in the first one's place.
Lists and records may be nested in each other, but not without end. A text may name half of a surrogate
pair alone.
-/

namespace ThreatAtlas.Json

inductive Fault where
  | byteOrderMark
  | expectingValue
  | expectingName
  | expectingColon
  | expectingComma
  | extraData
  | unterminatedText
  | controlCharacter
  | badEscape
  | badCodeEscape
  /-- An integer with more digits than are read. -/
  | longInteger (digits : Nat)
  | tooDeep (part : String)
deriving Repr, DecidableEq

def Fault.words : Fault → String
  | .byteOrderMark => "Unexpected UTF-8 BOM (decode using utf-8-sig)"
  | .expectingValue => "Expecting value"
  | .expectingName => "Expecting property name enclosed in double quotes"
  | .expectingColon => "Expecting ':' delimiter"
  | .expectingComma => "Expecting ',' delimiter"
  | .extraData => "Extra data"
  | .unterminatedText => "Unterminated string starting at"
  | .controlCharacter => "Invalid control character at"
  | .badEscape => "Invalid \\escape"
  | .badCodeEscape => "Invalid \\uXXXX escape"
  | .longInteger digits => Number.tooLongText digits
  | .tooDeep part => (Failure.tooDeep part).message

structure FaultAt where
  fault : Fault
  offset : Nat
deriving Repr, DecidableEq

/-- The fault with its line and column in `source`, both counted from one. -/
def FaultAt.message (e : FaultAt) (source : String) : String :=
  let before := source.toList.take e.offset
  let line := before.count '\n' + 1
  let column := (before.reverse.takeWhile (· != '\n')).length + 1
  s!"{e.fault.words}: line {line} column {column} (char {e.offset})"

/-- How the fault is reported. What is too long or too deep is so wherever it stands. -/
def FaultAt.toFailure (e : FaultAt) (source : String) : Failure :=
  match e.fault with
  | .longInteger digits => .malformed (Number.tooLongText digits)
  | .tooDeep part => .tooDeep part
  | _ => .notJson (e.message source)

structure Cursor where
  rest : List Char
  offset : Nat

def Cursor.drop (c : Cursor) (n : Nat) : Cursor :=
  ⟨c.rest.drop n, c.offset + n⟩

def isSpace (c : Char) : Bool :=
  c == ' ' || c == '\t' || c == '\n' || c == '\r'

def Cursor.skipSpace (c : Cursor) : Cursor :=
  c.drop (c.rest.takeWhile isSpace).length

def Cursor.fail (c : Cursor) (fault : Fault) : Except FaultAt α :=
  .error ⟨fault, c.offset⟩

def hexValue? (c : Char) : Option Nat :=
  if '0' ≤ c && c ≤ '9' then some (c.toNat - 48)
  else if 'a' ≤ c && c ≤ 'f' then some (c.toNat - 87)
  else if 'A' ≤ c && c ≤ 'F' then some (c.toNat - 55)
  else none

/-- Four hexadecimal digits followed by at least one more character. -/
def codeUnit? : List Char → Option (Nat × List Char)
  | a :: b :: c :: d :: e :: rest => do
    let a ← hexValue? a
    let b ← hexValue? b
    let c ← hexValue? c
    let d ← hexValue? d
    return (((a * 16 + b) * 16 + c) * 16 + d, e :: rest)
  | _ => none

def simpleEscape? (c : Char) : Option Char :=
  match c with
  | '"' => some '"'
  | '\\' => some '\\'
  | '/' => some '/'
  | 'b' => some '\x08'
  | 'f' => some '\x0c'
  | 'n' => some '\n'
  | 'r' => some '\r'
  | 't' => some '\t'
  | _ => none

/-- The second half of a pair of units that together name one character. -/
def lowUnit? (high : Nat) (rest : List Char) : Option (Nat × List Char) :=
  match rest with
  | '\\' :: 'u' :: more =>
    if 0xD800 ≤ high && high < 0xDC00 then
      match codeUnit? more with
      | some (low, more) =>
        if 0xDC00 ≤ low && low < 0xE000 then
          some (0x10000 + (high - 0xD800) * 0x400 + (low - 0xDC00), more)
        else none
      | none => none
    else none
  | _ => none

/-- The rest of a text whose opening quote stands at `start`, with what has been read reversed. -/
def readText (start : Nat) : Nat → List CodePoint → Cursor → Except FaultAt (List CodePoint × Cursor)
  | 0, _, _ => .error ⟨.unterminatedText, start⟩
  | fuel + 1, done, cur =>
    match cur.rest with
    | [] => .error ⟨.unterminatedText, start⟩
    | '"' :: _ => .ok (done.reverse, cur.drop 1)
    | '\\' :: [] => .error ⟨.unterminatedText, start⟩
    | '\\' :: 'u' :: more =>
      match codeUnit? more with
      | none => .error ⟨.badCodeEscape, cur.offset + 1⟩
      | some (unit, rest) =>
        match lowUnit? unit rest with
        | some (code, _) => readText start fuel (.char (Char.ofNat code) :: done) (cur.drop 12)
        | none => readText start fuel (.ofUnit unit :: done) (cur.drop 6)
    | '\\' :: c :: _ =>
      match simpleEscape? c with
      | some c => readText start fuel (.char c :: done) (cur.drop 2)
      | none => cur.fail .badEscape
    | c :: _ =>
      if c.toNat < 0x20 then cur.fail .controlCharacter
      else readText start fuel (.char c :: done) (cur.drop 1)

def digitsValue (ds : List Char) : Nat :=
  ds.foldl (fun n c => 10 * n + (c.toNat - 48)) 0

/-- The digits before the point: a zero stands alone. -/
def readWhole (rest : List Char) : List Char :=
  match rest with
  | '0' :: _ => ['0']
  | _ => rest.takeWhile Char.isDigit

def readFraction (rest : List Char) : List Char :=
  match rest with
  | '.' :: more => more.takeWhile Char.isDigit
  | _ => []

/-- An exponent: its length in the text and its value. -/
def readExponent (rest : List Char) : Option (Nat × Int) :=
  match rest with
  | e :: more =>
    if e == 'e' || e == 'E' then
      let (width, negative, more) : Nat × Bool × List Char := match more with
        | '-' :: more => (2, true, more)
        | '+' :: more => (2, false, more)
        | _ => (1, false, more)
      let ds := more.takeWhile Char.isDigit
      if ds.isEmpty then none
      else
        let n : Int := digitsValue ds
        some (width + ds.length, if negative then -n else n)
    else none
  | [] => none

/-- A number without leading zeros, from `cur`, if one stands there. -/
def readNumber (cur : Cursor) : Except FaultAt (Option (Value × Cursor)) :=
  let negative := cur.rest.head? == some '-'
  let unsigned := if negative then cur.drop 1 else cur
  let whole := readWhole unsigned.rest
  if whole.isEmpty then .ok none
  else
    let afterWhole := unsigned.drop whole.length
    let frac := readFraction afterWhole.rest
    let afterFrac := if frac.isEmpty then afterWhole else afterWhole.drop (frac.length + 1)
    match readExponent afterFrac.rest with
    | some (width, e) =>
      let x := Number.ofDecimal negative (digitsValue (whole ++ frac)) (e - frac.length)
      .ok (some (.real x, afterFrac.drop width))
    | none =>
      if frac.isEmpty then
        if Number.digitLimit < whole.length then cur.fail (.longInteger whole.length)
        else
          let n : Int := digitsValue whole
          .ok (some (.int (if negative then -n else n), afterWhole))
      else
        let x := Number.ofDecimal negative (digitsValue (whole ++ frac)) (-frac.length)
        .ok (some (.real x, afterFrac))

def constants : List (String × Value) :=
  [("null", .null), ("true", .bool true), ("false", .bool false), ("NaN", .real (0.0 / 0.0)),
    ("Infinity", .real (1.0 / 0.0)), ("-Infinity", .real (-1.0 / 0.0))]

def readConstant? (cur : Cursor) : Option (Value × Cursor) :=
  constants.findSome? fun (word, v) =>
    if word.toList.isPrefixOf cur.rest then some (v, cur.drop word.length) else none

/-- How many lists and records may stand inside each other. -/
def nestingLimit : Nat := 980

mutual

/-- A value starting exactly at the cursor, with so many levels of nesting left. -/
def readValue : Nat → Nat → Cursor → Except FaultAt (Value × Cursor)
  | 0, _, cur => cur.fail .expectingValue
  | fuel + 1, levels, cur =>
    match cur.rest with
    | '"' :: _ => do
      let (points, cur) ← readText cur.offset fuel [] (cur.drop 1)
      return (.ofPoints points, cur)
    | '[' :: _ =>
      match levels with
      | 0 => cur.fail (.tooDeep "array")
      | levels + 1 =>
        let inside := (cur.drop 1).skipSpace
        match inside.rest with
        | ']' :: _ => .ok (.list [], inside.drop 1)
        | _ => readItems fuel levels [] inside
    | '\x7b' :: _ =>
      match levels with
      | 0 => cur.fail (.tooDeep "object")
      | levels + 1 =>
        let inside := (cur.drop 1).skipSpace
        match inside.rest with
        | '\x7d' :: _ => .ok (.record [], inside.drop 1)
        | _ => readMembers fuel levels [] inside
    | _ =>
      match readConstant? cur with
      | some r => .ok r
      | none => do
        match ← readNumber cur with
        | some r => return r
        | none => cur.fail .expectingValue

def readItems : Nat → Nat → List Value → Cursor → Except FaultAt (Value × Cursor)
  | 0, _, _, cur => cur.fail .expectingValue
  | fuel + 1, levels, done, cur => do
    let (v, cur) ← readValue fuel levels cur
    let cur := cur.skipSpace
    match cur.rest with
    | ']' :: _ => .ok (.list (v :: done).reverse, cur.drop 1)
    | ',' :: _ => readItems fuel levels (v :: done) (cur.drop 1).skipSpace
    | _ => cur.fail .expectingComma

def readMembers : Nat → Nat → List (String × Value) → Cursor → Except FaultAt (Value × Cursor)
  | 0, _, _, cur => cur.fail .expectingValue
  | fuel + 1, levels, done, cur => do
    match cur.rest with
    | '"' :: _ =>
      let (name, cur) ← readText cur.offset fuel [] (cur.drop 1)
      let cur := cur.skipSpace
      match cur.rest with
      | ':' :: _ =>
        let (v, cur) ← readValue fuel levels (cur.drop 1).skipSpace
        let cur := cur.skipSpace
        match cur.rest with
        | '\x7d' :: _ => .ok (.record (Fields.ofPairs (Fields.entry name v :: done).reverse), cur.drop 1)
        | ',' :: _ => readMembers fuel levels (Fields.entry name v :: done) (cur.drop 1).skipSpace
        | _ => cur.fail .expectingComma
      | _ => cur.fail .expectingColon
    | _ => cur.fail .expectingName

end

def read (s : String) : Except FaultAt Value := do
  let cs := s.toList
  if cs.head? == some '\ufeff' then .error ⟨.byteOrderMark, 0⟩
  else
    let (v, cur) ← readValue (2 * cs.length + 2) nestingLimit (Cursor.skipSpace ⟨cs, 0⟩)
    let cur := cur.skipSpace
    if cur.rest.isEmpty then .ok v else cur.fail .extraData

end ThreatAtlas.Json
