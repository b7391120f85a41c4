import ThreatAtlas.Value.Arithmetic

/-!
# Reading typed fields

Answers of models are checked field by field against the shape that was asked for. Numbers and truth
values are also taken from their usual texts; everything else that does not fit is invalid.
-/

namespace ThreatAtlas.Value.Decode

def invalid : Except Failure α :=
  .error .invalid

def fields : Value → Except Failure Fields
  | .record fs => .ok fs
  | _ => invalid

def text : Value → Except Failure String
  | .text s => .ok s
  | _ => invalid

def optionalText : Value → Except Failure (Option String)
  | .null => .ok none
  | .text s => .ok (some s)
  | _ => invalid

/-- Whether what stands between the blanks at both ends is written in the usual script. -/
def isPlain (s : String) : Bool :=
  (Number.withoutPadding s).all (·.toNat < 128)

def withoutZeros (s : String) : String :=
  match Text.cut? "." (String.ofList (Number.withoutPadding s)) with
  | some (whole, places) => if places.toList.all (· == '0') then whole else s
  | none => s

/-- A whole number. A real must have no fraction and lie within 64 bits; a text has digits of the usual
script, and may end in a point and zeros. -/
def int (v : Value) : Except Failure Int :=
  match v with
  | .int n => .ok n
  | .bool b => .ok (if b then 1 else 0)
  | .real x =>
    match Number.truncate? x with
    | some n =>
      if Number.compareInt n x == some .eq && -Int.pow 2 63 < n && n < Int.pow 2 63 then .ok n else invalid
    | none => invalid
  | .text s =>
    if isPlain s then
      match Number.readInt (withoutZeros s) with
      | .ok n => .ok n
      | .error _ => invalid
    else invalid
  | _ => invalid

/-- A real from its text. Single underscores may stand anywhere inside, but then no blanks at the ends. -/
def realOfText? (s : String) : Option Float :=
  match Text.split '_' s with
  | [_] => Number.readFloat? s
  | pieces =>
    let joined := Text.join "" pieces
    if pieces.all (!·.isEmpty) && Number.withoutPadding joined == joined.toList then
      Number.readFloat? joined
    else none

def real : Value → Except Failure Float
  | .real x => .ok x
  | .int n =>
    match Value.toReal n with
    | .ok x => .ok x
    | .error _ => invalid
  | .bool b => .ok (if b then 1.0 else 0.0)
  | .text s =>
    if isPlain s then
      match realOfText? s with
      | some x => .ok x
      | none => invalid
    else invalid
  | _ => invalid

def trueWords : List String := ["1", "on", "t", "true", "y", "yes"]
def falseWords : List String := ["0", "off", "f", "false", "n", "no"]

def bool : Value → Except Failure Bool
  | .bool b => .ok b
  | .int 0 => .ok false
  | .int 1 => .ok true
  | .real x => if x == 0.0 then .ok false else if x == 1.0 then .ok true else invalid
  | .text s =>
    if trueWords.contains (Text.lower s) then .ok true
    else if falseWords.contains (Text.lower s) then .ok false
    else invalid
  | _ => invalid

def list (item : Value → Except Failure α) : Value → Except Failure (List α)
  | .list xs => xs.mapM item
  | _ => invalid

def required (fs : Fields) (name : String) (read : Value → Except Failure α) : Except Failure α :=
  match fs.lookup name with
  | some v => read v
  | none => invalid

def optional (fs : Fields) (name : String) (default : α) (read : Value → Except Failure α) :
    Except Failure α :=
  match fs.lookup name with
  | some v => read v
  | none => .ok default

end ThreatAtlas.Value.Decode
