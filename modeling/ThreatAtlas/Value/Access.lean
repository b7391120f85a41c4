import ThreatAtlas.Failure
import ThreatAtlas.Number.Read

/-!
# Taking values apart

Rows of the graph and answers of models come without a fixed shape. Each function here takes a part
of a value out, or says why it cannot.
-/

namespace ThreatAtlas.Value

def fail (why : Mismatch) : Except Failure α :=
  .error (.mismatch why)

def fields (v : Value) (operation : String) : Except Failure Fields :=
  match v with
  | .record fs => .ok fs
  | v => .error (.noMember v.kind.word operation)

def getD (v : Value) (name : String) (default : Value) : Except Failure Value := do
  let fs ← v.fields "get"
  return (fs.lookup name).getD default

def get (v : Value) (name : String) : Except Failure Value :=
  v.getD name .null

/-- The field that must be there. -/
def item (v : Value) (name : String) : Except Failure Value :=
  match v with
  | .record fs =>
    match fs.lookup name with
    | some w => .ok w
    | none => .error (.missingKey (.text name))
  | .list _ => fail (.listIndex .text)
  | .text _ | .unpaired _ => fail (.textIndex .text)
  | v => fail (.notIndexable v.kind)

def first (v : Value) : Except Failure Value :=
  match v with
  | .list (x :: _) => .ok x
  | .list [] => .error (.outOfRange "list")
  | .text s =>
    match s.toList with
    | c :: _ => .ok (.text (String.singleton c))
    | [] => .error (.outOfRange "string")
  | .unpaired u => .ok (ofPoints (u.points.take 1))
  | .record _ => .error (.missingKey (.int 0))
  | v => fail (.notIndexable v.kind)

/-- What a walk through the value meets: items, characters or field names. -/
def elements (v : Value) : Except Failure (List Value) :=
  match v with
  | .list xs => .ok xs
  | .text s => .ok (s.toList.map fun c => .text (String.singleton c))
  | .unpaired u => .ok (u.points.map fun p => ofPoints [p])
  | .record fs => .ok (fs.map fun (name, _) => .text name)
  | v => fail (.notIterable v.kind)

/-- Lists and records cannot be members of a set or keys. -/
def hashable (v : Value) : Except Failure Value :=
  match v with
  | .list _ => fail (.unhashable "list")
  | .record _ | .under _ _ => fail (.unhashable "dict")
  | v => .ok v

def joinable (v : Value) : Except Failure (List Value) :=
  match v.elements with
  | .ok xs => .ok xs
  | .error _ => fail .notJoinable

/-- Puts a value under a key. A new key goes to the end; an equal one keeps its place and spelling. -/
def setKey (key v : Value) : List (Value × Value) → List (Value × Value)
  | [] => [(key, v)]
  | (k, w) :: rest => if k == key then (k, v) :: rest else (k, w) :: setKey key v rest

/-- The pairs of a list, each an item of two parts, with the last value of each key. -/
def keyed (pairs : List (Value × Value)) : List (Value × Nat) → Except Failure (List (Value × Value))
  | [] => .ok pairs
  | (pair, place) :: rest =>
    match pair.elements with
    | .error _ => fail (.notPair place)
    | .ok [key, v] => do keyed (setKey (← key.hashable) v pairs) rest
    | .ok parts => .error (.malformed
        s!"dictionary update sequence element #{place} has length {parts.length}; 2 is required")

def toRecord (v : Value) : Except Failure Fields := do
  match v with
  | .record fs => return fs
  | v =>
    let pairs ← keyed [] (← v.elements).zipIdx
    return pairs.map fun (key, v) => (if key == .null then "null" else key.display, v)

/-- The text that an operation takes; one that cannot be encoded is refused. -/
def asText (v : Value) (operation : String) : Except Failure String :=
  match v with
  | .text s => .ok s
  | .unpaired u => .error (.unencodable u.refusal)
  | v => .error (.noMember v.kind.word operation)

def length (v : Value) : Except Failure Nat :=
  match v with
  | .text s => .ok s.length
  | .unpaired u => .ok u.points.length
  | .list xs => .ok xs.length
  | .record fs => .ok fs.length
  | v => fail (.noLength v.kind)

/-- The first `length` items, or all but the last few when it is negative. -/
def cut (length : Int) (xs : List α) : List α :=
  if length < 0 then xs.take (xs.length - length.natAbs) else xs.take length.toNat

def before (place : Value) (xs : List α) : Except Failure (List α) :=
  match place with
  | .null => .ok xs
  | v =>
    match v.asInt? with
    | some n => .ok (cut n xs)
    | none => fail .sliceBound

def upTo (v place : Value) : Except Failure Value := do
  match v with
  | .text s => return .text (String.ofList (← before place s.toList))
  | .unpaired u => return ofPoints (← before place u.points)
  | .list xs => return .list (← before place xs)
  | .record _ => fail (.unhashable "slice")
  | v => fail (.notIndexable v.kind)

def takeFirst (v : Value) (n : Nat) : Except Failure Value :=
  v.upTo (.int n)

def joinTexts (sep : String) (items : List Value) : Except Failure String := do
  let rec go : Nat → List Value → Except Failure (List String)
    | _, [] => .ok []
    | i, .text s :: rest => do return s :: (← go (i + 1) rest)
    | i, v :: _ => fail (.joinItem i v.kind)
  return sep.intercalate (← go 0 items)

/-- A text or number with blanks behind it up to a width. A truth value is written as a number. -/
def padded (width : Nat) (v : Value) : Except Failure String :=
  match v with
  | .text s => .ok (Text.padRight width s)
  | .real x => .ok (Text.padRight width (Number.write x))
  | v =>
    match v.asInt? with
    | some n => .ok (Text.padRight width (toString n))
    | none => fail (.notFormattable v.kind)

/-- Whether the value `part` is in another: as a part of a text, an item or a field name. -/
def contains (v part : Value) : Except Failure Bool :=
  match v, part with
  | .text s, .text t => .ok (Text.contains t s)
  | .text _, .unpaired _ => .ok false
  | .text _, w => fail (.searchedFor w.kind)
  | .unpaired u, .text t => .ok (Text.contains t u.shown)
  | .unpaired u, .unpaired t =>
    .ok ((List.range u.points.length).any fun i => t.points.isPrefixOf (u.points.drop i))
  | .unpaired _, w => fail (.searchedFor w.kind)
  | .list xs, w => .ok (xs.any (· == w))
  | .record fs, .text name => .ok (fs.lookup name).isSome
  | .record _, w => do
    let _ ← w.hashable
    return false
  | v, _ => fail (.notSearchable v.kind)

def holds (v : Value) (part : String) : Except Failure Bool :=
  v.contains (.text part)

mutual

/-- Whether `v < w`. Numbers of all kinds compare; texts compare with texts, lists with lists. -/
def less : Value → Value → Except Failure Bool
  | .text s, .text t => .ok (s < t)
  | .list xs, .list ys => lessAll xs ys
  | .real x, .real y => .ok (x < y)
  | .real x, w =>
    match w.asInt? with
    | some n => .ok (Number.compareInt n x == some .gt)
    | none => fail (.incomparable "<" .real w.kind)
  | v, .real y =>
    match v.asInt? with
    | some n => .ok (Number.compareInt n y == some .lt)
    | none => fail (.incomparable "<" v.kind .real)
  | v, w =>
    match v.asInt?, w.asInt? with
    | some m, some n => .ok (m < n)
    | _, _ => fail (.incomparable "<" v.kind w.kind)

def lessAll : List Value → List Value → Except Failure Bool
  | _, [] => .ok false
  | [], _ :: _ => .ok true
  | x :: xs, y :: ys => if x.same y then lessAll xs ys else less x y

end

def lesser (v w : Value) : Except Failure Value := do
  if ← w.less v then return w else return v

/-- How a text that is not a whole number is refused; a long text is cut. -/
def notWhole (quoted : String) : Failure :=
  .malformed ("invalid literal for int() with base 10: " ++ Text.take 200 quoted)

def toInt (v : Value) : Except Failure Int :=
  match v with
  | .bool b => .ok (if b then 1 else 0)
  | .int n => .ok n
  | .real x =>
    match Number.exact x, Number.truncate? x with
    | _, some n => .ok n
    | .nan, none => .error (.malformed "cannot convert float NaN to integer")
    | _, none => .error (.overflow "cannot convert float infinity to integer")
  | .text s =>
    match Number.readInt s with
    | .ok n => .ok n
    | .error (.tooLong digits) => .error (.malformed (Number.tooLongText digits))
    | .error .notNumber => .error (notWhole (Text.quoted s))
  | .unpaired u => .error (notWhole (Text.quotedPoints u.points))
  | v => fail (.notNumeric v.kind)

end ThreatAtlas.Value
