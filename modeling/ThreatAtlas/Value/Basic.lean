import ThreatAtlas.Number.Binary
import ThreatAtlas.Text.Case
import ThreatAtlas.Text.CodePoint

/-!
# Values

What the graph stores, models answer and documents hold: scalars, lists and records. A record keeps
its fields in the order in which their names were first set, and a name occurs once.
-/

namespace ThreatAtlas

inductive Value where
  | null
  | bool (b : Bool)
  | int (n : Int)
  | real (x : Float)
  | text (s : String)
  | unpaired (u : Unpaired)
  | list (items : List Value)
  | record (fields : List (String × Value))
  /-- The value of a field whose name cannot be encoded. -/
  | under (name : Unpaired) (v : Value)
deriving Inhabited

abbrev Fields := List (String × Value)

namespace Fields

def get? (fields : Fields) (name : String) : Option Value :=
  fields.lookup name

def get (fields : Fields) (name : String) : Value :=
  (fields.lookup name).getD .null

/-- A new name goes to the end; a known one keeps its place. -/
def set : Fields → String → Value → Fields
  | [], name, v => [(name, v)]
  | (n, w) :: rest, name, v => if n == name then (n, v) :: rest else (n, w) :: set rest name v

def erase (fields : Fields) (name : String) : Fields :=
  fields.filter (·.1 != name)

def has (fields : Fields) (name : String) : Bool :=
  (fields.lookup name).isSome

/-- Fields from pairs in which a name may be repeated: the last value counts, in the first place. -/
def ofPairs (pairs : List (String × Value)) : Fields :=
  pairs.foldl (fun fields (name, v) => fields.set name v) []

end Fields

namespace Value

/-- What a value is, as error texts name it. -/
inductive Kind where
  | null | bool | int | real | text | list | record
deriving Repr, DecidableEq

def Kind.word : Kind → String
  | .null => "NoneType"
  | .bool => "bool"
  | .int => "int"
  | .real => "float"
  | .text => "str"
  | .list => "list"
  | .record => "dict"

def kind : Value → Kind
  | .null => .null
  | .bool _ => .bool
  | .int _ => .int
  | .real _ => .real
  | .text _ => .text
  | .unpaired _ => .text
  | .list _ => .list
  | .record _ => .record
  | .under _ v => v.kind

/-- Null, false, zero and everything empty are not truthy. -/
def truthy : Value → Bool
  | .null => false
  | .bool b => b
  | .int n => n != 0
  | .real x => x != 0.0
  | .text s => !s.isEmpty
  | .unpaired _ => true
  | .list items => !items.isEmpty
  | .record fields => !fields.isEmpty
  | .under _ v => v.truthy

def orElse (v : Value) (w : Value) : Value :=
  if v.truthy then v else w

/-- A truth value counts as the number one or zero. -/
def asInt? : Value → Option Int
  | .bool b => some (if b then 1 else 0)
  | .int n => some n
  | _ => none

def isNaN : Value → Bool
  | .real x => x != x
  | _ => false

/-- Equality of values other than lists and records; numbers are equal across their kinds, and what is
not a number is the same as itself. -/
def sameScalar : Value → Value → Bool
  | .null, .null => true
  | .text s, .text t => s == t
  | .unpaired u, .unpaired w => u == w
  | .real x, .real y => x == y || (x != x && y != y)
  | .real x, w => (w.asInt?.bind (Number.compareInt · x)) == some .eq
  | v, .real y => (v.asInt?.bind (Number.compareInt · y)) == some .eq
  | v, w =>
    match v.asInt?, w.asInt? with
    | some m, some n => m == n
    | _, _ => false

mutual

/-- Equality of values. The order of a record's fields does not count. -/
def same : Value → Value → Bool
  | .list xs, .list ys => sameAll xs ys
  | .record fs, .record gs => fs.length == gs.length && sameFields fs gs
  | .under m v, .under n w => m == n && same v w
  | v, w => sameScalar v w

def sameAll : List Value → List Value → Bool
  | [], [] => true
  | x :: xs, y :: ys => same x y && sameAll xs ys
  | _, _ => false

def sameFields : List (String × Value) → List (String × Value) → Bool
  | [], _ => true
  | (name, v) :: rest, gs =>
    (match gs.lookup name with
      | some w => same v w
      | none => false) && sameFields rest gs

end

instance : BEq Value := ⟨same⟩

/-- Equality as a comparison of two numbers has it: what is not a number equals nothing. -/
def equal (v w : Value) : Bool :=
  !v.isNaN && v.same w

def ofPoints (points : List CodePoint) : Value :=
  if h : points.any CodePoint.isHalf = true then .unpaired ⟨points, h⟩ else .text (CodePoint.text points)

def texts (items : List String) : Value :=
  .list (items.map .text)

def ofOption : Option String → Value
  | some s => .text s
  | none => .null

instance : Coe String Value := ⟨.text⟩

instance : Coe Bool Value := ⟨.bool⟩

end Value

/-- The field of this name. A name that cannot be encoded is kept with the value. -/
def Fields.entry (name : List CodePoint) (v : Value) : String × Value :=
  (CodePoint.text name, if h : name.any CodePoint.isHalf = true then .under ⟨name, h⟩ v else v)

end ThreatAtlas
