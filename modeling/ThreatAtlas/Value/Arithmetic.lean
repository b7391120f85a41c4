import ThreatAtlas.Value.Access

/-!
# Numbers among values

Truth values, whole numbers and reals are added, subtracted and compared across their kinds. A whole
number that meets a real becomes one, if it is not too large.
-/

namespace ThreatAtlas.Value

def toReal (n : Int) : Except Failure Float :=
  let x := Number.ofInt n
  match Number.exact x with
  | .finite _ _ _ => .ok x
  | _ => .error (.overflow "int too large to convert to float")

/-- Two numbers put together by an operation, given for whole numbers and for reals. -/
def combine (sign : String) (whole : Int → Int → Int) (real : Float → Float → Float) (v w : Value) :
    Except Failure Value :=
  match v, w with
  | .real x, .real y => .ok (.real (real x y))
  | .real x, w =>
    match w.asInt? with
    | some n => do return .real (real x (← toReal n))
    | none => fail (.operands sign .real w.kind)
  | v, .real y =>
    match v.asInt? with
    | some m => do return .real (real (← toReal m) y)
    | none => fail (.operands sign v.kind .real)
  | v, w =>
    match v.asInt?, w.asInt? with
    | some m, some n => .ok (.int (whole m n))
    | _, _ => fail (.operands sign v.kind w.kind)

/-- The sum of two numbers, or two texts or lists one after the other. -/
def add (v w : Value) : Except Failure Value :=
  match v, w with
  | .text s, .text t => .ok (.text (s ++ t))
  | .text _, w => fail (.onlyTexts w.kind)
  | .list xs, .list ys => .ok (.list (xs ++ ys))
  | .list _, w => fail (.onlyLists w.kind)
  | v, w => combine "+" (· + ·) (· + ·) v w

def subtract (v w : Value) : Except Failure Value :=
  combine "-" (· - ·) (· - ·) v w

def increment (v : Value) : Except Failure Value :=
  match v with
  | .text _ => fail (.onlyTexts .int)
  | .list _ => fail (.notIterable .int)
  | v => combine "+=" (· + ·) (· + ·) v (.int 1)

def atMost (n : Int) (v : Value) : Except Failure Bool :=
  match v with
  | .real x => .ok ((Number.compareInt n x).any (· != .gt))
  | v =>
    match v.asInt? with
    | some m => .ok (n ≤ m)
    | none => fail (.incomparable "<=" .int v.kind)

def reciprocal (v : Value) : Except Failure Float := do
  let x ← match v with
    | .real x => pure x
    | v =>
      match v.asInt? with
      | some n => toReal n
      | none => fail (.operands "/" .real v.kind)
  if x == 0.0 then .error .divisionByZero else return 1.0 / x

end ThreatAtlas.Value
