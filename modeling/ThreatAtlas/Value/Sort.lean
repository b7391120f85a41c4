import ThreatAtlas.Value.Access

/-!
# Sorting by values

Keys need not be comparable with each other; then sorting fails, and which two keys it names depends on
the order in which they are compared. The items are therefore taken run by run: a run that rises, or
falls and is turned round, is brought to a least length by inserting the next items, and the runs are
merged.
-/

namespace ThreatAtlas.Value

/-- The rest of a run that falls: the run, turned round, and what follows it. -/
def fallFrom (last : Value) (run : List (Value × α)) :
    List (Value × α) → Except Failure (List (Value × α) × List (Value × α))
  | [] => .ok (run, [])
  | (key, x) :: rest => do
    if ← key.less last then fallFrom key ((key, x) :: run) rest else return (run, (key, x) :: rest)

/-- The rest of a run that does not fall, with what has been taken reversed. -/
def riseFrom (last : Value) (run : List (Value × α)) :
    List (Value × α) → Except Failure (List (Value × α) × List (Value × α))
  | [] => .ok (run.reverse, [])
  | (key, x) :: rest => do
    if ← key.less last then return (run.reverse, (key, x) :: rest)
    else riseFrom key ((key, x) :: run) rest

/-- The run at the front, in rising order, and what follows it. -/
def leadingRun : List (Value × α) → Except Failure (List (Value × α) × List (Value × α))
  | (k, x) :: (key, y) :: rest => do
    if ← key.less k then fallFrom key [(key, y), (k, x)] rest
    else riseFrom key [(key, y), (k, x)] rest
  | items => .ok (items, [])

/-- The place for a key between `low` and `high` in rising keys, behind equal ones, found by halving. -/
def placeFor (key : Value) (keys : List Value) (low high : Nat) : Except Failure Nat :=
  if low < high then
    let middle := low + (high - low) / 2
    match keys[middle]? with
    | none => .ok low
    | some k => do
      if ← key.less k then placeFor key keys low middle else placeFor key keys (middle + 1) high
  else .ok low
termination_by high - low

def insertInRun (run : List (Value × α)) (item : Value × α) : Except Failure (List (Value × α)) := do
  let place ← placeFor item.1 (run.map (·.1)) 0 run.length
  return run.take place ++ item :: run.drop place

/-- Two runs merged; of equal keys those of the first come first. -/
def mergeRuns : List (Value × α) → List (Value × α) → Except Failure (List (Value × α))
  | [], ys => .ok ys
  | xs, [] => .ok xs
  | x :: xs, y :: ys => do
    if ← y.1.less x.1 then return y :: (← mergeRuns (x :: xs) ys)
    else return x :: (← mergeRuns xs (y :: ys))
termination_by xs ys => xs.length + ys.length

/-- The least length of a run among `n` items: its leading six bits, rounded up. -/
def leastRun (n : Nat) (roundUp : Bool := false) : Nat :=
  if n < 64 then n + roundUp.toNat else leastRun (n / 2) (roundUp || n % 2 == 1)

/-- The items sorted run by run onto a sorted list. There are at most `fuel` runs. -/
def sortRuns (least : Nat) : Nat → List (Value × α) → List (Value × α) →
    Except Failure (List (Value × α))
  | _, sorted, [] => .ok sorted
  | 0, sorted, _ => .ok sorted
  | fuel + 1, sorted, items => do
    let (run, rest) ← leadingRun items
    let missing := least - run.length
    let run ← (rest.take missing).foldlM insertInRun run
    sortRuns least fuel (← mergeRuns sorted run) (rest.drop missing)

/-- The items with whole numbers for keys, if all keys are such. -/
def wholeKeys? : List (Value × α) → Option (List (Int × α))
  | [] => some []
  | (.int n, x) :: rest => (wholeKeys? rest).map ((n, x) :: ·)
  | _ => none

/-- The items by rising keys, those with equal keys in the given order. -/
def sortByKey (items : List (Value × α)) : Except Failure (List α) :=
  match wholeKeys? items with
  | some items => .ok ((items.mergeSort fun a b => a.1 ≤ b.1).map (·.2))
  | none => do return (← sortRuns (leastRun items.length) items.length [] items).map (·.2)

end ThreatAtlas.Value
