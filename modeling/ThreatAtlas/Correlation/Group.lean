import ThreatAtlas.Value.Arithmetic

/-!
# Suspected groups

What speaks for a threat group: how near the clues are to it, which of them meet it, and which other
nodes lie between. From this its score is made.
-/

namespace ThreatAtlas.Correlation

def proximity (distance : Value) : Except Failure Float := do
  (← (Value.int 1).add distance).reciprocal

/-- The value of each clue under its lower case form. Of two values with one form the later counts,
in the earlier one's place. -/
abbrev Clues := List (String × String)

namespace Clues

def add : Clues → String → Clues
  | [], value => [(Text.lower value, value)]
  | (low, old) :: rest, value =>
    if low == Text.lower value then (low, value) :: rest else (low, old) :: add rest value

def ofValues (values : List String) : Clues :=
  values.foldl add []

end Clues

structure PathNode where
  name : String
  /-- Whether its label is one of those that count as shared knowledge. -/
  isClue : Bool

def overlap (a b : String) : Bool :=
  Text.contains a b || Text.contains b a

def clueHits (clues : Clues) (name : String) : List String :=
  let low := Text.lower name
  (clues.filter fun (clue, _) => !clue.isEmpty && !low.isEmpty && overlap clue low).map (·.2)

/-- A node of shared knowledge is none of the clues, nor the group itself. -/
def isShared (clues : Clues) (group : Value) (node : PathNode) : Bool :=
  node.isClue && !clues.any (fun (clue, _) => overlap clue (Text.lower node.name)) &&
    !(Value.text node.name == group)

def insertNew (xs : List String) (x : String) : List String :=
  if xs.contains x then xs else xs ++ [x]

structure Group where
  name : Value
  /-- The least number of steps to it. -/
  nearest : Value := .int 999
  /-- The names along each path, in the order met. -/
  paths : List (List String) := []
  hits : List String := []
  shared : List String := []

namespace Group

def absorb (clues : Clues) (path : List PathNode) (g : Group) : Group :=
  { g with
    paths := g.paths ++ [path.map PathNode.name]
    hits := (path.flatMap fun n => clueHits clues n.name).foldl insertNew g.hits
    shared := ((path.filter (isShared clues g.name)).map PathNode.name).foldl insertNew g.shared }

def namesIncident (g : Group) : Bool :=
  g.paths.any (·.any (Text.contains "Incident"))

end Group

structure Weights (α : Type) where
  proximity : α
  breadth : α
  overlap : α
  incident : α

def weights : Weights Float :=
  ⟨0.2, 0.6, 0.2, 1.15⟩

/-- The score from its three parts, raised when an incident is named. -/
def combine [Add α] [Mul α] (w : Weights α) (proximity breadth overlap : α) (incident : Bool) : α :=
  let score := proximity * w.proximity + breadth * w.breadth + overlap * w.overlap
  if incident then score * w.incident else score

namespace Group

def breadth (g : Group) (clueCount : Nat) : Float :=
  g.hits.length.toFloat / clueCount.toFloat

/-- Ten shared nodes make the most of it. -/
def sharing (g : Group) : Float :=
  let share := g.shared.length.toFloat / 10.0
  if share < 1.0 then share else 1.0

def score (g : Group) (clueCount : Nat) : Except Failure Float := do
  return combine weights (← proximity g.nearest) (g.breadth clueCount) g.sharing g.namesIncident

end Group

structure Finding where
  group : Value
  score : Float
  percent : Float
  hits : List String
  shared : List String
  samplePaths : List (List String)

def sortTexts (xs : List String) : List String :=
  xs.mergeSort fun a b => !(b < a)

namespace Finding

def ofGroup (clueCount : Nat) (g : Group) : Except Failure Finding := do
  let raw ← g.score clueCount
  let percent := Number.round 1 (raw * 100.0)
  return {
    group := g.name
    score := Number.round 3 raw
    percent := if 100.0 < percent then 100.0 else percent
    hits := sortTexts g.hits
    shared := sortTexts g.shared
    samplePaths := g.paths.take 3 }

def matchesText (f : Finding) : String :=
  if f.hits.isEmpty then "Indirect Connection" else " | ".intercalate f.hits

def evidence (f : Finding) : String :=
  ", ".intercalate (f.shared.take 5)

def toFields (f : Finding) : Fields :=
  [("type", .text "ThreatGroup"), ("label", f.group), ("score", .real f.score),
    ("percent", .real f.percent), ("matches", .text f.matchesText), ("evidence", .text f.evidence),
    ("uri", f.group)]

def summary (f : Finding) : Value :=
  .record [("ThreatGroup", f.group), ("MatchConfidence", .text s!"{Number.write f.percent}%"),
    ("DirectInputHits", .texts f.hits), ("SharedKnowledgeNodes", .texts f.shared),
    ("SamplePaths", .list (f.samplePaths.map .texts))]

/-- The findings by falling score, equal ones in the order met, fifteen at most. -/
def rank (fs : List Finding) : List Finding :=
  (fs.mergeSort fun a b => !(a.score < b.score)).take 15

end Finding

end ThreatAtlas.Correlation
