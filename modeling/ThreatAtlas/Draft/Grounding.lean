import ThreatAtlas.Draft.Basic
import ThreatAtlas.Job
import ThreatAtlas.Similarity

/-!
# Grounding draft entities
-/

namespace ThreatAtlas.DraftEntity

open Similarity (Ratio)

def similarNodes : String :=
  "
    MATCH (n)
    WHERE toLower(n.name) CONTAINS toLower($name) 
       OR toLower($name) CONTAINS toLower(n.name)
    RETURN n.name as name, coalesce(n.id, elementId(n)) as id, labels(n) as labels
    LIMIT 10
    "

/-- Labels every node may have, which say nothing about it. -/
def generalLabels : List Value :=
  [.text "BaseNode", .text "Resource", .text "Entity"]

structure Node where
  name : String
  id : Value
  label : Value

def similarity (a b : String) : Ratio :=
  Similarity.ratio (Text.lower a) (Text.lower b)

def scoreOf (name found : String) : Ratio :=
  if Text.lower name == Text.lower found then .one else similarity name found

def primaryLabel (row : Value) : Except Failure Value := do
  let labels ← row.item "labels"
  match (← labels.elements).filter fun l => !generalLabels.any (· == l) with
  | l :: _ => return l
  | [] => labels.first

/-- The node of the row, when by this score it is more similar than the best so far. -/
def betterBy (score : String → String → Ratio) (name : String) (best : Option Node × Ratio) (row : Row) :
    Except Failure (Option Node × Ratio) := do
  let found ← (← row.item "name").asText "lower"
  let label ← primaryLabel (.record row)
  if best.2.lt (score name found) then
    return (some ⟨found, ← row.item "id", label⟩, score name found)
  else return best

/-- The first of the nodes most similar by this score, and how similar it is. -/
def closest (score : String → String → Ratio) (name : String) (rows : List Row) :
    Except Failure (Option Node × Ratio) :=
  rows.foldlM (betterBy score name) (none, .zero)

def isClose (r : Ratio) : Bool :=
  !r.lt ⟨8, 10⟩

/-- Takes over the name, id and label of the most similar node, if it is close. -/
def takenFrom (e : DraftEntity) (best : Option Node × Ratio) : DraftEntity :=
  match best.1 with
  | some node =>
    if isClose best.2 then
      { e with
        normalized := some node.name, existingId := some node.id.display
        graphLabel := node.label, score := best.2.toFloat }
    else
      { e with
        normalized := some e.name, graphLabel := .text e.label.name, score := best.2.toFloat }
  | none =>
    { e with normalized := some e.name, graphLabel := .text e.label.name, score := 0.0 }

def similarQuery (e : DraftEntity) : Query :=
  ⟨similarNodes, [("name", .text e.name)]⟩

variable {σ : Type} [Outside σ]

def groundBy (score : String → String → Ratio) (e : DraftEntity) : Job σ DraftEntity := do
  if e.label == .incident || e.label == .security then
    return { e with normalized := some e.name, score := 1.0 }
  return e.takenFrom (← closest score e.name (← Job.askOrNone e.similarQuery))

def ground (e : DraftEntity) : Job σ DraftEntity :=
  e.groundBy scoreOf

end ThreatAtlas.DraftEntity
