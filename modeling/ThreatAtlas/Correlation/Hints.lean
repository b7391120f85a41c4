import ThreatAtlas.Job
import ThreatAtlas.Pieces

/-!
# Hints for the next clue

Values worth trying: those related to a malware already among the clues come first.
-/

namespace ThreatAtlas.Correlation

def firstOfKind (kind : String) : List Value → Except Failure Value
  | [] => .ok .null
  | a :: rest => do
    if (← a.item "type") == .text kind then a.item "value" else firstOfKind kind rest

def relatedIndicators (malware limit : Value) : String :=
  "MATCH (m:Malware)<-[:INDICATES]-(i:Indicator) WHERE toLower(m.name) = toLower(\"" ++ malware.display ++ "\") RETURN DISTINCT i.url as val LIMIT " ++ limit.display

/-- The query for values of a kind, when that kind has one. -/
def valuesOfKind (kind needed : Value) : Option String :=
  match kind with
  | .text "Indicator" =>
    some ("MATCH (n:Indicator) RETURN n.url as val ORDER BY rand() LIMIT " ++ needed.display)
  | .text "Malware" =>
    some ("MATCH (n:Malware) RETURN n.name as val ORDER BY n.name LIMIT " ++ needed.display)
  | .text "Threat Group" =>
    some ("MATCH (n:ThreatGroup) RETURN n.name as val ORDER BY n.name LIMIT " ++ needed.display)
  | _ => none

def isRelated (hint : String) : Bool :=
  Text.startsWith "[Rel]" hint

def relatedFirst (hints : List String) : List String :=
  hints.filter isRelated ++ hints.filter (!isRelated ·)

/-- An order for sets of hints, in which each of those found comes once. -/
structure Enumeration where
  order : List String → List String
  nodup : ∀ found, (order found).Nodup
  mem_iff : ∀ found hint, hint ∈ order found ↔ hint ∈ found

def Enumeration.firstMet : Enumeration where
  order := List.eraseDups
  nodup := nodup_eraseDups
  mem_iff _ _ := List.mem_eraseDups

variable {σ : Type} [Outside σ]

def relatedHints (kind artifacts limit : Value) : Job σ (List Value) := do
  if artifacts.truthy then
    let items ← artifacts.elements
    let malware ← firstOfKind "Malware" items
    let _ ← firstOfKind "Indicator" items
    if kind == .text "Indicator" && malware.truthy then
      let rows ← Job.ask (relatedIndicators malware limit)
      let values ← Row.column "val" rows
      return values.map fun v => Value.text s!"[Rel] {v.display}"
    else return []
  else return []

def furtherHints (kind limit : Value) (count : Nat) : Job σ (List Value) := do
  if ← (Value.int count).less limit then
    match valuesOfKind kind (← limit.subtract (.int count)) with
    | some q =>
      let rows ← Job.ask q
      (Row.column "val" rows : Except Failure _)
    | none => return []
  else return []

def findHints (kind artifacts limit : Value) : Job σ (List String) := do
  let related ← relatedHints kind artifacts limit
  let further ← furtherHints kind limit related.length
  let values ← ((related ++ further).mapM Value.hashable : Except Failure _)
  (values.mapM (Value.asText · "startswith") : Except Failure _)

/-- The hints found as a set in some order, the related ones first, up to the limit. -/
def hintsIn (e : Enumeration) (kind artifacts limit : Value) : Job σ (List String) := do
  let found ← findHints kind artifacts limit
  (Value.before limit (relatedFirst (e.order found)) : Except Failure _)

def hints (kind artifacts : Value) (limit : Value := .int 20) : Job σ (List String) :=
  hintsIn .firstMet kind artifacts limit

end ThreatAtlas.Correlation
