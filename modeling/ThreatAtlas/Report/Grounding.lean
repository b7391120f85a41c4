import ThreatAtlas.Models
import ThreatAtlas.Similarity

/-!
# Grounding entities

An entity that the graph already knows takes the name and id of its node. A name that is nearly the
same is taken at once; of one that is only similar a model is asked.
-/

namespace ThreatAtlas.Entity

open Similarity (Ratio)

structure Candidate where
  name : String
  id : Value
  score : Ratio

def nodesByName : String := "
            MATCH (n)
            WHERE toLower(n.name) CONTAINS toLower($val) 
            RETURN n.name as name, elementId(n) as id, labels(n) as labels
            LIMIT 3
            "

def ungrounded (e : Entity) : Entity :=
  { e with normalized := some e.value, isNew := true }

def candidate (e : Entity) (row : Row) : Except Failure Candidate := do
  let row := Value.record row
  let found ← (← row.item "name").asText "lower"
  let score := Similarity.ratio (Text.lower e.value) (Text.lower found)
  let id ← row.item "id"
  let _ ← row.item "labels"
  return ⟨found, id, score⟩

def best? : List Candidate → Option Candidate
  | [] => none
  | c :: cs => some (cs.foldl (fun best c => if best.score.lt c.score then c else best) c)

def isCertain (r : Ratio) : Bool :=
  Ratio.lt ⟨9, 10⟩ r

def isLikely (r : Ratio) : Bool :=
  Ratio.lt ⟨6, 10⟩ r

def question (e : Entity) (candidates : List Candidate) : String :=
  let choices := "\n".intercalate (candidates.map fun c => s!"- {c.name} (ID: {c.id.display})")
  s!"Is '{e.value}' ({e.kind.name}) essentially the same as any of these?\n{choices}"

def nodesQuery (e : Entity) : Query :=
  ⟨nodesByName, [("val", .text e.value)]⟩

variable {σ : Type} [Outside σ]

def resolve (model : Model) (e : Entity) (candidates : List Candidate) : Job σ (Option Resolution) :=
  Job.recover
    (Job.consultShaped
      { model, prompt := .plain (e.question candidates), shape := some "EntityResolution" }
      Resolution.decode)
    fun _ => return none

def ground (model : Model) (e : Entity) : Job σ Entity := do
  let e := e.ungrounded
  let rows ← Job.askOrNone e.nodesQuery
  let candidates ← (rows.mapM e.candidate : Except Failure _)
  match best? candidates with
  | none => return e
  | some best =>
    if isCertain best.score then
      return { e with normalized := some best.name, existingId := best.id, isNew := false }
    else if isLikely best.score then
      match ← resolve model e candidates with
      | some r =>
        if r.isMatch then
          return { e with
            normalized := r.name, existingId := .ofOption r.matchedId, isNew := false }
        else return e
      | none => return e
    else return e

end ThreatAtlas.Entity
