import ThreatAtlas.Value.Decode

/-!
# Drafts

A draft is a first sketch of a graph read from a text: labelled entities and the relationships
between their names.
-/

namespace ThreatAtlas

inductive DraftLabel where
  | incident | malware | threatGroup | vulnerability | technique | indicator | security | tool
deriving Repr, DecidableEq

namespace DraftLabel

def all : List DraftLabel :=
  [.incident, .malware, .threatGroup, .vulnerability, .technique, .indicator, .security, .tool]

def name : DraftLabel → String
  | .incident => "Incident"
  | .malware => "Malware"
  | .threatGroup => "ThreatGroup"
  | .vulnerability => "Vulnerability"
  | .technique => "AttackTechnique"
  | .indicator => "Indicator"
  | .security => "SecurityEntity"
  | .tool => "Tool"

def decode (v : Value) : Except Failure DraftLabel :=
  match v with
  | .text s =>
    match all.find? (·.name == s) with
    | some l => .ok l
    | none => .error .invalid
  | _ => .error .invalid

end DraftLabel

structure DraftEntity where
  name : String
  label : DraftLabel
  reasoning : String
  normalized : Option String := none
  existingId : Option String := none
  /-- The label of the node that is the same thing, or of the entity itself. -/
  graphLabel : Value := .null
  score : Float := 0.0

namespace DraftEntity

def decode (v : Value) : Except Failure DraftEntity := do
  let fs ← Value.Decode.fields v
  let name ← Value.Decode.required fs "name" Value.Decode.text
  let label ← Value.Decode.required fs "label" DraftLabel.decode
  let reasoning ← Value.Decode.required fs "reasoning" Value.Decode.text
  let normalized ← Value.Decode.optional fs "normalized_name" none Value.Decode.optionalText
  let existingId ← Value.Decode.optional fs "existing_id" none Value.Decode.optionalText
  let graphLabel ← Value.Decode.optional fs "db_label" none Value.Decode.optionalText
  let score ← Value.Decode.optional fs "match_score" 0.0 Value.Decode.real
  return ⟨name, label, reasoning, normalized, existingId, .ofOption graphLabel, score⟩

def toValue (e : DraftEntity) : Value :=
  .record [("name", .text e.name), ("label", .text e.label.name), ("reasoning", .text e.reasoning),
    ("normalized_name", .ofOption e.normalized), ("existing_id", .ofOption e.existingId),
    ("db_label", e.graphLabel), ("match_score", .real e.score)]

end DraftEntity

structure Relationship where
  source : String
  target : String
  kind : String

namespace Relationship

def decode (v : Value) : Except Failure Relationship := do
  let fs ← Value.Decode.fields v
  let source ← Value.Decode.required fs "source" Value.Decode.text
  let target ← Value.Decode.required fs "target" Value.Decode.text
  let kind ← Value.Decode.required fs "type" Value.Decode.text
  return ⟨source, target, kind⟩

def toValue (r : Relationship) : Value :=
  .record [("source", .text r.source), ("target", .text r.target), ("type", .text r.kind)]

end Relationship

structure Draft where
  entities : List DraftEntity
  relationships : List Relationship

namespace Draft

def decode (v : Value) : Except Failure Draft := do
  let fs ← Value.Decode.fields v
  let entities ← Value.Decode.required fs "entities" (Value.Decode.list DraftEntity.decode)
  let relationships ←
    Value.Decode.required fs "relationships" (Value.Decode.list Relationship.decode)
  return ⟨entities, relationships⟩

def toValue (d : Draft) : Value :=
  .record [("entities", .list (d.entities.map DraftEntity.toValue)),
    ("relationships", .list (d.relationships.map Relationship.toValue))]

end Draft

end ThreatAtlas
