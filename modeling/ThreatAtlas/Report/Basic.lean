import ThreatAtlas.Value.Decode

/-!
# Intelligence reports

A report tells an attack as numbered steps, each with the entities it involves.
-/

namespace ThreatAtlas

inductive EntityKind where
  | ip | domain | url | hash | malware | vulnerability | tool | person | organization
  | cryptocurrency | email
deriving Repr, DecidableEq

namespace EntityKind

def all : List EntityKind :=
  [.ip, .domain, .url, .hash, .malware, .vulnerability, .tool, .person, .organization,
    .cryptocurrency, .email]

def name : EntityKind → String
  | .ip => "IP"
  | .domain => "Domain"
  | .url => "URL"
  | .hash => "Hash"
  | .malware => "Malware"
  | .vulnerability => "Vulnerability"
  | .tool => "Tool"
  | .person => "Person"
  | .organization => "Organization"
  | .cryptocurrency => "Cryptocurrency"
  | .email => "Email"

def decode (v : Value) : Except Failure EntityKind :=
  match v with
  | .text s =>
    match all.find? (·.name == s) with
    | some k => .ok k
    | none => .error .invalid
  | _ => .error .invalid

end EntityKind

structure Entity where
  kind : EntityKind
  value : String
  /-- The name under which the entity is stored. -/
  normalized : Option String := none
  /-- The graph's id of a node that is the same thing, or `null`. -/
  existingId : Value := .null
  isNew : Bool := true

namespace Entity

def decode (v : Value) : Except Failure Entity := do
  let fs ← Value.Decode.fields v
  let kind ← Value.Decode.required fs "type" EntityKind.decode
  let value ← Value.Decode.required fs "value" Value.Decode.text
  let normalized ← Value.Decode.optional fs "normalized_value" none Value.Decode.optionalText
  let existing ← Value.Decode.optional fs "existing_id" none Value.Decode.optionalText
  let isNew ← Value.Decode.optional fs "is_new" true Value.Decode.bool
  return ⟨kind, value, normalized, .ofOption existing, isNew⟩

def toFields (e : Entity) : Fields :=
  [("type", .text e.kind.name), ("value", .text e.value),
    ("normalized_value", .ofOption e.normalized), ("existing_id", e.existingId),
    ("is_new", .bool e.isNew)]

def toValue (e : Entity) : Value :=
  .record e.toFields

end Entity

structure Step where
  number : Int
  phase : String
  description : String
  entities : List Entity := []

namespace Step

def decode (v : Value) : Except Failure Step := do
  let fs ← Value.Decode.fields v
  let number ← Value.Decode.required fs "step" Value.Decode.int
  let phase ← Value.Decode.required fs "phase" Value.Decode.text
  let description ← Value.Decode.required fs "description" Value.Decode.text
  let entities ← Value.Decode.optional fs "related_entities" [] (Value.Decode.list Entity.decode)
  return ⟨number, phase, description, entities⟩

def toValue (s : Step) : Value :=
  .record [("step", .int s.number), ("phase", .text s.phase),
    ("description", .text s.description),
    ("related_entities", .list (s.entities.map Entity.toValue))]

end Step

inductive Category where
  | incident
  | malwareReport
  | threatReport
  | vulnerabilityReport
  /-- Anything that is not one of the four. -/
  | other (v : Value)

namespace Category

def known : List (String × Category) :=
  [("Incident", .incident), ("MalwareReport", .malwareReport), ("ThreatReport", .threatReport),
    ("VulnerabilityReport", .vulnerabilityReport)]

def ofValue (v : Value) : Category :=
  match v with
  | .text s => (known.lookup s).getD (.other v)
  | v => .other v

def toValue : Category → Value
  | .incident => .text "Incident"
  | .malwareReport => .text "MalwareReport"
  | .threatReport => .text "ThreatReport"
  | .vulnerabilityReport => .text "VulnerabilityReport"
  | .other v => v

def decode (v : Value) : Except Failure Category :=
  match ofValue v with
  | .other _ => .error .invalid
  | c => .ok c

def label : Category → String
  | .incident => "Incident"
  | .malwareReport => "MalwareReport"
  | .threatReport => "ThreatReport"
  | .vulnerabilityReport => "VulnerabilityReport"
  | .other _ => "Report"

end Category

structure Report where
  title : String
  category : Category
  summary : String
  timestamp : Option String := none
  victim : Option String := none
  attacker : Option String := none
  steps : List Step

namespace Report

def decode (v : Value) : Except Failure Report := do
  let fs ← Value.Decode.fields v
  let title ← Value.Decode.required fs "title" Value.Decode.text
  let category ← Value.Decode.required fs "category" Category.decode
  let summary ← Value.Decode.required fs "summary" Value.Decode.text
  let timestamp ← Value.Decode.optional fs "timestamp" none Value.Decode.optionalText
  let victim ← Value.Decode.optional fs "victim_org" none Value.Decode.optionalText
  let attacker ← Value.Decode.optional fs "attacker_group" none Value.Decode.optionalText
  let steps ← Value.Decode.required fs "attack_flow" (Value.Decode.list Step.decode)
  return ⟨title, category, summary, timestamp, victim, attacker, steps⟩

def header (r : Report) : Fields :=
  [("title", .text r.title), ("category", r.category.toValue), ("summary", .text r.summary),
    ("timestamp", .ofOption r.timestamp), ("victim_org", .ofOption r.victim),
    ("attacker_group", .ofOption r.attacker)]

def stepsValue (r : Report) : Value :=
  .list (r.steps.map Step.toValue)

def toValue (r : Report) : Value :=
  .record (r.header ++ [("attack_flow", r.stepsValue)])

def entities (r : Report) : List Entity :=
  r.steps.flatMap Step.entities

end Report

/-- Whether an entity is one of several candidates, as a model judges it. -/
structure Resolution where
  isMatch : Bool
  matchedId : Option String := none
  name : Option String := none

def Resolution.decode (v : Value) : Except Failure Resolution := do
  let fs ← Value.Decode.fields v
  let isMatch ← Value.Decode.required fs "is_match" Value.Decode.bool
  let matchedId ← Value.Decode.optional fs "matched_id" none Value.Decode.optionalText
  let name ← Value.Decode.optional fs "normalized_name" none Value.Decode.optionalText
  return ⟨isMatch, matchedId, name⟩

end ThreatAtlas
