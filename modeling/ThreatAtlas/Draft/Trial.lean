import ThreatAtlas.Draft.Grounding
import ThreatAtlas.Draft.Refine
import ThreatAtlas.Models

/-!
# Trying out a draft on the console

A text from standard input is drafted, refined and grounded, and the result is printed as a table.
-/

namespace ThreatAtlas.Draft

def shortName (s : String) : String :=
  if 32 < s.length then Text.take 32 s ++ ".." else s

def tableLine (e : DraftEntity) : Except Failure String := do
  let status := if (e.existingId.getD "").isEmpty then "NEW" else "EXISTING"
  let label ← (e.graphLabel.orElse (.text e.label.name)).padded 15
  return " | ".intercalate [label, Text.padRight 35 (shortName (e.normalized.getD "")),
    Text.padRight 10 status, Number.fixed 2 e.score]

def edgeLines (rs : List Relationship) : List String :=
  (rs.take 21).map (fun r => s!"  ({r.source}) --[{r.kind}]--> ({r.target})") ++
    if 21 < rs.length then ["... (more edges hidden)"] else []

variable {σ : Type} [Outside σ]

def read (text : String) : Job σ (Option Draft) := do
  Job.consultShaped
    { model := .bare (← Job.settings), prompt := .plain text, shape := some "GraphExtraction" }
    decode

def groundAll : List DraftEntity → Job σ (List DraftEntity)
  | [] => return []
  | e :: es => do
    let grounded ← e.ground
    return grounded :: (← groundAll es)

def tryOut : Job σ Unit := do
  let rule := Text.repeated '=' 60
  Job.say ("\n" ++ rule)
  Job.say "📝 Paste your threat report text below. (Ctrl+D to submit)"
  Job.say rule
  let text := Text.strip (← get).standardInput
  if text.isEmpty then return
  Job.say "\n🚀 [Step 1] Hybrid Extraction (LLM + Regex)..."
  match ← read text with
  | none => throw (.noMember Value.Kind.null.word "entities")
  | some draft =>
    Job.say s!"   -> LLM found: {draft.entities.length} entities."
    let found := indicators text
    Job.say s!"   -> Regex found: {found.length} potential IOCs."
    let result := draft.refine found
    let entities := result.entities.filter (·.label != .security)
    Job.say s!"   -> Merged Total: {entities.length} entities."
    Job.say "\n🚀 [Step 2] Grounding with Neo4j..."
    let entities ← groundAll entities
    Job.say ("\n" ++ Text.repeated '=' 80)
    Job.say (" | ".intercalate
      [Text.padRight 15 "TYPE", Text.padRight 35 "NAME", Text.padRight 10 "STATUS", "SCORE"])
    Job.say (Text.repeated '-' 80)
    for e in entities do
      Job.say (← tableLine e)
    Job.say "\n[Edges (Sample)]"
    for line in edgeLines result.relationships do
      Job.say line

end ThreatAtlas.Draft
