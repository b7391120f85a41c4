import ThreatAtlas.Indicator.Clean
import ThreatAtlas.Job
import ThreatAtlas.Toolbox.Queries

/-!
# Tools that search the graph

A tool answers with a text: rows as JSON, cut to a length that a model can take in.
-/

namespace ThreatAtlas.Toolbox

def rowsValue (rows : List Row) : Value :=
  .list (rows.map .record)

def cutJson (length : Nat) (v : Value) : String :=
  Text.take length (Json.write v)

def nothingFound : String := "No results found."

variable {σ : Type} [Outside σ]

def execute (query : String) (params : Fields := []) : Job σ String :=
  Job.recover
    (do
      let rows ← Job.ask query params
      return if rows.isEmpty then nothingFound else cutJson 4000 (rowsValue rows))
    fun e => return s!"Cypher Error: {e.message}"

def firstValue : Row → Except Failure Value
  | (_, v) :: _ => .ok v
  | [] => .error (.outOfRange "list")

def somePresent : List Row → Except Failure Bool
  | [] => .ok false
  | row :: _ => do return 0 < (← (← firstValue row).toInt)

def hasProcedures : Job σ Bool :=
  Job.recover (do somePresent (← Job.ask Queries.countProcedures)) fun _ =>
    Job.recover (do somePresent (← Job.ask Queries.countProceduresBefore)) fun _ => return false

def schemaOverview (labels types : String) : String :=
  "
[Graph Schema Overview]
Available Node Labels: " ++ labels ++ "
Available Relationship Types: " ++ types ++ "

Key Node Properties:
- Incident: title, summary, timestamp
- AttackStep: phase, description, outcome, order
- Entity (General): name, original_value, type, description
- Malware: name, description
- Vulnerability: cve_id, description
- ThreatGroup: name, description

Core Ontology Connections:
- (Incident)-[:HAS_ATTACK_FLOW]->(AttackStep)-[:INVOLVES_ENTITY]->(Entity)
- (Incident)-[:TARGETS]->(Identity)
- (AttackStep)-[:USES_MALWARE]->(Malware)
- (AttackStep)-[:EXPLOITS]->(Vulnerability)
- (AttackStep)-[:HAS_INDICATOR]->(Indicator)
- (ThreatGroup)-[:ATTRIBUTED_TO]-(Incident)
- (ThreatGroup)-[:ALIASED_AS]->(AliasNode)
        "

def inspectSchema : Job σ String :=
  Job.recover
    (do
      let labelRows ← Job.ask Queries.labels
      let typeRows ← Job.ask Queries.relationshipTypes
      let labels ← (labelRows.mapM firstValue : Except Failure _)
      let types ← (typeRows.mapM firstValue : Except Failure _)
      return schemaOverview (← Value.joinTexts ", " labels) (← Value.joinTexts ", " types))
    fun e => return s!"Failed to inspect schema: {e.message}"

/-- A keyword in its context: nodes that are it, or else nodes that contain it. -/
def searchContext (keyword : Value) : Job σ String := do
  let result (matchType : String) (rows : List Row) : String :=
    cutJson 4000 (.record [("match_type", .text matchType), ("results", rowsValue rows)])
  let rows ← Job.ask Queries.contextExact [("kw", keyword)]
  if !rows.isEmpty then return result "exact" rows
  let rows ← Job.ask Queries.contextContaining [("kw", keyword)]
  if !rows.isEmpty then return result "contains" rows
  return nothingFound

def searchIncidents (keyword : Value) : Job σ String := do
  let rows ← Job.ask Queries.incidentsAbout [("kw", keyword)]
  return if rows.isEmpty then "No incidents found matching that keyword."
    else cutJson 4000 (rowsValue rows)

def incidentDetails (title : Value) : Job σ String := do
  match ← Job.ask Queries.incidentDetails [("kw", title)] with
  | row :: _ => return cutJson 6000 (.record row)
  | [] => return "Incident details not found."

def incidentsWith (entity : Value) : Job σ String :=
  execute Queries.incidentsWith [("val", entity)]

def findExact (value : Value) : Job σ String :=
  execute Queries.entityExact [("v", value)]

def bareKeyword : Value → Except Failure String
  | .null => .ok ""
  | v => do return Indicator.skeleton (← v.asText "strip")

def findFuzzy (keyword limit : Value) : Job σ String := do
  execute Queries.entityFuzzy [("kw", .text (← bareKeyword keyword)), ("limit", limit)]

def entityHistory (entity : Value) : Job σ String :=
  execute Queries.entityOccurrences [("v", entity)]

def ensureIndexes : Job σ String :=
  Job.recover
    (do
      let _ ← Job.ask Queries.nameIndex
      let _ ← Job.ask Queries.originalIndex
      return "Indexes ensured for Entity.name and Entity.original_value.")
    fun e => return s!"Index creation failed: {e.message}"

/-- Whether a query has one of the words in it, in any case and even inside another word. -/
def mentions (words : List String) (query : String) : Bool :=
  words.any (Text.contains · (Text.upper query))

def writingWords : List String := ["CREATE", "DELETE", "DETACH", "SET", "MERGE"]

def runQuery (query : Value) : Job σ String := do
  let text ← query.asText "upper"
  if mentions writingWords text then return "Error: Read-only only."
  execute text

def listLabels : Job σ String :=
  execute Queries.labels

def listProperties (label : Value) : Job σ String :=
  execute (if label.truthy then Queries.propertiesOf label.display else Queries.properties)

def sampleNodes (label limit : Value) : Job σ String :=
  execute (Queries.sampleOf label.display) [("limit", limit)]

def expandNeighbourhood (seed hops limit : Value) : Job σ String :=
  execute Queries.neighbourhood [("seed", seed), ("hops", hops), ("limit", limit)]

end ThreatAtlas.Toolbox
