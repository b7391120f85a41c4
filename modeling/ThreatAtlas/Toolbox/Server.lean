import ThreatAtlas.Parameters
import ThreatAtlas.Toolbox.Search

/-!
# The tool server

The few tools offered to models of others.
-/

namespace ThreatAtlas.Toolbox.Server

def schema : String := "
    [Graph Schema Definition]
    
    1. **Core Nodes**:
       - `(:Incident)`: Represents a security report or event (e.g., 'React2Shell Attack').
         - Properties: title, summary, timestamp
       - `(:AttackStep)`: Represents a specific phase in the attack lifecycle (e.g., 'Initial Access').
         - Properties: phase, description, step_num
       - `(:Entity)`: Represents an IoC or artifact (e.g., IP, Hash, CVE).
         - Properties: value, type (IP, Hash, Vulnerability, etc.), normalized_value
         
    2. **Relationships**:
       - `(:Incident)-[:HAS_ATTACK_FLOW]->(:AttackStep)`
       - `(:AttackStep)-[:INVOLVES_ENTITY]->(:Entity)`
    
    3. **Legacy/MITRE Nodes** (If exist):
       - `(:ThreatGroup)`, `(:Malware)`, `(:AttackTechnique)`
    "

def contextQuery : String := "
    // 1. 키워드 매칭 (이름, 값, 원본값)
    MATCH (e:Entity)
    WHERE toLower(e.value) CONTAINS toLower($kw) 
       OR toLower(e.normalized_value) CONTAINS toLower($kw)
       OR toLower(e.type) CONTAINS toLower($kw)
    
    // 2. 맥락(Context) 추적
    MATCH path = (i:Incident)-[:HAS_ATTACK_FLOW]->(s:AttackStep)-[:INVOLVES_ENTITY]->(e)
    
    // 3. (옵션) 같은 단계의 다른 연관 엔티티도 함께 조회
    OPTIONAL MATCH (s)-[:INVOLVES_ENTITY]->(peer:Entity)
    WHERE peer <> e
    
    RETURN 
        i.title as Incident,
        i.summary as Summary,
        s.phase as Phase,
        s.description as StepDescription,
        e.value as FoundEntity,
        e.type as EntityType,
        collect(distinct peer.value) as RelatedContextArtifacts
    LIMIT 5
    "

def incidentsQuery : String := "
    MATCH (e:Entity \x7bvalue: $val\x7d)<-[:INVOLVES_ENTITY]-(s:AttackStep)<-[:HAS_ATTACK_FLOW]-(i:Incident)
    RETURN i.title as Incident, i.timestamp as Time, s.phase as Phase
    ORDER BY i.timestamp DESC
    "

def describe (row : Row) : Except Failure String := do
  let incident ← row.item "Incident"
  let summary ← row.item "Summary"
  let phase ← row.item "Phase"
  let step ← row.item "StepDescription"
  let entity ← row.item "FoundEntity"
  let type ← row.item "EntityType"
  let related ← Value.joinTexts ", "
    (← (← (← row.item "RelatedContextArtifacts").takeFirst 5).elements)
  return "=== Found in Incident: '" ++ incident.display ++ "' ===\n- Incident Summary: " ++ summary.display ++ "\n- Attack Phase: " ++ phase.display ++ "\n- Context: " ++ step.display ++ "\n- Entity Details: " ++ entity.display ++ " (" ++ type.display ++ ")\n- Co-occurring Artifacts in this step: " ++ related ++ "\n"

variable {σ : Type} [Outside σ]

def searchContext (keyword : Value) : Job σ String :=
  Job.recover
    (do
      let rows ← Job.ask contextQuery [("kw", keyword)]
      if rows.isEmpty then
        return s!"No direct context found for '{keyword.display}'. It might not be in the graph yet."
      return "\n".intercalate (← (rows.mapM describe : Except Failure _)))
    fun e => return s!"Search Error: {e.message}"

/-- The words of clauses that write or change the schema. -/
def writingWords : List String := Toolbox.writingWords ++ ["DROP", "REMOVE"]

def runQuery (query : Value) : Job σ String := do
  let text ← query.asText "upper"
  if mentions writingWords text then return "Error: Only read-only queries are allowed."
  Job.recover
    (do
      let rows ← Job.ask text
      return if rows.isEmpty then nothingFound else cutJson 4000 (rowsValue rows))
    fun e => return s!"Cypher Execution Error: {e.message}"

def incidentsWith (entity : Value) : Job σ String :=
  Job.recover
    (do
      let rows ← Job.ask incidentsQuery [("val", entity)]
      return if rows.isEmpty then "This entity appears in only one incident (or none)."
        else Json.write (rowsValue rows))
    fun e => return s!"Error: {e.message}"

def call (name : String) (args : Fields) : Job σ String := do
  let only (parameter : String) : Except Failure Value := do
    return (← Parameter.bind [parameter] args).get parameter
  match name with
  | "get_graph_schema" =>
    let _ ← Parameter.bind [] args
    return schema
  | "search_keyword_context" => searchContext (← only "keyword")
  | "run_cypher_query" => runQuery (← only "query")
  | "analyze_incident_correlations" => incidentsWith (← only "entity_value")
  | name => throw (.noPart "server" name)

end ThreatAtlas.Toolbox.Server
