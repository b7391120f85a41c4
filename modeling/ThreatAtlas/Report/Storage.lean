import ThreatAtlas.Job

/-!
# Storing reports in the graph
-/

namespace ThreatAtlas.Report

def storeSteps (label : String) : String :=
  "
    MERGE (i:Intelligence:" ++ label ++ " \x7btitle: $title\x7d)
    SET i.summary = $summary, 
        i.category = $category,
        i.timestamp = $timestamp,
        i.victim_org = $victim_org,
        i.attacker_group = $attacker_group,
        i.updated_at = datetime()
    
    WITH i
    UNWIND $steps AS step_data
    // Step 노드 생성 및 연결
    MERGE (s:AttackStep \x7bid: $title + \"_\" + toString(step_data.step)\x7d)
    SET s.phase = step_data.phase, 
        s.description = step_data.description,
        s.step_num = step_data.step
    
    MERGE (i)-[:HAS_ATTACK_FLOW \x7border: step_data.step\x7d]->(s)
    "

def storeEntities : String := "
    WITH s, step_data
    UNWIND step_data.related_entities AS entity
    
    // 엔티티 생성 (정규화된 이름 우선 사용)
    MERGE (e:Entity \x7bname: entity.normalized_value\x7d) 
    ON CREATE SET e.original_value = entity.value, 
                  e.type = entity.type,
                  e.created_at = datetime()
    
    // 공격 단계와 엔티티 연결
    MERGE (s)-[:INVOLVES_ENTITY]->(e)
    "

variable {σ : Type} [Outside σ]

/-- Merges a report, its steps and their entities into the graph over a connection of its own. -/
def store (r : Report) : Job σ Unit :=
  Job.recover
    (do
      match ← Job.send ⟨storeSteps r.category.label ++ storeEntities,
          r.header ++ [("steps", r.stepsValue)]⟩ with
      | .rows _ => return
      | .failed why => throw (.graph why)
      | .lost _ why => throw (.graph why))
    fun e => do
      Job.say s!"[ERROR] Failed to save to Neo4j: {e.message}"
      throw e

end ThreatAtlas.Report
