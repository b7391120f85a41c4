import ThreatAtlas.Text.Basic

/-!
# Queries of the tools
-/

namespace ThreatAtlas.Toolbox.Queries

def countProcedures : String :=
  "SHOW PROCEDURES YIELD name WHERE name CONTAINS 'apoc' RETURN count(*) as cnt"

def countProceduresBefore : String :=
  "CALL dbms.procedures() YIELD name WHERE name CONTAINS 'apoc' RETURN count(*) as cnt"

def labels : String := "CALL db.labels()"

def relationshipTypes : String := "CALL db.relationshipTypes()"

def contextExact : String := "
    MATCH (start)
    WHERE start.name = $kw OR start.original_value = $kw OR start.cve_id = $kw 
       OR start.title = $kw OR start.id = $kw OR start.value = $kw OR start.url = $kw
    
    // 별칭 관계 확장 (동일 객체 취급)
    OPTIONAL MATCH (start)-[:ALIASED_AS*0..1]-(canonical)
    WITH distinct canonical as n
    
    // 연결된 context 및 별칭 처리
    OPTIONAL MATCH (n)-[:ALIASED_AS*1..1]-(alias)
    OPTIONAL MATCH (n)-[:HAS_ATTACK_FLOW|STARTS_WITH|NEXT*0..2]-(step:AttackStep)
    OPTIONAL MATCH (step)-[:HAS_ATTACK_FLOW|STARTS_WITH|NEXT*0..1]-(i:Incident)
    
    RETURN labels(n) as labels, 
           coalesce(n.name, n.title, n.cve_id, n.original_value, n.value, n.url) as name,
           collect(distinct alias.name) as aliases,
           collect(distinct i.title) as related_incidents
    LIMIT 20
    "

def contextContaining : String := "
    MATCH (start)
    WHERE toLower(coalesce(start.name, \"\")) CONTAINS toLower($kw)
       OR toLower(coalesce(start.title, \"\")) CONTAINS toLower($kw)
       OR toLower(coalesce(start.cve_id, \"\")) CONTAINS toLower($kw)
       OR toLower(coalesce(start.original_value, \"\")) CONTAINS toLower($kw)
       OR toLower(coalesce(start.value, \"\")) CONTAINS toLower($kw)
       OR toLower(coalesce(start.url, \"\")) CONTAINS toLower($kw)
    
    // 별칭 확장
    OPTIONAL MATCH (start)-[:ALIASED_AS*0..1]-(canonical)
    WITH distinct canonical as n
    
    RETURN labels(n) as labels, 
           coalesce(n.name, n.title, n.cve_id, n.original_value, n.value, n.url) as name,
           n as props
    LIMIT 50
    "

def incidentsAbout : String := "
    // 1. 키워드에 매칭되는 시작 노드 찾기
    MATCH (start)
    WHERE toLower(coalesce(start.name, \"\")) CONTAINS toLower($kw) OR 
          toLower(coalesce(start.title, \"\")) CONTAINS toLower($kw) OR 
          toLower(coalesce(start.summary, \"\")) CONTAINS toLower($kw) OR 
          toLower(coalesce(start.cve_id, \"\")) CONTAINS toLower($kw) OR 
          toLower(coalesce(start.url, \"\")) CONTAINS toLower($kw) OR
          toLower(coalesce(start.value, \"\")) CONTAINS toLower($kw) OR
          toLower(coalesce(start.original_value, \"\")) CONTAINS toLower($kw)
    
    // 2. 별칭 관계 확장 (동일 객체 취급)
    OPTIONAL MATCH (start)-[:ALIASED_AS*0..1]-(canonical)
    WITH distinct canonical as n
    
    // 3. 해당 노드와 연결된 Incident 추적
    MATCH (i:Incident)
    WHERE (i = n)
       OR (i)-[:TARGETS|ATTRIBUTED_TO|ALIASED_AS*0..1]-(n)
       OR (i)-[:STARTS_WITH|NEXT|HAS_ATTACK_FLOW*1..10]-(:AttackStep)-[:USES_MALWARE|EXPLOITS|HAS_INDICATOR|INVOLVES_ENTITY|ALIASED_AS*0..1]-(n)
    
    OPTIONAL MATCH (i)-[:TARGETS]->(v:Identity)
    
    RETURN DISTINCT i.title as title, 
           i.summary as summary, 
           i.timestamp as date,
           v.name as victim
    ORDER BY i.timestamp DESC
    LIMIT 15
    "

def incidentDetails : String := "
    MATCH (i:Incident)
    WHERE toLower(i.title) CONTAINS toLower($kw)
    OPTIONAL MATCH (i)-[:TARGETS]->(v:Identity)
    
    // 공격 단계(AttackStep)들을 순서대로 가져옴
    OPTIONAL MATCH path = (i)-[:STARTS_WITH]->(s1:AttackStep)-[:NEXT*0..10]->(sn:AttackStep)
    WITH i, v, nodes(path) as steps
    UNWIND steps as s
    
    OPTIONAL MATCH (s)-[:USES_MALWARE]->(m:Malware)
    OPTIONAL MATCH (s)-[:EXPLOITS]->(vuln:Vulnerability)
    OPTIONAL MATCH (s)-[:HAS_INDICATOR]->(ind:Indicator)
    
    WITH i, v, s, 
         collect(distinct m.name) as malwares,
         collect(distinct vuln.cve_id) as vulns,
         collect(distinct ind.url) as iocs
    ORDER BY s.order ASC
    
    RETURN i.title as title, 
           i.summary as summary, 
           v.name as victim, 
           v.system as victim_system,
           collect(\x7b
             step: s.order,
             phase: s.phase,
             description: s.description,
             outcome: s.outcome,
             artifacts: malwares + vulns + iocs
           \x7d) as attack_flow
    LIMIT 1
    "

def incidentsWith : String := "
    MATCH (e:Entity \x7bname: $val\x7d)<-[:INVOLVES_ENTITY]-(s:AttackStep)<-[:HAS_ATTACK_FLOW]-(i:Incident)
    RETURN i.title, i.timestamp, s.phase
    ORDER BY i.timestamp DESC LIMIT 10
    "

def entityExact : String := "
    MATCH (e:Entity)
    WHERE e.name = $v OR e.original_value = $v
    OPTIONAL MATCH (s:AttackStep)-[:INVOLVES_ENTITY]->(e)
    OPTIONAL MATCH (i)-[:HAS_ATTACK_FLOW]->(s)
    RETURN e.name as name, e.original_value as original_value, e.type as type, collect(distinct i.title) as incidents LIMIT 20
    "

def entityFuzzy : String := "
    MATCH (e:Entity)
    WHERE toLower(replace(replace(replace(e.name, '[.]', ''), '-', ''), ' ', '')) CONTAINS $kw
       OR toLower(replace(replace(replace(e.original_value, '[.]', ''), '-', ''), ' ', '')) CONTAINS $kw
    OPTIONAL MATCH (s:AttackStep)-[:INVOLVES_ENTITY]->(e)
    OPTIONAL MATCH (i)-[:HAS_ATTACK_FLOW]->(s)
    RETURN i.title as incident, s.phase as phase, e.name as entity_name, e.original_value as original_value LIMIT $limit
    "

def entityOccurrences : String := "
    MATCH (e:Entity)
    WHERE e.name = $v OR e.original_value = $v OR toLower(e.name) = toLower($v) OR toLower(e.original_value) = toLower($v)
    OPTIONAL MATCH (s:AttackStep)-[:INVOLVES_ENTITY]->(e)
    OPTIONAL MATCH (i)-[:HAS_ATTACK_FLOW]->(s)
    RETURN e.name as entity, e.original_value as original, collect(distinct \x7bincident: i.title, phase: s.phase, step_desc: s.description\x7d) as occurrences LIMIT 1
    "

def nameIndex : String :=
  "CREATE INDEX entity_name_index IF NOT EXISTS FOR (e:Entity) ON (e.name)"

def originalIndex : String :=
  "CREATE INDEX entity_original_index IF NOT EXISTS FOR (e:Entity) ON (e.original_value)"

def quotedLabel (label : String) : String :=
  "`" ++ label ++ "`"

def propertiesOf (label : String) : String :=
  "MATCH (n:" ++ quotedLabel label ++ ") UNWIND keys(n) AS k RETURN k, count(*) AS cnt ORDER BY cnt DESC LIMIT 200"

def properties : String :=
  "MATCH (n) UNWIND keys(n) AS k RETURN k, count(*) AS cnt ORDER BY cnt DESC LIMIT 200"

def sampleOf (label : String) : String :=
  "MATCH (n:" ++ quotedLabel label ++ ") RETURN n LIMIT $limit"

def neighbourhood : String := "
    MATCH (s:Entity)
    WHERE s.name = $seed OR s.original_value = $seed OR toLower(s.name) = toLower($seed) OR toLower(s.original_value) = toLower($seed)
    OPTIONAL MATCH p=(s)-[*..$hops]-(n)
    WITH collect(distinct n) AS nodes, s
    UNWIND nodes AS nd
    RETURN DISTINCT labels(nd) AS labels, nd LIMIT $limit
    "

def resolve : String := "
    MATCH (n)
    WHERE any(k IN keys(n) WHERE toString(n[k]) = $val OR toLower(toString(n[k])) = toLower($val))
    RETURN elementId(n) AS nid, labels(n) AS labels, n LIMIT 50
    "

/-- Which paths are asked for: to the end nodes or around the start, with path procedures or without. -/
def paths (toEnd procedures : Bool) : String :=
  match toEnd, procedures with
  | true, true => "
            UNWIND $start_ids AS sid
            UNWIND $end_ids AS tid
            MATCH (s) WHERE elementId(s)=sid
            MATCH (t) WHERE elementId(t)=tid
            CALL apoc.path.expandConfig(s, \x7bendNodes:[t], maxLevel:$max_len, limit:$max_paths, relationshipFilter:$rel_filter, labelFilter:$label_filter\x7d) YIELD path
            RETURN [n IN nodes(path) | \x7bid:elementId(n), labels:labels(n), props:apoc.map.fromPairs([k IN keys(n) | [k, n[k]]])\x7d] AS nodes, [r IN relationships(path) | type(r)] AS rels LIMIT $max_paths
            "
  | true, false => "
            UNWIND $start_ids AS sid
            UNWIND $end_ids AS tid
            MATCH (s) WHERE elementId(s)=sid
            MATCH (t) WHERE elementId(t)=tid
            MATCH p=(s)-[*..$max_len]-(t)
            RETURN [n IN nodes(p) | \x7bid:elementId(n), labels:labels(n), props:apoc.map.fromPairs([k IN keys(n) | [k, n[k]]])\x7d] AS nodes, [r IN relationships(p) | type(r)] AS rels LIMIT $max_paths
            "
  | false, true => "
            UNWIND $start_ids AS sid
            MATCH (s) WHERE elementId(s)=sid
            CALL apoc.path.expandConfig(s, \x7bmaxLevel:$max_len, limit:$max_paths, relationshipFilter:$rel_filter, labelFilter:$label_filter\x7d) YIELD path
            RETURN [n IN nodes(path) | \x7bid:elementId(n), labels:labels(n), props:apoc.map.fromPairs([k IN keys(n) | [k, n[k]]])\x7d] AS nodes, [r IN relationships(path) | type(r)] AS rels LIMIT $max_paths
            "
  | false, false => "
            UNWIND $start_ids AS sid
            MATCH (s) WHERE elementId(s)=sid
            MATCH (s)-[r]-(n)
            RETURN \x7bstart_id:elementId(s), rel:type(r), neighbor: \x7bid:elementId(n), labels:labels(n), props:apoc.map.fromPairs([k IN keys(n) | [k, n[k]]])\x7d\x7d AS entry LIMIT $max_paths
            "

/-- Properties put together by a procedure, and their plain form. -/
def withPlainProperties (query : String) : String :=
  Text.replace "apoc.map.fromPairs([k IN keys(n) | [k, n[k]]])" "n" query

end ThreatAtlas.Toolbox.Queries
