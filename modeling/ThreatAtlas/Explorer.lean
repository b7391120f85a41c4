import ThreatAtlas.Job

/-!
# Looking around in the graph

What the graph page asks for: incidents, suggestions while typing, the properties of a node, the flow of
an incident, paths between two nodes and the neighbours of one.
-/

namespace ThreatAtlas.Explorer

def shortLabel (label length : Value) : Except Failure Value := do
  if !label.truthy then return .text "Unknown"
  if ← Value.atMost (← label.length) length then return label
  (← label.upTo length).add (.text "...")

def incidentsQuery : String :=
  "MATCH (i:Incident) RETURN elementId(i) as id, i.title as title ORDER BY i.timestamp DESC LIMIT $limit"

def suggestionsQuery : String := "
    MATCH (n)
    WHERE (n:Incident OR n:Identity OR n:Malware OR n:Vulnerability OR n:Indicator OR n:ThreatGroup)
      AND (toLower(coalesce(n.name, \"\")) CONTAINS toLower($kw)
       OR toLower(coalesce(n.title, \"\")) CONTAINS toLower($kw)
       OR toLower(coalesce(n.cve_id, \"\")) CONTAINS toLower($kw)
       OR toLower(coalesce(n.url, \"\")) CONTAINS toLower($kw))
    RETURN coalesce(n.name, n.title, n.cve_id, n.url) as label, labels(n)[0] as type, elementId(n) as id
    LIMIT 10
    "

def suggestion (type label id : Value) : String :=
  s!"[{type.display}] {label.display} (ID:{id.display})"

def idIn (s : String) : String :=
  match Text.cut? "(ID:" s with
  | some (_, rest) => if Text.endsWith ")" s then Text.trimEnd ')' rest else s
  | none => s

/-- The label inside a suggestion without an id, or the text itself. -/
def labelIn (s : String) : String :=
  match Text.cut? "] " s with
  | some (_, label) => label
  | none => s

/-- The text a part is looked for in; other values are searched before they are found not to be texts. -/
def searched (v : Value) (part operation : String) : Except Failure (Value × Bool) := do
  if ← v.holds part then return (.text (← v.asText operation), true) else return (v, false)

def keyQuery : String :=
  "MATCH (n) WHERE n.id = $val OR n.name = $val OR n.cve_id = $val OR n.url = $val RETURN n LIMIT 1"

def idOfQuery : String := "RETURN elementId($n) as eid"

def byElementQuery : String := "MATCH (n) WHERE elementId(n) = $id RETURN n"

def byIdQuery : String := "MATCH (n) WHERE n.id = $id RETURN n"

def aliasesQuery : String := "
    MATCH (n)-[:ALIASED_AS]-(a)
    WHERE elementId(n) = $id
    RETURN collect(distinct a.name) as aliases
    "

/-- What the id of a drawn node may start with, when the rest is a name. -/
def namePrefixes : List String := ["VIC_", "ACT_", "MAL_", "CVE_", "IOC_"]

def headerQuery : String := "
    MATCH (i) WHERE elementId(i) = $id
    OPTIONAL MATCH (i)-[:TARGETS]->(v:Identity)
    OPTIONAL MATCH (i)-[:ATTRIBUTED_TO]->(g:ThreatGroup)
    RETURN elementId(i) as id, i.title as title, i.summary as summary, 
           v.name as victim, elementId(v) as victim_id,
           g.name as actor, elementId(g) as actor_id
    "

def flowQuery : String := "
    MATCH (i) WHERE elementId(i) = $id
    MATCH (i)-[:STARTS_WITH|NEXT*]->(s:AttackStep)
    OPTIONAL MATCH (s)-[r]->(art)
    WHERE type(r) IN ['USES_MALWARE', 'EXPLOITS', 'HAS_INDICATOR']
    RETURN elementId(s) as step_id, s.order as order, s.phase as phase, s.description as desc, s.outcome as outcome,
           type(r) as rel, 
           labels(art) as labels,
           properties(art) as props,
           elementId(art) as art_id
    ORDER BY s.order
    "

def connectionsQuery : String := "
    MATCH (start), (target)
    WHERE (toLower(coalesce(start.name, \"\")) = toLower($s) OR toLower(coalesce(start.title, \"\")) = toLower($s) OR start.cve_id = $s OR start.url = $s)
      AND (toLower(coalesce(target.name, \"\")) = toLower($e) OR toLower(coalesce(target.title, \"\")) = toLower($e) OR target.cve_id = $e OR target.url = $e)
    
    CALL apoc.path.expandConfig(start, \x7b
        endNodes: [target],
        maxLevel: 10,
        relationshipFilter: null,
        labelFilter: null,
        limit: 10
    \x7d) YIELD path
    
    RETURN [n IN nodes(path) | \x7bprops: properties(n), labels: labels(n)\x7d] as path_nodes, 
           [r IN relationships(path) | type(r)] as path_rels
    "

def contextQuery : String := "
    MATCH (start), (target)
    WHERE (elementId(start) = $s OR toLower(coalesce(start.name, \"\")) = toLower($s) OR toLower(coalesce(start.title, \"\")) = toLower($s) OR start.cve_id = $s OR start.url = $s)
      AND (elementId(target) = $e OR toLower(coalesce(target.name, \"\")) = toLower($e) OR toLower(coalesce(target.title, \"\")) = toLower($e) OR target.cve_id = $e OR target.url = $e)
    
    // 1. 최단 경로 탐색
    MATCH p = shortestPath((start)-[*..15]-(target))
    WITH start, target, p, nodes(p) as pathNodes
    
    // 2. 경로 상의 노드들 주변 확장 (AttackStep 제외)
    OPTIONAL MATCH (n)-[r]-(neighbor)
    WHERE n IN pathNodes AND NOT n:AttackStep AND $hops > 0
    
    RETURN [n IN nodes(p) | \x7bprops: properties(n), labels: labels(n), id: elementId(n)\x7d] as core_nodes, 
           [rel IN relationships(p) | \x7b
               type: type(rel), 
               s_id: elementId(startNode(rel)),
               e_id: elementId(endNode(rel))
           \x7d] as core_rels,
           collect(distinct \x7b
               n_props: properties(neighbor), 
               n_labels: labels(neighbor),
               n_id: elementId(neighbor),
               r_type: type(r),
               source_id: elementId(n)
           \x7d)[0..100] as neighbors
    "

def neighboursQuery : String := "
    MATCH (n) WHERE elementId(n) = $id
    
    // 1. Malware 관련 (다른 사건, 공격 그룹)
    OPTIONAL MATCH (n:Malware)<-[:USES_MALWARE]-(:AttackStep)<-[:STARTS_WITH|NEXT*]-(mi:Incident)
    WHERE $current_id IS NULL OR elementId(mi) <> $current_id
    WITH n, collect(distinct \x7bid: elementId(mi), label: mi.title, type: 'Incident', rel: 'USED_IN'\x7d) as c1
    
    OPTIONAL MATCH (n:Malware)<-[:USES]-(mg:ThreatGroup)
    WITH n, c1, collect(distinct \x7bid: elementId(mg), label: mg.name, type: 'Actor', rel: 'USED_BY'\x7d) as c2
    
    // 2. Vulnerability 관련 (다른 사건)
    OPTIONAL MATCH (n:Vulnerability)<-[:EXPLOITS]-(:AttackStep)<-[:STARTS_WITH|NEXT*]-(vi:Incident)
    WHERE $current_id IS NULL OR elementId(vi) <> $current_id
    WITH n, c1, c2, collect(distinct \x7bid: elementId(vi), label: vi.title, type: 'Incident', rel: 'EXPLOITED_IN'\x7d) as c3
    
    // 3. Indicator 관련 (다른 사건)
    OPTIONAL MATCH (n:Indicator)<-[:HAS_INDICATOR]-(:AttackStep)<-[:STARTS_WITH|NEXT*]-(ii:Incident)
    WHERE $current_id IS NULL OR elementId(ii) <> $current_id
    WITH n, c1, c2, c3, collect(distinct \x7bid: elementId(ii), label: ii.title, type: 'Incident', rel: 'SEEN_IN'\x7d) as c4
    
    // 4. Actor 관련 (다른 사건, 사용 악성코드)
    OPTIONAL MATCH (n:ThreatGroup)<-[:ATTRIBUTED_TO]-(ai:Incident)
    WHERE $current_id IS NULL OR elementId(ai) <> $current_id
    WITH n, c1, c2, c3, c4, collect(distinct \x7bid: elementId(ai), label: ai.title, type: 'Incident', rel: 'ATTRIBUTED_TO'\x7d) as c5
    
    OPTIONAL MATCH (n:ThreatGroup)-[:USES]->(am:Malware)
    WITH c1, c2, c3, c4, c5, collect(distinct \x7bid: elementId(am), label: am.name, type: 'Malware', rel: 'USES'\x7d) as c6
    
    WITH c1 + c2 + c3 + c4 + c5 + c6 as final_list
    UNWIND final_list as r
    RETURN r.id as res_id, r.label as res_label, r.type as type, r.rel as rel
    "

variable {σ : Type} [Outside σ]

def incidents (limit : Value := .int 30) : Job σ (List Row) :=
  Job.ask incidentsQuery [("limit", limit)]

def suggestions (text : Value) : Job σ (List String) := do
  if !text.truthy then return []
  if (← text.length) < 2 then return []
  let rows ← Job.ask suggestionsQuery [("kw", text)]
  let one (row : Row) : Except Failure String := do
    return suggestion (← row.item "type") (← row.item "label") (← row.item "id")
  (rows.mapM one : Except Failure _)

/-- A node found by a name that its id gives after one of the usual starts, with its true id. -/
def byName (id : String) : Job σ (Value × Value) := do
  match namePrefixes.find? (Text.startsWith · id) with
  | none => return (.null, .text id)
  | some start =>
    match ← Job.ask keyQuery [("val", .text (Text.replace start "" id))] with
    | [] => return (.null, .text id)
    | row :: _ =>
      let node ← row.item "n"
      match ← Job.ask idOfQuery [("n", node)] with
      | [] => throw (.outOfRange "list")
      | row :: _ => return (node, ← row.item "eid")

def byId (id : Value) : Job σ Value := do
  match ← Job.ask byElementQuery [("id", id)] with
  | row :: _ => row.item "n"
  | [] =>
    match ← Job.ask byIdQuery [("id", id)] with
    | row :: _ => row.item "n"
    | [] => return .null

def nodeDetails (id : Value) : Job σ Value := do
  let (node, realId) ← byName (← id.asText "startswith")
  let node ← if node.truthy then pure node else byId realId
  if !node.truthy then return .null
  let aliases ← match ← Job.ask aliasesQuery [("id", realId)] with
    | [] => pure (.list [])
    | row :: _ => row.item "aliases"
  let details ← node.toRecord
  if aliases.truthy then
    return .record (details.set "aliases" (.text (← Value.joinTexts ", " (← aliases.joinable))))
  else return .record details

structure Incident where
  header : Row
  flow : List Row

def incidentFlow (id : Value) : Job σ (Option Incident) := do
  match ← Job.ask headerQuery [("id", id)] with
  | [] => return none
  | header :: _ => return some ⟨header, ← Job.ask flowQuery [("id", id)]⟩

def connections (start finish : Value) : Job σ (List Row) := do
  let named (v : Value) : Except Failure Value := do
    match ← searched v "] " "split" with
    | (.text s, true) => return .text (labelIn s)
    | (v, _) => return v
  let s ← named start
  let e ← named finish
  Job.ask connectionsQuery [("s", s), ("e", e)]

def pathWithContext (start finish hops : Value) : Job σ (List Row) := do
  let idOf (v : Value) : Except Failure Value := do
    match ← searched v "(ID:" "endswith" with
    | (.text s, true) => return .text (idIn s)
    | (v, _) => return v
  let s ← idOf start
  let e ← idOf finish
  Job.ask contextQuery [("s", s), ("e", e), ("hops", hops)]

def neighbours (id current : Value) : Job σ (List Row) := do
  let rows ← Job.ask neighboursQuery [("id", id), ("current_id", current)]
  (rows.filterM fun row => do return (← row.item "res_id").truthy : Except Failure _)

end ThreatAtlas.Explorer
