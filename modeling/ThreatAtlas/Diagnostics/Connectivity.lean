import ThreatAtlas.Job

/-!
# Diagnosing searches

Runs known artifacts and a known hash through the graph and prints what is found.
-/

namespace ThreatAtlas.Diagnostics

def artifacts : List (String × String) :=
  [("Indicator", "101.35.56.7"),
    ("Indicator", "zddtxxyxb.zip"),
    ("Indicator", "http://101.43.166.60:8888/02.08.2022.exe"),
    ("Vulnerability", "CVE-2025-21739"),
    ("Indicator", "101.126.11.168"),
    ("Vulnerability", "CVE-2025-11371"),
    ("Indicator", "http://1.64.40.207/Photo.scr"),
    ("Indicator", "eznoted2b1405e.zip"),
    ("Malware", "Amadey")]

def exactQuery : String := "
    MATCH (n)
    WHERE n.name = $val OR n.value = $val OR n.url = $val OR n.cve_id = $val
    RETURN labels(n) as labels, properties(n) as props
    "

def containingQuery : String := "
            MATCH (n)
            WHERE toLower(coalesce(n.name, '')) CONTAINS toLower($val) 
               OR toLower(coalesce(n.value, '')) CONTAINS toLower($val)
               OR toLower(coalesce(n.url, '')) CONTAINS toLower($val)
            RETURN labels(n) as labels, properties(n) as props LIMIT 3
            "

def connectionsQuery : String := "
            MATCH (n)
            WHERE (n.name = $name AND n.name IS NOT NULL) 
               OR (n.value = $name AND n.value IS NOT NULL) 
               OR (n.url = $name AND n.url IS NOT NULL) 
               OR (n.cve_id = $name AND n.cve_id IS NOT NULL)
            MATCH p = (n)-[*1..3]-(target)
            WHERE target:ThreatGroup OR target:Incident
            // Filter out paths that are too long or irrelevant if needed
            WITH p, target, nodes(p) as ns, relationships(p) as rs
            RETURN 
                [r IN rs | type(r)] as rel_types,
                labels(target) as target_labels,
                coalesce(target.name, target.title) as target_name,
                length(p) as hops,
                [node IN ns | labels(node)[0] + ':' + coalesce(node.name, node.title, node.value, node.url, 'unnamed')] as path_nodes
            LIMIT 10
            "

def nodeName (properties : Value) : Except Failure Value := do
  let rec go : List String → Except Failure Value
    | [] => .ok (.text "Unknown")
    | name :: rest => do
      let v ← properties.get name
      if v.truthy then .ok v else go rest
  go ["name", "cve_id", "url", "value"]

variable {σ : Type} [Outside σ]

def showConnection (row : Row) : Job σ Unit := do
  let path ← Value.joinTexts " -> " (← (← row.item "path_nodes").joinable)
  let labels ← row.item "target_labels"
  let name ← row.item "target_name"
  let hops ← row.item "hops"
  Job.say s!"    -> Link: {labels.display} '{name.display}' ({hops.display} hops)"
  Job.say s!"       Path: {path}"

def showNode (row : Row) : Job σ Unit := do
  let labels ← row.item "labels"
  let name ← nodeName (← row.item "props")
  Job.say s!"  - Node: {labels.display} -> {name.display}"
  let connections ← Job.ask connectionsQuery [("name", name)]
  if connections.isEmpty then
    Job.say "    (No connections to ThreatGroup/Incident found within 3 hops)"
  connections.forM showConnection

def findNodes (value : String) : Job σ (List Row) := do
  let rows ← Job.ask exactQuery [("val", .text value)]
  if !rows.isEmpty then return rows
  let rows ← Job.ask containingQuery [("val", .text value)]
  if rows.isEmpty then Job.say "  (No matches found)"
  else Job.say s!"  (Found {rows.length} matches via CONTAINS)"
  return rows

def diagnoseConnectivity : Job σ Unit := do
  Job.say "=== COIN Diagnostic: Node Search & Connectivity ==="
  artifacts.forM fun (kind, value) => do
    Job.say s!"\n[Artifact] {kind}: {value}"
    Job.recover (do (← findNodes value).forM showNode) fun e => Job.say s!"  [Error] {e.message}"
  Job.say "\n=== End Diagnostic ==="

def hash : String := "bc644febfc0a9500bcc24d26fbfa9cae"

def hashExactQuery : String := "
MATCH (e:Entity)
WHERE e.name = $v OR e.original_value = $v
OPTIONAL MATCH (s:AttackStep)-[:INVOLVES_ENTITY]->(e)
OPTIONAL MATCH (i)-[:HAS_ATTACK_FLOW]->(s)
RETURN e.name AS name, e.original_value AS original, e.type AS type, collect(distinct i.title) AS incidents LIMIT 50
"

def hashContainingQuery : String := "
MATCH (e:Entity)
WHERE toLower(e.name) CONTAINS toLower($v) OR toLower(e.original_value) CONTAINS toLower($v)
OPTIONAL MATCH (s:AttackStep)-[:INVOLVES_ENTITY]->(e)
OPTIONAL MATCH (i)-[:HAS_ATTACK_FLOW]->(s)
RETURN i.title AS incident, s.phase AS phase, e.name AS entity_name, e.original_value AS original_value LIMIT 50
"

def hashAnywhereQuery : String := "
MATCH (n)
WHERE any(k IN keys(n) WHERE toLower(toString(n[k])) CONTAINS toLower($v))
RETURN labels(n) AS labels, n AS node_props LIMIT 50
"

def showRows (query : String) : Job σ Unit := do
  let rows ← Job.ask query [("v", .text hash)]
  Job.say (Value.list (rows.map .record)).display

def findHash : Job σ Unit := do
  Job.say s!"Using NEO4J_URI: {(← Job.settings).graphUri.display}"
  Job.say "== Exact match on e.name / e.original_value =="
  showRows hashExactQuery
  Job.say "\\n== Contains (case-insensitive) in name/original_value =="
  showRows hashContainingQuery
  Job.say "\\n== Broader scan: any node property contains =="
  showRows hashAnywhereQuery

end ThreatAtlas.Diagnostics
