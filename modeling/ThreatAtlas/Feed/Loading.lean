import ThreatAtlas.Feed.AttackBundle
import ThreatAtlas.Feed.Urls
import ThreatAtlas.Feed.Vulnerabilities

/-!
# Loading the feeds into the graph

The graph is emptied, its constraints and indexes are made, and the tables of the feeds are sent to it
in batches. A query that fails is reported and the work goes on.
-/

namespace ThreatAtlas.Feed.Loading

def batchSize : Nat := 500

def importLog : String := "data/processed/incidents_imported.json"

def clearing : String := "MATCH (n) DETACH DELETE n RETURN count(n)"

def constraints : List String :=
  ["CREATE CONSTRAINT FOR (n:BaseNode) REQUIRE n.stix_id IS UNIQUE",
    "CREATE CONSTRAINT FOR (v:Vulnerability) REQUIRE v.cve_id IS UNIQUE",
    "CREATE CONSTRAINT FOR (i:Indicator) REQUIRE i.id IS UNIQUE",
    "CREATE INDEX FOR (i:Indicator) ON (i.url)"]

def textIndex : String := "
        CREATE FULLTEXT INDEX mitre_text_index IF NOT EXISTS
        FOR (n:BaseNode) ON EACH [n.name, n.description]
        "

structure Step where
  title : String
  query : String

structure Table where
  path : String
  name : String
  steps : List Step

def nodes : Table where
  path := AttackBundle.nodeTarget
  name := "MITRE nodes"
  steps := [⟨"Loading MITRE Nodes", "
                UNWIND $rows AS r
                CALL apoc.create.node([r.label, 'BaseNode'], \x7bstix_id: r.stix_id, name: r.name, mitre_id: r.mitre_id, description: r.description\x7d) YIELD node
                RETURN count(node) AS cnt
                "⟩]

def links : Table where
  path := AttackBundle.linkTarget
  name := "MITRE relationships"
  steps := [⟨"Loading MITRE Relationships", "
                UNWIND $rows AS r
                MATCH (s:BaseNode \x7bstix_id: r.source_id\x7d)
                MATCH (t:BaseNode \x7bstix_id: r.target_id\x7d)
                CALL apoc.create.relationship(s, r.type, \x7b\x7d, t) YIELD rel
                RETURN count(rel) AS cnt
                "⟩]

def vulnerabilities : Table where
  path := Vulnerabilities.target
  name := "KEV"
  steps := [⟨"Loading KEV Data", "
                UNWIND $rows AS r
                MERGE (v:Vulnerability \x7bcve_id: r.cve_id\x7d)
                SET v.name = r.name, v.vendor = r.vendor, v.product = r.product, v.description = r.description
                RETURN count(v) AS cnt
                "⟩]

def urls : Table where
  path := Urls.target
  name := "URLHaus"
  steps := [
    ⟨"Creating Indicators", "
                UNWIND $rows AS r
                MERGE (i:Indicator \x7bid: r.id\x7d)
                SET i.url = r.url, i.tags = r.tags
                RETURN count(i) AS cnt
                "⟩,
    ⟨"Linking Indicators", "
                UNWIND $rows AS r
                WITH r, split(coalesce(r.tags, ''), ',') AS tags
                UNWIND tags AS tag
                WITH r, trim(tag) AS clean_tag
                WHERE size(clean_tag) > 3
                MATCH (i:Indicator \x7bid: r.id\x7d)
                MATCH (m:Malware)
                WHERE toLower(m.name) = toLower(clean_tag)
                   OR toLower(m.name) CONTAINS toLower(clean_tag)
                   OR toLower(clean_tag) CONTAINS toLower(m.name)
                MERGE (i)-[rel:INDICATES]->(m)
                SET rel.method = 'fuzzy_match', rel.matched_tag = clean_tag
                RETURN count(rel) AS cnt
                "⟩]

def semanticLinking : String := "
        MATCH (v:Vulnerability)
        WHERE v.product IS NOT NULL AND size(v.product) > 3
        
        WITH v, apoc.text.clean(v.product) AS clean_product
        WHERE size(clean_product) > 3
        
        CALL db.index.fulltext.queryNodes(\"mitre_text_index\", clean_product) YIELD node, score
        WHERE score > 1.5 AND node:AttackTechnique 
        
        MERGE (v)-[r:RELATED_TO \x7breason: 'product_match'\x7d]->(node)
        SET r.score = score, r.keyword = v.product
        RETURN count(r)
        "

/-- The count a query answers with: the first value of its first row. -/
def countIn : List Row → Value
  | ((_, v) :: _) :: _ => v
  | _ => .int 0

variable {σ : Type} [Outside σ]

def run (title query : String) (params : Fields := []) : Job σ Unit := do
  Job.say s!"[*] {title}..."
  let processed (rows : List Row) : Job σ Unit :=
    Job.say s!"    -> Processed: {(countIn rows).display} items (0.00s)"
  match ← Job.send ⟨query, params⟩ with
  | .rows rows => processed rows
  | .failed why => Job.say s!"    [!] Error: {why}"
  | .lost rows why =>
    processed rows
    throw (.graph why)

/-- Makes the constraints and the index over one connection. Queries that fail are passed over. -/
def applySchema : Job σ Unit := do
  let lost ← (constraints ++ [textIndex]).foldlM
    (fun lost query => do
      match ← Job.send ⟨query, []⟩ with
      | .lost _ why => return some why
      | _ => return lost) (none : Option String)
  if let some why := lost then throw (.graph why)

def loadBatch (steps : List Step) (number : Nat) (batch : List Fields) : Job σ Unit :=
  steps.forM fun step =>
    Job.recover
      (run s!"{step.title} (batch {number})" step.query [("rows", .list (batch.map .record))])
      fun _ => pure ()

def load (table : Table) : Job σ Unit := do
  if ← Job.fileExists table.path then
    let rows ← Csv.readRows (← Job.readText table.path)
    (pieces batchSize rows).zipIdx.forM fun (batch, i) => loadBatch table.steps (i + 1) batch
  else
    Job.say s!"    [!] Error: {table.name} CSV not found at {← Job.shownPath table.path}"

def fill : Job σ Unit := do
  Job.say "\n=== [1/6] Resetting Database ==="
  run "Deleting all existing nodes" clearing
  if ← Job.fileExists importLog then
    Job.removeFile importLog
    Job.say s!"    -> Cleared incident import log: {← Job.shownPath importLog}"
  Job.say "\n=== [2/6] Creating Schema & Indexes ==="
  applySchema
  Job.say "    -> Constraints and Full-Text Indexes applied."
  Job.say "\n=== [3/6] Loading MITRE ATT&CK ==="
  load nodes
  load links
  Job.say "\n=== [4/6] Loading CISA KEV ==="
  load vulnerabilities
  Job.say "\n=== [5/6] Loading URLHaus & Fuzzy Linking ==="
  load urls
  Job.say "\n=== [6/6] Semantic Linking: KEV <-> MITRE ==="
  run "Linking CVEs to Techniques" semanticLinking
  Job.say "\n=== [+] Database Initialization Complete! ==="

/-- Fills the graph over a connection that is closed in any case once it is open. -/
def fillGraph : Job σ Unit := do
  let s ← Job.settings
  Job.say s!"[*] Connecting to Neo4j at {s.graphUri.display} as user '{s.graphUser.display}'..."
  Job.openConnection
  Job.recoverAll fill fun e => do
    Job.connection .closed
    throw e
  Job.connection .closed

end ThreatAtlas.Feed.Loading
