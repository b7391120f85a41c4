import ThreatAtlas.Dashboard.Widgets
import ThreatAtlas.Explorer
import ThreatAtlas.Report.Processing
import ThreatAtlas.Report.Storage

/-!
# The page of reports

A text is made into a report, which is shown as tables and as a graph and can be stored.
-/

namespace ThreatAtlas.Dashboard.Extraction

def introduction : String := "
비정형데이터(위협리포트, 블로그, 분석자료 등)에서 LLM을 활용해 사이버 위협 인텔리전스를 추출하고 이를 구조화하여 지식그래프에 적재합니다.
"

/-- A text of at most `length` characters, with dots for what is left out. -/
def shortText (s : String) (length : Nat) : String :=
  if length < s.length then Text.take length s ++ "..." else s

/-- The same for the text of any value and any length; nothing for a value that is not truthy. -/
def shortValue (v length : Value) : Except Failure String := do
  if !v.truthy then return ""
  let s := v.display
  if ← length.less (.int s.length) then
    return String.ofList (← Value.before length s.toList) ++ "..."
  else return s

structure Look where
  color : String
  shape : String
  size : Int

def Look.ofCategory : Value → Look
  | .text "MalwareReport" => ⟨"#D32DFF", "dot", 35⟩
  | .text "ThreatReport" => ⟨"#00FFF2", "star", 35⟩
  | .text "VulnerabilityReport" => ⟨"#FF9F1C", "triangle", 35⟩
  | _ => ⟨"#FF2B2B", "hexagon", 40⟩

def Look.ofEntity : EntityKind → Look
  | .ip | .domain | .url => ⟨"#00E096", "square", 18⟩
  | .hash => ⟨"#7B61FF", "box", 18⟩
  | .tool => ⟨"#2D8CFF", "box", 20⟩
  | _ => ⟨"#999999", "dot", 10⟩

def whiteFont : Fields := [("color", .text "white")]

def entityName (e : Entity) : String :=
  match e.normalized with
  | some n => if n.isEmpty then e.value else n
  | none => e.value

def phaseOf (steps : List Step) (e : Entity) : String :=
  match steps.find? fun s => s.entities.any fun f => f.toValue == e.toValue with
  | some s => s.phase
  | none => "Unknown"

def rootId : String := "ROOT_NODE"

def stepId (s : Step) : String := s!"STEP_{s.number}"

def rootNode (r : Report) : GraphNode :=
  let look := Look.ofCategory r.category.toValue
  { id := .text rootId, label := .text (shortText r.title 15)
    title := some (.text s!"Category: {r.category.toValue.display}\nTitle: {r.title}")
    shape := look.shape, color := .text look.color, size := look.size }

def stepNode (s : Step) : GraphNode :=
  { id := .text (stepId s), label := .text s!"{s.number}. {s.phase}", shape := "box"
    color := .text "#444444", size := 20, font := some whiteFont }

def entityNode (e : Entity) : GraphNode :=
  let look := Look.ofEntity e.kind
  { id := .text (entityName e), label := .text (shortText (entityName e) 12), shape := look.shape
    color := .text look.color, size := look.size, font := some whiteFont }

/-- The first entity of each name that is not among the `drawn` ones. -/
def newEntities (drawn : List String) : List Entity → List Entity
  | [] => []
  | e :: es =>
    if drawn.contains (entityName e) then newEntities drawn es
    else e :: newEntities (entityName e :: drawn) es

def flowNodes (drawn : List String) : List Step → List GraphNode
  | [] => []
  | s :: ss =>
    let new := newEntities drawn s.entities
    stepNode s :: new.map entityNode ++ flowNodes (new.map entityName ++ drawn) ss

def stepEdges (s : Step) : List GraphEdge :=
  ⟨.text rootId, .text (stepId s), .text "HAS_FLOW"⟩ ::
    s.entities.map fun e => ⟨.text (stepId s), .text (entityName e), .text "INVOLVES"⟩

variable {σ : Type} [Outside σ]

def readReport : Job σ Unit := do
  write "subheader" "📝 Input Report"
  let text ← field "text_area" "Paste threat report here..."
  if ← button "🔍 Analyze & Extract" then
    let s ← text.asText "strip"
    if (Text.strip s).isEmpty then write "warning" "Please enter text first."
    else
      write "spinner" "LLM Analyzing & Structuring..."
      Job.recover
        (do
          let r ← Report.process (← get).startSettings s
          modify fun w => { w with session := { w.session with report := some (some r) } }
          countUp "graph_version"
          write "success" "Analysis Done!")
        fun e => write "error" s!"Analysis Failed: {e.message}"

def showTables (r : Report) : Job σ Unit := do
  write "markdown" s!"**Title:** {r.title}"
  write "markdown" s!"**Category:** `{r.category.toValue.display}`"
  write "markdown" s!"**Summary:** {r.summary}"
  write "markdown" "#### 1. Extracted Entities"
  let entities := r.entities
  if entities.isEmpty then write "info" "No entities extracted."
  else
    table ["Original Value", "Normalized", "Type", "Status", "Step"] (entities.map fun e =>
      [.text e.value, .text (entityName e), .text e.kind.name,
        .text (if e.isNew then "✨ New" else "✅ Existing"), .text (phaseOf r.steps e)])
  write "markdown" "#### 2. Attack Flow Steps"
  if r.steps.isEmpty then table [] []
  else
    table ["Order", "Phase", "Description", "Entities Count"] (r.steps.map fun s =>
      [.int s.number, .text s.phase, .text s.description, .int s.entities.length])

def showPreview (r : Report) : Job σ Unit := do
  columnsOf [.int 4, .int 1]
  write "caption" "Structured Subgraph Preview"
  if ← button "🔄 Reset View" then
    countUp "graph_version"
    rerun
  Job.recover
    (do
      put "container"
      let preview : Canvas :=
        { nodes := rootNode r :: flowNodes [] r.steps, edges := r.steps.flatMap stepEdges }
      let _ ← drawGraph preview)
    fun e => write "error" s!"Graph Rendering Failed: {e.message}"

def offerStorage (r : Report) : Job σ Unit := do
  write "info" "검토가 완료되었으면 아래 버튼을 눌러 Neo4j 데이터베이스에 반영하세요."
  let entities := r.entities
  columns 3
  put "metric" [.text "Total Steps", .int r.steps.length]
  put "metric" [.text "Total Entities", .int entities.length]
  put "metric" [.text "New Entities", .int (entities.countP (·.isNew))] [("delta", .text "To Create")]
  put "divider"
  if ← button "📥 Ingest into Neo4j" then
    write "spinner" "Merging data into Neo4j..."
    Job.recover
      (do
        r.store
        write "success" "Success! Incident graph created in Neo4j.")
      fun e => write "error" s!"Ingestion Error: {e.message}"

def showReport (r : Report) : Job σ Unit := do
  write "subheader" "📊 Extraction Results"
  put "tabs" [.texts ["📋 Data Tables", "🕸️ Graph Preview", "💾 DB Ingest"]]
  showTables r
  showPreview r
  offerStorage r

/-- Shows the report last extracted. What is remembered in its place is no report. -/
def showLast : Job σ Unit := do
  match (← get).session.report with
  | some (some r) => showReport r
  | _ =>
    let v ← remembered "proc_result"
    if v.truthy then throw (.noMember v.kind.word "attack_flow")

def run : Job σ Unit := do
  put "set_page_config"
  if !(← isRemembered "proc_result") then
    modify fun w => { w with session := { w.session with
      report := some (w.session.report.getD none) } }
  rememberFirst "graph_version" (.int 0)
  write "title" "🧠 Ontology Extractor"
  write "markdown" introduction
  columnsOf [.int 1, .real 1.5]
  readReport
  showLast

end ThreatAtlas.Dashboard.Extraction
