import ThreatAtlas.Dashboard.Sketch
import ThreatAtlas.Dashboard.Widgets

/-!
# The page of the graph

Draws an incident or the path between two entities, and opens up nodes that the user clicks on.
-/

namespace ThreatAtlas.Dashboard.Exploration

def walkthrough : String := "Incident Walkthrough"

def connection : String := "Connection Analysis"

def labelsQuery : String := "MATCH (n) WHERE elementId(n) = $id RETURN labels(n) as l"

def expandable : List String := ["Malware", "Vulnerability", "ThreatGroup", "Indicator", "Incident"]

def headings : List (String × String) :=
  [("name", "Name"), ("title", "Title"), ("aliases", "Aliases (별칭)"), ("cve_id", "Cve_id"),
    ("url", "Url"), ("phase", "Phase"), ("description", "Description"), ("summary", "Summary")]

/-- Titles and ids of incidents: of equal titles the last id counts, in the first one's place. -/
def byTitle (rows : List Row) : Except Failure (List (Value × Value)) :=
  let rec place (title id : Value) : List (Value × Value) → List (Value × Value)
    | [] => [(title, id)]
    | (t, i) :: rest => if t == title then (t, id) :: rest else (t, i) :: place title id rest
  rows.foldlM (fun placed row => do
    if !(row.get "title").truthy then return placed
    let title ← row.item "title"
    let id ← row.item "id"
    return place (← title.hashable) id placed) []

def springLength (seed : Value) : Except Failure Value := do
  let shift ← Value.combine "*" (· * ·) (· * ·) seed (.real 0.001)
  (Value.int 250).add shift

variable {σ : Type}

def canvas : Job σ Canvas := do
  return (← get).session.canvas.getD {}

def setCanvas (c : Canvas) : Job σ Unit :=
  modify fun w => { w with session := { w.session with canvas := some c } }

/-- Draws on the canvas of the session. What was drawn before a failure stays. -/
def draw (d : Drawing α) : Job σ α := do
  let (r, c) := d.run (← canvas)
  setCanvas c
  (r : Except Failure α)

def reset : Job σ Unit := do
  setCanvas {}
  remember "incident_timeline" (.list [])

def start : Job σ Unit := do
  modify fun w => { w with session := w.session.beginCanvas }
  rememberFirst "incident_timeline" (.list [])
  rememberFirst "last_selected_incident" .null
  rememberFirst "layout_seed" (.int 0)
  rememberFirst "analysis_mode" (.text walkthrough)

variable [Outside σ]

def loadIncident (id : Value) : Job σ Unit := do
  match ← Explorer.incidentFlow id with
  | none => return
  | some i =>
    let follow := id.equal (← remembered "last_selected_incident")
    let events ← draw (Drawing.incident follow id i)
    if follow then remember "incident_timeline" (.list (events.map Drawing.Event.toValue))

def labelsOf (id : Value) : Job σ Value := do
  match ← Job.ask labelsQuery [("id", id)] with
  | [] => return .list []
  | row :: _ => row.item "l"

def expand (id : Value) : Job σ Nat := do
  if !(← Explorer.nodeDetails id).truthy then return 0
  let labels ← labelsOf id
  if ← labels.holds "Incident" then
    loadIncident id
    return 1
  if ← labels.holds "AttackStep" then
    write "warning" "Attack Step은 확장이 지원되지 않습니다."
    return 0
  let current ← remembered "last_selected_incident"
  draw (Drawing.neighbours id (← Explorer.neighbours id current))

def discover (start finish : Value) : Job σ Nat := do
  draw (Drawing.path (← Explorer.pathWithContext start finish (.int 0)))

def selectIncident : Job σ Unit := do
  write "subheader" "🗂️ Select Incident"
  match ← Explorer.incidents with
  | [] =>
    write "info" "데이터베이스에 등록된 사고(Incident)가 없습니다. 파이프라인을 실행해 주세요."
    remember "last_selected_incident" .null
  | rows =>
    match ← (byTitle rows : Except Failure _) with
    | [] => write "warning" "유효한 제목을 가진 인시던트가 없습니다."
    | options =>
      let title ← choose "selectbox" "Historical Incidents" (options.map (·.1))
      match options.find? (·.1 == title) with
      | none => remember "last_selected_incident" .null
      | some (_, id) =>
        if !id.equal (← remembered "last_selected_incident") then
          remember "last_selected_incident" id
          reset
          loadIncident id
          rerun

def pickEntity (fieldLabel fieldKey choiceLabel choiceKey : String) : Job σ Value := do
  let text ← field "text_input" fieldLabel (some fieldKey)
  let options ← Explorer.suggestions text
  choose "selectbox" choiceLabel (options.map .text) none (some choiceKey)

def selectPath : Job σ Unit := do
  write "subheader" "🕸️ Connection Analysis"
  write "caption" "엔트리 포인트와 타겟 간의 연결 고리를 탐색합니다."
  rememberFirst "src_selected" .null
  rememberFirst "tgt_selected" .null
  let source ← pickEntity "Start Node (Keywords)" "src_q" "Select Start Entity" "src_sel"
  let target ← pickEntity "Target Node (Keywords)" "tgt_q" "Select Target Entity" "tgt_sel"
  let changed := source != (← remembered "src_selected") || target != (← remembered "tgt_selected")
  if changed then
    remember "src_selected" source
    remember "tgt_selected" target
  if source.truthy && target.truthy then
    if changed then
      write "spinner" "Finding paths..."
      reset
      remember "last_selected_incident" .null
      if (← discover source target) == 0 then
        write "warning" "No connections found between these entities."
  else write "info" "출발지와 목적지를 선택하면 경로가 자동으로 탐색됩니다."

def showControls : Job σ Unit := do
  write "header" "⚙️ Graph Controls"
  let before ← remembered "analysis_mode"
  let mode ← choose "radio" "Analysis Mode" [.text walkthrough, .text connection]
    (some (if before == .text walkthrough then 0 else 1))
  if mode != before then
    remember "analysis_mode" mode
    reset
    rerun
  put "divider"
  if mode == .text walkthrough then selectIncident else selectPath
  put "divider"
  columns 2
  if ← button "🔄 Reset View" then
    reset
    let selected ← remembered "last_selected_incident"
    if mode == .text walkthrough && selected.truthy then loadIncident selected
    rerun
  if ← button "🎲 Re-Layout" then
    countUp "layout_seed"
    forget "graph_config"
    rerun

/-- Says how far a node can be opened up, and opens it when asked to. Nothing is known about a node
that is not in the graph. -/
def offerExpansion (id : Value) : Job σ Unit := do
  let labels ← if (← Explorer.nodeDetails id).truthy then some <$> labelsOf id else pure none
  match labels with
  | none => throw (.unknownName "n_labels")
  | some labels =>
    let isStep ← labels.holds "AttackStep"
    let canExpand ← if isStep then pure false
      else (expandable.anyM labels.holds : Except Failure Bool)
    if canExpand then
      let label := if ← labels.holds "Incident" then "📂 Expand Incident" else "🌐 Find Connections"
      if ← button (.text label) then
        let new ← expand id
        if new > 0 then
          write "success" s!"{new}개의 새로운 연결을 찾았습니다."
          rerun
        else write "info" "추가로 발견된 연결이 없습니다."
    else if isStep then write "info" "공격 단계(Step)는 확장을 지원하지 않습니다."
    else write "info" "이 노드는 확장이 지원되지 않습니다."

def showDetails (details : Fields) : Job σ Unit := do
  headings.forM fun (name, heading) => do
    let v := details.get name
    if v.truthy then
      write "markdown" s!"**{heading}:**"
      put "write" [v]
  let others := details.filter fun (name, v) => !(headings.any (·.1 == name)) && v.truthy
  if !others.isEmpty then
    put "divider"
    put "json" [.record others]

def inspect (id : Value) : Job σ Unit := do
  if id.truthy then
    write "markdown" s!"**Selected:** `{id.display}`"
    offerExpansion id
    write "expander" "📄 Node Details"
    match ← Explorer.nodeDetails id with
    | .record details => showDetails details
    | _ => return
  else write "info" "Click a node to inspect."

def showEvent (event : Value) : Job σ Unit := do
  let icon := if (← event.item "outcome") == .text "Success" then "✅" else "🚫"
  let order ← event.item "order"
  let phase ← event.item "phase"
  write "expander" s!"{icon} Step {order.display}: {phase.display}"
  put "write" [← event.item "desc"]
  let artifacts ← event.item "artifacts"
  if artifacts.truthy then
    write "markdown" "**Artifacts:**"
    (← artifacts.elements).forM fun a => write "caption" s!"- {a.display}"

def showTimeline : Job σ Unit := do
  let timeline ← remembered "incident_timeline"
  if timeline.truthy then (← timeline.elements).forM showEvent
  else write "caption" "Select an incident to see its timeline."

def run : Job σ Unit := do
  put "set_page_config"
  write "title" "🕸️ Graph Analysis"
  start
  showControls
  if !(← isRemembered "graph_config") then
    remember "graph_config" (← springLength (← remembered "layout_seed"))
  columnsOf [.real 2.5, .int 1]
  let selected ← drawGraph (← canvas)
  put "tabs" [.texts ["🔍 Node Inspector", "📝 Attack Timeline"]]
  inspect selected
  showTimeline

end ThreatAtlas.Dashboard.Exploration
