import ThreatAtlas.Correlation.Hints
import ThreatAtlas.Correlation.Run
import ThreatAtlas.Dashboard.Widgets

/-!
# The page of clues

The user collects clues, with hints from the graph, and has them correlated.
-/

namespace ThreatAtlas.Dashboard.Clues

def introduction : String := "
파편화된 위협 정보(IP, Hash, CVE, Name)들 간의 **숨겨진 연결고리**를 찾아내어, 
배후의 공격 그룹(Threat Group)이나 연관된 캠페인을 추적합니다.
"

def tagStyle : String := "
        <style>
        /* 1. Force Streamlit's horizontal block (columns) to wrap */
        div[data-testid=\"stHorizontalBlock\"] \x7b
            flex-wrap: wrap !important;
            gap: 10px !important;
        \x7d

        /* 2. Ensure each column only takes as much space as needed for the tag */
        div[data-testid=\"stHorizontalBlock\"] > div[data-testid=\"stColumn\"] \x7b
            width: auto !important;
            min-width: min-content !important;
            flex: 0 1 auto !important;
        \x7d

        /* 3. High-Fidelity 3D Pill Style */
        div.stButton > button[id*=\"tag_\"] \x7b
            border-radius: 50px !important;
            border: none !important;
            outline: none !important;
            padding: 0 16px !important;
            height: 34px !important;
            font-size: 13px !important;
            font-weight: 600 !important;
            color: white !important;
            white-space: nowrap !important;
            cursor: pointer !important;
            box-shadow: 0 4px 6px -1px rgba(0, 0, 0, 0.1), inset 0 -3px 0 rgba(0,0,0,0.2) !important;
            transition: all 0.1s ease !important;
            margin-bottom: 5px !important;
        \x7d

        /* Physical 'Pressed' effect */
        div.stButton > button[id*=\"tag_\"]:active \x7b
            transform: translateY(2px) !important;
            box-shadow: inset 0 2px 4px rgba(0,0,0,0.2) !important;
        \x7d

        /* Hover effect */
        div.stButton > button[id*=\"tag_\"]:hover \x7b
            filter: brightness(1.1) !important;
            transform: translateY(-1px) !important;
            box-shadow: 0 6px 8px -1px rgba(0, 0, 0, 0.15), inset 0 -3px 0 rgba(0,0,0,0.2) !important;
        \x7d

        /* Type-specific colors */
        button[id*=\"tag_Malware\"] \x7b background-color: #ef4444 !important; \x7d
        button[id*=\"tag_Vulnerability\"] \x7b background-color: #f59e0b !important; \x7d
        button[id*=\"tag_Indicator\"] \x7b background-color: #3b82f6 !important; \x7d
        button[id*=\"tag_Threat Group\"] \x7b background-color: #8b5cf6 !important; \x7d
        </style>
    "

def kinds : List Value :=
  ["Malware", "Vulnerability", "Indicator", "Threat Group"].map .text

def ownValue : String := "(직접 입력)"

def clue (kind value : String) : Value :=
  .record [("type", .text kind), ("value", .text value)]

def exampleClues : List Value :=
  [clue "Indicator" "101.35.56.7",
    clue "Indicator" "zddtxxyxb.zip",
    clue "Indicator" "http://101.43.166.60:8888/02.08.2022.exe",
    clue "Vulnerability" "CVE-2025-21739",
    clue "Indicator" "101.126.11.168",
    clue "Vulnerability" "CVE-2025-11371",
    clue "Indicator" "http://1.64.40.207/Photo.scr",
    clue "Indicator" "eznoted2b1405e.zip",
    clue "Malware" "Amadey"]

def hintValue (hint : String) : String :=
  Text.replace "[Rel] " "" hint

def without (v : Value) (place : Nat) : Except Failure Value :=
  match v with
  | .list xs => .ok (.list (xs.eraseIdx place))
  | v => .error (.noMember v.kind.word "pop")

def appended (v : Value) (x : Value) : Except Failure Value :=
  match v with
  | .list xs => .ok (.list (xs ++ [x]))
  | v => .error (.noMember v.kind.word "append")

def hasValue (value : String) : List Value → Except Failure Bool
  | [] => .ok false
  | x :: xs => do
    if (← x.item "value") == .text value then return true
    hasValue value xs

variable {σ : Type}

def takeHint : Job σ Unit := do
  let hint ← remembered "hint_selectbox"
  if hint.truthy && hint != .text ownValue then
    remember "input_val_key" (.text (hintValue (← hint.asText "replace")))

def addClue : Job σ Unit := do
  let kind ← remembered "artifact_type_select"
  let value ← remembered "input_val_key"
  let value ← if value.truthy then pure (Text.strip (← value.asText "strip")) else pure ""
  if value.isEmpty then write "toast" "⚠️ 값을 입력하거나 선택해주세요."
  else
    let clues ← remembered "artifacts"
    if ← hasValue value (← clues.elements) then write "toast" "⚠️ 이미 추가된 아티팩트입니다."
    else
      remember "artifacts" (← appended clues (.record [("type", kind), ("value", .text value)]))
      remember "input_val_key" (.text "")
      write "toast" "✅ 추가되었습니다."

variable [Outside σ]

def showControls : Job σ Correlation.Options := do
  write "header" "1️⃣ Input Artifacts"
  let depth ← slider "Analysis Depth" 1 3 2
  let includeIncidents ← checkbox "Include Incidents DB" true
  let looseness ← slider "Looseness (fuzziness)" 0 100 30
  put "divider"
  rememberFirst "artifacts" (.list [])
  write "subheader" "➕ Add New Artifact"
  let kind ← choose "selectbox" "Artifact Type" kinds (some 0) (some "artifact_type_select")
  let hints ← Job.recoverAll (Correlation.hints kind (← remembered "artifacts") (.int 15))
    fun _ => return []
  let _ ← choose "selectbox" "Suggested Values (DB)" ((ownValue :: hints).map .text) (some 0)
    (some "hint_selectbox")
  let _ ← field "text_input" "Value" (some "input_val_key")
  let _ ← button "Add to List"
  return { depth := depth, looseness, includeIncidents }

def offerExample : Job σ Unit := do
  write "info" "👈 왼쪽 사이드바에서 분석할 아티팩트(단서)를 추가해주세요."
  columns 2
  write "markdown" "##### 💡 Quick Start"
  if ← button "Load Example (Lazarus Campaign)" then
    remember "artifacts" (.list exampleClues)
    rerun

def showClues (clues : Value) : Job σ Unit := do
  columnsOf (List.replicate 20 (.int 1))
  (← clues.elements).zipIdx.forM fun (c, i) => do
    let kind := (← c.item "type").display
    let value := (← c.item "value").display
    if ← button (.text s!"✕ {kind}: {value}") (some s!"tag_{kind}_{i}") then
      remember "artifacts" (← without clues i)
      rerun

def toHundredths (x : Float) : Float :=
  (x * 100.0).round / 100.0

def showFindings (findings : List Correlation.Finding) : Job σ Unit :=
  table ["Suspect Group/Entity", "Type", "Confidence(%)", "Matched Clues", "Shared Evidence"]
    ((asColumn (findings.map (·.group))).zipWith (fun group f =>
      [group, .text "ThreatGroup", .real (toHundredths f.percent), .text f.matchesText,
        .text f.evidence]) findings)

def correlate (clues : Value) (o : Correlation.Options) : Job σ Unit := do
  write "spinner" s!"Analyzing connections across the graph (Depth {o.depth.display})..."
  Job.recover
    (do
      let (findings, report) ← Correlation.run clues o
      write "success" "Analysis Complete!"
      write "markdown" "### 🤖 AI Intelligence Report"
      put "info" [report]
      write "markdown" "### 🕸️ Knowledge Graph Matches"
      if findings.isEmpty then
        write "warning" "No strong correlations found with the current database."
      else showFindings findings)
    fun e => write "error" s!"Error during analysis: {e.message}"

def showInquiry (clues : Value) (o : Correlation.Options) : Job σ Unit := do
  columnsOf [.int 5, .int 1]
  write "markdown" "##### 📍 Active Clues (Click to remove)"
  if ← button "Clear All" then
    remember "artifacts" (.list [])
    rerun
  write "markdown" tagStyle
  showClues clues
  put "divider"
  if ← button "🚀 Run Correlation Analysis" then correlate clues o

def run : Job σ Unit := do
  put "set_page_config"
  write "title" "🔗 Threat Correlation Analysis"
  write "markdown" introduction
  rememberFirst "input_val_key" (.text "")
  let options ← showControls
  let clues ← remembered "artifacts"
  if clues.truthy then showInquiry clues options else offerExample

end ThreatAtlas.Dashboard.Clues
