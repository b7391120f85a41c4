import ThreatAtlas.Dashboard.Widgets

/-!
# The first page

The state of the services and the size of the graph, and what the other pages are for.
-/

namespace ThreatAtlas.Dashboard.Overview

def heading : String := "
    <h1 style='font-family: sans-serif;'>
        🛡️ COIN : 
        <span style='" ++ "color: #FF4B4B; font-weight: bold;" ++ "'>C</span>yber 
        <span style='" ++ "color: #FF4B4B; font-weight: bold;" ++ "'>O</span>ntology 
        <span style='" ++ "color: #FF4B4B; font-weight: bold;" ++ "'>IN</span>telligence
    </h1>
"

def modules : List String :=
  ["
    #### 1. Deep Analysis
    **🔎 심층 분석 및 프로파일링**
    * Threat Group, Malware 상세 정보 조회
    * LLM 기반 Graph RAG 리포트 생성
    * 엔티티 중심의 심층 정보 탐색
    ",
    "
    #### 2. Correlation
    **🔗 위협 연관성 분석**
    * IoC (IP, Hash, URL) 간의 연결고리 추적
    * 그래프 알고리즘을 통한 배후 공격 그룹 식별
    * 숨겨진 위협 패턴 시각화
    ",
    "
    #### 3. Graph Analysis
    **🎬 공격 시나리오 탐색**
    * AI가 추출한 Incident 구조(Incident-Step-Entity) 시각화
    * Kill Chain 단계별 공격 흐름(Attack Flow) 추적
    * 사건 중심의 맥락 파악
    ",
    "
    #### 4. Ontology Extractor
    **📝 비정형 리포트 처리**
    * CTI 텍스트 리포트 업로드 및 분석
    * LLM을 활용한 자동 구조화 (Entity Extraction)
    * Neo4j 지식 그래프로 데이터 적재
    "]

def agentIntroduction : String := "
    ### 💬 \"Ask Anything to your Knowledge Graph\"
    
    **Smart Agent**는 단순한 챗봇이 아닙니다. **Neo4j 그래프 데이터베이스와 실시간으로 연동**되는 AI 보안 분석가입니다.
    
    * **Context-Aware Search:** \"이 취약점은 어떤 사건에서 발견됐어?\"라고 물으면 사건의 맥락(Incident -> Step -> Entity)을 파악해 답변합니다.
    * **Natural Language Query:** 복잡한 Cypher 쿼리를 몰라도 한국어로 질문하면 자동으로 데이터를 찾아줍니다.
    * **Cross-Analysis:** 여러 사건에 걸쳐 등장하는 공격자나 도구를 자동으로 연결해줍니다.
    
    👉 **왼쪽 사이드바에서 `5_Smart_Agent`를 선택하여 대화를 시작하세요.**
    "

def allQuery : String := "MATCH (n) RETURN count(n) as cnt"

def incidentsQuery : String := "MATCH (n:Incident) RETURN count(n) as cnt"

def grouped (v : Value) : Except Failure String :=
  match v with
  | .real x =>
    let s := Number.write x
    let sign := if Text.startsWith "-" s then "-" else ""
    let digits := s.toList.drop sign.length
    let whole := digits.takeWhile Char.isDigit
    match (String.ofList whole).toNat? with
    | some n => .ok (sign ++ Number.grouped n ++ String.ofList (digits.drop whole.length))
    | none => .ok s
  | .text _ => .error (.malformed "Cannot specify ',' with 's'.")
  | v =>
    match v.asInt? with
    | some n => .ok (Number.grouped n)
    | none => .error (.mismatch (.notNumeric v.kind))

variable {σ : Type} [Outside σ]

def graphState : Job σ (Bool × String) :=
  Job.recover
    (do
      match ← Job.ask "RETURN 1" with
      | [] => return (false, "Connection Failed")
      | row :: _ =>
        if (← row.item "1") == .int 1 then return (true, "Running")
        else return (false, "Connection Failed"))
    fun e => return (false, e.message)

def modelState : Job σ (Bool × String) := do
  let s ← Job.settings
  if s.usesOllama then
    Job.recoverAll
      (do
        let r ← Job.fetch
          { method := "GET", url := .text s!"{s.ollamaUrl.display}/api/tags", timeout := .int 2 }
        return if r.status == 200 then (true, "Running (Local)") else (false, "Unknown"))
      fun _ => return (false, "Ollama Stopped")
  else if !s.openAIKey.truthy then return (false, "API Key Missing")
  else return (true, "Active (Cloud)")

def metric (label value remark : String) : Job σ Unit :=
  put "metric" [] [("label", .text label), ("value", .text value), ("delta", .text remark)]

def countOf (query : String) : Job σ Value := do
  match ← Job.ask query with
  | [] => return .int 0
  | row :: _ => row.item "cnt"

def showSizes : Job σ Unit :=
  Job.recoverAll
    (do
      let nodes ← countOf allQuery
      let incidents ← countOf incidentsQuery
      metric "Total Intelligence" s!"{incidents.display} Incidents" s!"Nodes: {← grouped nodes}")
    fun _ => metric "Knowledge Graph" "Unknown" "Sync Error"

def showStates : Job σ Unit := do
  let s ← Job.settings
  write "info" "**AI Model Config**"
  let provider ← s.provider.asText "upper"
  let model := if s.usesOpenAI then s.openAIModel else s.ollamaModel
  write "write" s!"- **Provider:** `{Text.upper provider}`"
  write "write" s!"- **Model:** `{model.display}`"
  let (up, why) ← graphState
  if up then metric "Neo4j Container (Graph DB)" "Online" "Connected"
  else
    metric "Neo4j Container (Graph DB)" "Offline" "Error"
    write "caption" s!"⚠️ {why}"
  let (ready, how) ← modelState
  metric "LLM Service Status" (if ready then "Ready" else "Not Ready") how
  showSizes

def run : Job σ Unit := do
  put "set_page_config"
  write "markdown" heading
  write "markdown" "##### *Knowledge Graph driven Threat Analysis Platform*"
  write "markdown" "---"
  write "subheader" "📊 System Dashboard"
  columns 4
  showStates
  write "markdown" "---"
  write "subheader" "🧭 Core Analysis Modules"
  write "markdown" "사이드바 메뉴를 통해 아래 4가지 핵심 분석 도구를 사용할 수 있습니다."
  columns 4
  modules.forM (write "markdown")
  write "markdown" "---"
  write "subheader" "🤖 Smart Agent (AI Analyst)"
  put "container"
  write "success" agentIntroduction
  write "markdown" "---"
  write "caption" "© 2026 Cyber Ontology Intelligence Project. Powered by Neo4j & LangGraph."

end ThreatAtlas.Dashboard.Overview
