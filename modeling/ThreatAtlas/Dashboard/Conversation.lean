import ThreatAtlas.Dashboard.Widgets

/-!
# The page of the agent

Questions to the agent and its answers. A turn that ends with an answer is kept for the agent, is shown
with the tools it used, and is followed by suggestions for the next question.
-/

namespace ThreatAtlas.Dashboard.Conversation

def introduction : String := "
**Neo4j Knowledge Graph**와 연동된 AI 보안 분석가입니다.  
**Incident(사건), Malware, Threat Group, IoC** 정보를 문맥(Context) 기반으로 답변합니다.
"

def sampleQuestions : List String :=
  ["현재 데이터베이스의 스키마 구조(Incident, Entity 등)를 알려줘.",
    "CVE-2025-14847 취약점과 '한국수력원자력 원전제어망' 사이에 연결점(연관성)이 있는지 찾아줘.",
    "블록체인 또는 가상화폐와 관련된 사건을 어떤 공격자가 주로 하고 있는지 찾아줘.",
    "IP '101.35.56.7'이 포함된 침해 사고 정보를 찾아줘.",
    "최근 6개월 내에 'Turla' 위협 그룹이 관련된 사건들을 알려줘.",
    "Malware 'TrickBot'이 연관된 사건들의 IoC들을 찾아줘"]

def adviserRole : String := "You are a helpful assistant suggesting follow-up questions for a cyber security analyst."

def suggestionRequest (question answer : Value) : String :=
  "
            Based on the user's previous question and the agent's answer, suggest 3 short, relevant follow-up questions in Korean.
            Return ONLY the questions, separated by pipes (|). Do not add numbering or quotes.
            
            [User Question] " ++ question.display ++ "
            [Agent Answer] " ++ answer.display ++ "
            
            Example format: 이 공격에 사용된 다른 IP는 뭐야?|관련된 해킹 그룹은 누구야?|대응 방안은 어떻게 돼?
            "

def adviser (s : Settings) : Model :=
  if s.usesOpenAI then
    ⟨.openAI, [("model", .text "gpt-4o-mini"), ("api_key", s.openAIKey), ("temperature", .real 0.7)]⟩
  else
    ⟨.ollama, [("model", s.ollamaModel), ("temperature", .real 0.7), ("base_url", s.ollamaUrl)]⟩

/-- The questions in an answer that divides them by bars, three at most. -/
def questionsIn (answer : String) : List String :=
  (((Text.split '|' answer).map Text.strip).filter (!·.isEmpty)).take 3

inductive Action where
  | call (count : Nat) (name args : Value)
  | result (count : Nat) (name content : Value)

def Action.toValue : Action → Value
  | .call n name args =>
    .record [("type", .text "call"), ("count", .int n), ("name", name), ("args", args)]
  | .result n name content =>
    .record [("type", .text "result"), ("count", .int n), ("name", name), ("content", content)]

structure Turn where
  calls : Nat := 0
  actions : List Action := []
  answer : Value := .text ""

def userEntry (question : Value) : Value :=
  .record [("role", .text "user"), ("content", question)]

def assistantEntry (t : Turn) : Value :=
  .record [("role", .text "assistant"), ("content", t.answer),
    ("steps", .list (t.actions.map Action.toValue))]

def indented (v : Value) : String :=
  Json.writeIndented 2 v

def parsed? : Value → Option Value
  | .text s => (Json.read s).toOption
  | _ => none

variable {σ : Type}

def history : Job σ (List Remark) := do
  return (← get).session.history.getD []

def setHistory (remarks : List Remark) : Job σ Unit :=
  modify fun w => { w with session := { w.session with history := some remarks } }

/-- The conversation so far and one more message. A value that is no list cannot be continued. -/
def historyWith (m : Message) : Job σ (List Remark) := do
  if let some v := (← get).session.otherHistory then
    let _ ← (v.add (.list []) : Except Failure Value)
  return (← history) ++ [.message m]

def addEntry (entry : Value) : Job σ Unit := do
  match ← remembered "messages" with
  | .list ms => remember "messages" (.list (ms ++ [entry]))
  | v => throw (.noMember v.kind.word "append")

def showDocument (content : Value) : Job σ Unit :=
  match parsed? content with
  | some v => put "json" [v]
  | none => put "code" [content]

section

variable [Outside σ]

def suggest (question answer : Value) : Job σ (List String) :=
  Job.recoverAll
    (do
      let reply ← Job.consultText
        { model := adviser (← Job.settings)
          prompt := .template [(.system, adviserRole), (.human, suggestionRequest question answer)] [] }
      return questionsIn (← reply.asText "split"))
    fun _ => return []

end

def callTool (t : Turn) (call : Value) : Job σ Turn := do
  let n := t.calls + 1
  let name ← call.item "name"
  write "write" s!"**Step {n}:** 🤔 Decided to use tool `{name.display}`"
  let args ← call.item "args"
  write "expander" s!"Arguments for {name.display}"
  write "code" (indented args)
  return { t with calls := n, actions := t.actions ++ [.call n name args] }

def callTools : Turn → List Value → Job σ Turn
  | t, [] => return t
  | t, c :: cs => do callTools (← callTool t c) cs

def takeResult (t : Turn) (m : Message) : Job σ Turn := do
  write "write" s!"**Step {t.calls}:** 🔍 Tool Output (`{m.name.display}`)"
  write "expander" "Show Result"
  showDocument (m.content.orElse (.text ""))
  return { t with actions := t.actions ++ [.result t.calls m.name m.content] }

def takeMessage (t : Turn) (m : Message) : Job σ Turn := do
  match m.role with
  | .ai =>
    if m.toolCalls.truthy then callTools t (← m.toolCalls.elements)
    else if m.content.truthy then return { t with answer := m.content }
    else return t
  | .tool => takeResult t m
  | _ => return t

def follow : Turn → List (Except String (List Message)) → Job σ Turn
  | t, [] => return t
  | _, .error why :: _ => throw (.model why)
  | t, .ok ms :: events => do
    match ms.getLast? with
    | none => follow t events
    | some m => follow (← takeMessage t m) events

def runAgent (conversation : List Remark) : Job σ Turn := do
  Job.trace fun t => { t with consultations := t.consultations ++ [.agent conversation] }
  follow {} (← get).agentEvents

variable [Outside σ]

def finish (question : Message) (t : Turn) : Job σ Unit := do
  put "markdown" [t.answer]
  addEntry (assistantEntry t)
  setHistory ((← history) ++ [.message question, .message { role := .ai, content := t.answer }])
  let suggestions ← suggest question.content t.answer
  remember "followup_suggestions" (.texts suggestions)
  rerun

def reply (message : Message) : Job σ Unit := do
  let t ← runAgent (← historyWith message)
  put "update" [] [("label", .text "✅ Analysis Complete"), ("state", .text "complete")]
  if t.answer.truthy then finish message t
  else write "error" "죄송합니다. 답변을 생성하지 못했습니다."

def ask (question : Value) : Job σ Unit := do
  addEntry (userEntry question)
  write "chat_message" "user"
  put "markdown" [question]
  write "chat_message" "assistant"
  put "empty"
  write "status" "🧠 Agent is reasoning..."
  Job.recover (reply { role := .human, content := question }) fun e => do
    put "update" [] [("label", .text "❌ Error Occurred"), ("state", .text "error")]
    write "error" s!"Error Details: {e.message}"

def start : Job σ Unit := do
  rememberFirst "messages" (.list [])
  if (← get).session.otherHistory.isNone then setHistory (← history)
  rememberFirst "trigger_query" .null
  rememberFirst "followup_suggestions" (.list [])

def trigger (question : Value) : Job σ Unit := do
  remember "trigger_query" question
  remember "followup_suggestions" (.list [])
  rerun

def showSamples : Job σ Unit := do
  write "header" "📝 Sample Questions"
  write "caption" "클릭하면 자동으로 질문합니다."
  sampleQuestions.forM fun q => do
    if ← button (.text q) then trigger (.text q)
  write "markdown" "---"
  write "info" "💡 **Tip:** 리포트를 먼저 `Intelligence Processing` 메뉴에서 등록해야 답변이 가능합니다."

def showAction (action : Value) : Job σ Unit := do
  let isCall := (← action.item "type") == .text "call"
  let count := (← action.item "count").display
  let name := (← action.item "name").display
  if isCall then
    write "write" s!"**Step {count}:** 🛠️ `{name}` 도구 사용 결정"
    write "caption" "입력 파라미터:"
    write "code" (indented (← action.item "args"))
  else
    write "write" s!"**Step {count}:** 📥 `{name}` 실행 결과 수신"
    showDocument (← action.item "content")

def showEntry (entry : Value) : Job σ Unit := do
  let role ← entry.item "role"
  put "chat_message" [role]
  if role == .text "assistant" then
    let actions ← entry.get "steps"
    if actions.truthy then
      write "expander" "🔍 분석 사고 과정 (Tool Execution Logs)"
      (← actions.elements).forM showAction
      put "divider"
  put "markdown" [← entry.item "content"]

def showSuggestions (entries : List Value) : Job σ Unit := do
  match entries.getLast? with
  | none => return
  | some entry =>
    if (← entry.item "role") == .text "assistant" then
      let suggestions ← remembered "followup_suggestions"
      if suggestions.truthy then
        write "write" "👉 **Suggested Questions:**"
        columns (← suggestions.length)
        (← suggestions.elements).zipIdx.forM fun (q, i) => do
          if ← button q (some s!"suggest_{entries.length}_{i}") then trigger q

def run : Job σ Unit := do
  put "set_page_config"
  write "title" "🕵️‍♂️ Smart Agent (Chatbot)"
  write "markdown" introduction
  start
  showSamples
  let entries ← (← remembered "messages").elements
  entries.forM showEntry
  showSuggestions entries
  let question ← remembered "trigger_query"
  if question.truthy then
    remember "trigger_query" .null
    ask question
  let typed ← chatInput "보안 관련 질문을 입력하세요 (예: 이 IP는 어떤 사건과 연관돼?)..."
  if typed.truthy then
    remember "followup_suggestions" (.list [])
    ask typed

end ThreatAtlas.Dashboard.Conversation
