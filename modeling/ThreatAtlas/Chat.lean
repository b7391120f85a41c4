import ThreatAtlas.Job

/-!
# Chatting with a model over the web

One request to the service that the settings name. An error is printed, and the answer is empty.
-/

namespace ThreatAtlas

/-- Client and server errors are failures, which keep the reply's body. -/
def WebResponse.check (r : WebResponse) (url : Value) : Except Failure Unit :=
  let fail (side : String) : Except Failure Unit :=
    .error (.web s!"{r.status} {side} Error: {r.reason} for url: {url.display}" (some r.body))
  if 400 ≤ r.status && r.status < 500 then fail "Client"
  else if 500 ≤ r.status && r.status < 600 then fail "Server"
  else .ok ()

def WebResponse.json (r : WebResponse) : Except Failure Value :=
  match Json.read r.body with
  | .ok v => .ok v
  | .error e => .error (e.toFailure r.body)

namespace Chat

def localAddress (s : Settings) : Except Failure String := do
  return Text.trimEnd '/' (← s.ollamaUrl.asText "rstrip")

def localRequest (s : Settings) (address : String) (messages timeout : Value) : WebRequest where
  method := "POST"
  url := .text (address ++ "/api/chat")
  body := .record [("model", s.ollamaModel), ("messages", messages), ("stream", .bool false),
    ("options", .record [("temperature", s.temperature), ("num_ctx", s.ollamaContext)])]
  timeout

def localContent (v : Value) : Except Failure String := do
  let content ← (← v.getD "message" (.record [])).getD "content" (.text "")
  return Text.strip (← content.asText "strip")

def publicAddress : String := "https://api.openai.com/v1/chat/completions"

def publicRequest (s : Settings) (messages timeout : Value) : WebRequest where
  method := "POST"
  url := .text publicAddress
  headers := .record [("Authorization", .text ("Bearer " ++ s.openAIKey.display)),
    ("Content-Type", .text "application/json")]
  body := .record [("model", s.openAIModel), ("messages", messages),
    ("temperature", s.temperature)]
  timeout

def publicContent (v : Value) : Except Failure String := do
  let content ← (← (← (← v.item "choices").first).item "message").item "content"
  return Text.strip (← content.asText "strip")

variable {σ : Type} [Outside σ]

def exchange (request : WebRequest) (content : Value → Except Failure String) : Job σ String := do
  let reply ← Job.fetch request
  reply.check request.url
  content (← reply.json)

def askLocal (messages timeout : Value) : Job σ String := do
  let s ← Job.settings
  let address ← localAddress s
  Job.recover (exchange (localRequest s address messages timeout) localContent) fun e => do
    Job.say s!"[Core/LLM] Ollama Error: {e.message}"
    return ""

def askPublic (messages timeout : Value) : Job σ String := do
  let s ← Job.settings
  if !s.openAIKey.truthy then
    return "[System Error] .env 파일에 OPENAI_API_KEY가 설정되지 않았습니다."
  Job.recover (exchange (publicRequest s messages timeout) publicContent) fun e => do
    Job.say s!"[Core/LLM] OpenAI Error: {e.message}"
    if let .web _ (some body) := e then Job.say s!"Details: {body}"
    return ""

def chat (messages : Value) (timeout : Value := .int 120) : Job σ String := do
  let s ← Job.settings
  if s.usesOpenAI then askPublic messages timeout
  else if s.usesOllama then askLocal messages timeout
  else return "[System Error] 지원하지 않는 LLM Provider입니다: " ++ s.provider.display

end Chat

end ThreatAtlas
