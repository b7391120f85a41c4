import ThreatAtlas.Chat

/-!
# Diagnosing the language model

Checks the settings, the local service and its models, and asks for one answer.
-/

namespace ThreatAtlas.Diagnostics

variable {σ : Type} [Outside σ]

def serviceAnswers (s : Settings) : Job σ Bool :=
  Job.recover
    (do
      let r ← Job.fetch { method := "GET", url := s.ollamaUrl, timeout := .int 5 }
      if r.status == 200 then Job.say "   ✅ 서버 연결 성공! (Ollama is running)"
      else Job.say s!"   ❌ 서버 응답 이상: {r.status}"
      return true)
    fun e => do
      Job.say s!"   ❌ 서버 연결 실패: {e.message}"
      Job.say "   👉 'ollama serve'가 실행 중인지 확인하세요."
      return false

def namesOfModels (v : Value) : Except Failure (List Value) := do
  (← (← v.getD "models" (.list [])).elements).mapM (·.item "name")

/-- Whether a name has the model's name in it; names after the first that has are not looked at. -/
def someHolds (model : Value) : List Value → Except Failure Bool
  | [] => .ok false
  | name :: rest => do if ← name.contains model then return true else someHolds model rest

/-- Whether the local service has the model; when that cannot be told the work goes on. -/
def modelPresent (s : Settings) : Job σ Bool :=
  Job.recover
    (do
      let address ← Chat.localAddress s
      let r ← Job.fetch { method := "GET", url := .text (address ++ "/api/tags"), timeout := .int 5 }
      let names ← namesOfModels (← r.json)
      if ← someHolds s.ollamaModel names then
        Job.say s!"   ✅ 모델 발견됨: {s.ollamaModel.display}"
        return true
      Job.say "   ❌ 모델을 찾을 수 없음!"
      Job.say s!"   👉 현재 설치된 모델: {(Value.list names).display}"
      Job.say s!"   👉 해결책: 터미널에 'ollama pull {s.ollamaModel.display}' 입력"
      return false)
    fun e => do
      Job.say s!"   ⚠️ 모델 목록 조회 실패: {e.message}"
      return true

/-- What the settings say, and whether an answer can be asked for. -/
def checkSettings (s : Settings) : Job σ Bool := do
  if s.usesOllama then
    Job.say s!"   - Base URL: {s.ollamaUrl.display}"
    Job.say s!"   - Model:    {s.ollamaModel.display}"
    Job.say s!"\n2. Ollama 서버 연결 테스트 ({s.ollamaUrl.display})"
    if !(← serviceAnswers s) then return false
    Job.say s!"\n3. 모델 확인 ('{s.ollamaModel.display}')"
    modelPresent s
  else if s.usesOpenAI then
    Job.say s!"   - Model: {s.openAIModel.display}"
    if !s.openAIKey.truthy then
      Job.say "   ❌ OPENAI_API_KEY가 없습니다!"
      return false
    Job.say "   ✅ API Key 설정됨"
    return true
  else return true

def tryAnswer : Job σ Unit := do
  Job.say "\n4. 실제 생성 테스트 (Hello World)"
  Job.recover
    (do
      Job.say "   ⏳ 요청 전송 중..."
      let answer ← Chat.chat (.list [.record [("role", .text "user"),
        ("content", .text "Say 'Connection Successful' in Korean.")]])
      if answer.isEmpty then
        Job.say "   ❌ 응답이 비어있습니다. (src/core/llm.py 내부 오류 로그 확인 필요)"
      else
        Job.say "   ✅ 응답 수신 성공:"
        Job.say s!"   >> {answer}")
    fun e => Job.say s!"   ❌ 생성 중 치명적 오류: {e.message}"

def diagnoseModel : Job σ Unit := do
  let s ← Job.settings
  Job.say "🔍 [LLM 진단 시작]"
  Job.say "--------------------------------------------------"
  Job.say "1. 설정 확인"
  Job.say s!"   - Provider: {s.provider.display}"
  if ← checkSettings s then tryAnswer

end ThreatAtlas.Diagnostics
