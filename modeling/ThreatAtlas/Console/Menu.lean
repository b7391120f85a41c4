import ThreatAtlas.Console.Analysis
import ThreatAtlas.Console.Correlation

/-!
# The menu of the console

Every round reads one answer at least, so the number of rounds bounds a run; a run that has not ended by
then ends like one without further input.
-/

namespace ThreatAtlas.Console

variable {σ : Type} [Outside σ]

/-- Reads questions until one of the words for leaving. The agent has no instructions to begin with, so
the first question fails. -/
def chatRounds : Nat → Job σ Unit
  | 0 => throw .endOfInput
  | rounds + 1 => do
    let question := Text.strip (← Job.prompt "\nUser > ")
    if ["q", "quit", "exit"].contains (Text.lower question) then return
    else if question.isEmpty then chatRounds rounds
    else
      Job.say "\n--------------------------------------------------"
      Job.say " 🧠 Reasoning Trace (생각의 흐름)"
      Job.say "--------------------------------------------------"
      throw (.noPart "module 'src.services.agent'" "AGENT_SYSTEM_PROMPT")

def chatWithAgent (edition : Edition) (rounds : Nat) : Job σ Unit := do
  Job.say "\n🚀 스마트 에이전트 모드를 시작합니다. (초기화 중...)"
  Job.recover
    (do
      showBanner edition
      Job.say "\n💬 [AI Agent Chat Mode]"
      Job.say "질문을 입력하면 에이전트가 스스로 판단(Reasoning)하고 DB를 조회합니다."
      Job.say "예: '최근 사건 목록 보여줘', 'IP 1.2.3.4 찾아줘'"
      Job.say "(종료하려면 'q' 또는 'exit' 입력)\n"
      chatRounds rounds)
    fun e => do
      Job.say s!"❌ 에이전트 초기화 실패: {e.message}"
      let _ ← Job.prompt "엔터를 누르면 메뉴로 돌아갑니다..."

def analysisRounds : Nat → Job σ Unit
  | 0 => throw .endOfInput
  | rounds + 1 => do
    Job.say "\n[조회 대상] 1.Incident 2.Malware 3.CVE b.뒤로"
    match Text.lower (Text.strip (← Job.prompt "> ")) with
    | "b" => return
    | "1" => pickAndAnalyse (.text "Incident"); analysisRounds rounds
    | "2" => pickAndAnalyse (.text "Malware"); analysisRounds rounds
    | "3" => pickAndAnalyse (.text "Vulnerability"); analysisRounds rounds
    | _ => analysisRounds rounds

def showMenu (edition : Edition) : Job σ Unit := do
  showBanner edition
  Job.say "\n[메인 메뉴]"
  Job.say "1. 심층 분석 (Deep Analysis) - Entity 상세 조회"
  Job.say "2. 연관 분석 (Correlation)   - 다층 연결고리 추적"
  if edition = .reasoning then
    Job.say "3. 스마트 에이전트 (AI Chat) - 자율 추론 및 질의응답 [NEW]"
  Job.say "q. 종료"

def menuRounds (edition : Edition) (inner : Nat) : Nat → Job σ Unit
  | 0 => throw .endOfInput
  | rounds + 1 => do
    showMenu edition
    match Text.lower (Text.strip (← Job.prompt "\n선택 > ")), edition with
    | "q", _ => Job.say "Bye!"
    | "1", _ => analysisRounds inner; menuRounds edition inner rounds
    | "2", _ => startInquiry edition inner; menuRounds edition inner rounds
    | "3", .reasoning => chatWithAgent edition inner; menuRounds edition inner rounds
    | _, _ => menuRounds edition inner rounds

/-- The console, for at most so many rounds of each menu. -/
def run (edition : Edition) (rounds : Nat) : Job σ Unit :=
  menuRounds edition rounds rounds

end ThreatAtlas.Console
