import ThreatAtlas.Console.Screen
import ThreatAtlas.Correlation.Hints
import ThreatAtlas.Correlation.Run

/-!
# Correlating at the console

The user collects clues, may change the depth, and has them correlated.
-/

namespace ThreatAtlas.Console

structure Inquiry where
  clues : List (String × String) := []
  depth : Int := 1

namespace Inquiry

def depthOf? : String → Option Int
  | "1" => some 1
  | "2" => some 2
  | "3" => some 3
  | _ => none

def kindOf? : String → Option String
  | "1" => some "Indicator"
  | "2" => some "Malware"
  | "3" => some "Vulnerability"
  | _ => none

def clueValues (q : Inquiry) : Value :=
  .list (q.clues.map fun (kind, value) => .record [("type", .text kind), ("value", .text value)])

end Inquiry

def withoutMark (s : String) : String :=
  Text.replace "[Rel] " "" s

variable {σ : Type} [Outside σ]

def showInquiry (edition : Edition) (q : Inquiry) : Job σ Unit := do
  showBanner edition
  Job.say s!"⚙️  Current Depth: {q.depth} (Fuzzy Search ON)"
  Job.say s!"\n📦 수집된 단서: {q.clues.length}개"
  q.clues.zipIdx.forM fun ((kind, value), i) => Job.say s!"   {i + 1}. [{kind}] {value}"
  Job.say "\n[단서 추가]"
  Job.say "1. Indicator (IP, URL 부분)  2. Malware Name  3. CVE ID"
  Job.say "r. 분석 실행  c. 초기화  d. 깊이 변경  q. 뒤로가기"

def showFinding (f : Correlation.Finding) (number : Nat) : Job σ Unit := do
  Job.say s!" {number}. [ThreatGroup] {f.group.display}"
  Job.say s!"    - 관련성: {Number.write f.percent}% (Score: {Number.write f.score})"
  Job.say s!"    - 근거: {f.matchesText}"
  Job.say ""

def correlate (q : Inquiry) : Job σ Unit := do
  if q.clues.isEmpty then return
  Job.say "\n🚀 연관 관계 분석 및 AI 추론 중..."
  let (findings, report) ← Correlation.run q.clueValues { depth := .int q.depth }
  showSection s!"Correlation Results ({findings.length} matches)"
  if findings.isEmpty then Job.say " [!] 매칭된 결과가 없습니다."
  else
    findings.zipIdx.forM fun (f, i) => showFinding f (i + 1)
    showAnalysis report
  let _ ← Job.prompt "\n엔터를 누르면 계속합니다..."

/-- Asks for a clue of a kind, with hints; an empty answer adds none. -/
def addClue (q : Inquiry) (kind : String) : Job σ Inquiry := do
  let hints ← Correlation.hints (.text kind) q.clueValues
  Job.say "\n💡 [Smart Hints]"
  hints.forM fun h => Job.say s!"   - {withoutMark h}"
  let value := Text.strip (← Job.prompt s!"\n[{kind}] 값 입력 (부분 검색 가능) > ")
  return if value.isEmpty then q else { q with clues := q.clues ++ [(kind, withoutMark value)] }

def inquire (edition : Edition) : Nat → Inquiry → Job σ Unit
  | 0, _ => throw .endOfInput
  | rounds + 1, q => do
    showInquiry edition q
    let choice := Text.lower (Text.strip (← Job.prompt "\n선택 > "))
    if choice == "q" then return
    else if choice == "c" then inquire edition rounds { q with clues := [] }
    else if choice == "d" then
      let answer := Text.strip (← Job.prompt "변경할 깊이 (1-3) > ")
      inquire edition rounds { q with depth := (Inquiry.depthOf? answer).getD q.depth }
    else if choice == "r" then correlate q
    else
      match Inquiry.kindOf? choice with
      | some kind => inquire edition rounds (← addClue q kind)
      | none => inquire edition rounds q

def startInquiry (edition : Edition) (rounds : Nat) : Job σ Unit := do
  let answer := Text.strip
    (← Job.prompt "\n[설정] 분석 깊이를 선택하세요 (1:직접, 2:추론, 3:심층) [기본:1] > ")
  inquire edition rounds { depth := (Inquiry.depthOf? answer).getD 1 }

end ThreatAtlas.Console
