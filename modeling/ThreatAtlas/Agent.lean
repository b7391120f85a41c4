import ThreatAtlas.Models
import ThreatAtlas.Toolbox.Catalogue

/-!
# The agent

A loop of two nodes: the chatbot asks a model that may call tools, and the tools answer it. The chatbot
goes on as long as the model calls tools.
-/

namespace ThreatAtlas.Agent

def instructions : String := "
    당신은 고급 사이버 위협 인텔리전스(CTI) 분석 에이전트입니다.
    당신의 지식 베이스는 **Incident -> AttackStep -> Entity** 구조의 지식 그래프입니다.

    [운용 전략]
    1. **기본 검색**: 단순한 IoC나 인시던트 조회는 정의된 도구(`search_keyword_context`, `search_keyword_from_incidents` 등)를 우선 사용하세요.
    2. **구조 파악**: 그래프 구조나 속성이 생소하다면 `inspect_schema`, `list_labels`, `list_properties`를 사용하여 먼저 구조를 파악하세요.
    3. **연관성 분석(Pathfinding)**: \"A와 B는 어떤 관계인가?\", \"X와 Y 사이에 연결 고리가 있는가?\" 라는 질문에는 **반드시 `find_paths` 도구**를 사용하여 두 대상 간의 최단 경로와 중간 매개체(악성코드, CVE 등)를 찾아 분석하세요.
    4. **복합 질문 대응**: 사전에 정의된 도구만으로 해결할 수 없는 복합적인 질문(예: 특정 기술을 공유하는 그룹 나열, 특정 날짜 이후의 통계 등)이 들어오면, `run_cypher` 도구를 사용하여 **직접 Cypher 쿼리를 작성**하여 해결하세요.
    5. **유연성**: 사용자 질문이 예상 범위를 벗어날수록 그래프 스키마를 확인하고 직접 쿼리하거나 경로를 탐색하는 전략을 적극 활용하세요.

    [Response Guidelines]
    - 반드시 **한국어(Korean)**로 답변하세요. 모든 응답은 자연스러운 한국어로 작성되어야 합니다.
    - **위협 그룹 명시**: 위협 그룹(Threat Group)을 언급할 때는 반드시 지식 그래프에서 찾은 모든 별칭을 함께 표시하세요. 예: `Turla (a.k.a Secret Blizzard, Krypton, Venomous Bear)`
    - Markdown을 사용하여 가독성을 높이세요.
    - 분석 결과의 근거가 되는 그래프 단서(인시던트 명, 공격 단계 등)를 명확히 제시하세요.
    "

/-- Messages that begin with instructions: those of the agent, unless they bring their own. -/
def instructed : List Message → Except Failure (List Message)
  | [] => .error (.outOfRange "list")
  | m :: rest =>
    if m.role == .system then .ok (m :: rest)
    else .ok ({ role := .system, content := .text instructions } :: m :: rest)

variable {σ : Type} [Outside σ]

def chatbot (messages : List Message) : Job σ Value := do
  let s ← Job.settings
  let messages ← instructed messages
  Job.consultText
    { model := .bare s
      prompt := .messages (messages.map fun m => (m.role, m.content.display))
      tools := Toolbox.Tool.all.map (·.name) }

end ThreatAtlas.Agent
