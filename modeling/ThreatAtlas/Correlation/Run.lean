import ThreatAtlas.Correlation.Group
import ThreatAtlas.Correlation.Queries
import ThreatAtlas.Models

/-!
# Correlation

Clues are searched for in the graph; what is found leads to threat groups; the groups are scored and
a model writes a report on them.
-/

namespace ThreatAtlas.Correlation

structure Options where
  depth : Value := .int 1
  looseness : Value := .int 30
  includeIncidents : Value := .bool true

/-- A percentage from a number or its text. -/
def looseness (v : Value) : Except Failure Int := do
  return max 0 (min 100 (← v.toInt))

/-- One step more than the depth, but at least three. -/
def reach (depth : Value) : Except Failure Value := do
  let more ← depth.add (.int 1)
  if ← (Value.int 3).less more then return more else return .int 3

def coversNodes (labels : Value) : Except Failure Bool := do
  if !labels.truthy then return false
  return (← labels.elements).any fun l => ["basenode", "incident"].contains (Text.lower l.display)

/-- The name of the first index that covers the atlas, or else of the first with a name. -/
def chooseIndex : Value → List Row → Except Failure Value
  | preferred, [] => .ok preferred
  | preferred, row :: rows => do
    let name := row.get "name"
    if ← coversNodes (row.get "labelsOrTypes") then return name
    chooseIndex (if preferred.truthy then preferred else name) rows

def clueQueries (index : Value) (loose : Int) (o : Options) (artifact : Value) :
    Except Failure (List String) := do
  let clue := quotable ((← artifact.get "value").orElse (.text "")).display
  let near := nearbyGroups clue (← reach o.depth).display o.includeIncidents.truthy
  let indexed :=
    if 20 ≤ loose && index.truthy then [indexedNodes index.display (escapeForIndex clue)] else []
  return [equalNodes clue, containingNodes clue] ++ indexed ++ [near]

def clueLabels : List Value :=
  [.text "Malware", .text "Vulnerability", .text "AttackTechnique", .text "Indicator", .text "Tool"]

def pathNode (v : Value) : Except Failure PathNode := do
  let name ← v.get "name"
  let labels := (← v.get "labels").orElse (.list [])
  let name ← (name.orElse (.text "")).asText "lower"
  let labels ← (← labels.elements).mapM Value.hashable
  return ⟨name, labels.any fun l => clueLabels.any (· == l)⟩

/-- The distance of a row; ten, when it has none. -/
def distanceOf (row : Row) : Value :=
  (row.get "dist").orElse (.int 10)

def pathOf (row : Row) : Except Failure (List PathNode) := do
  (← ((row.get "path_nodes").orElse (.list [])).elements).mapM pathNode

def clueValue (artifact : Value) : Except Failure String := do
  (← artifact.item "value").asText "lower"

variable {σ : Type} [Outside σ]

def findIndex : Job σ Value := do
  let rows ← Job.askOrNone ⟨textIndexes, []⟩
  (chooseIndex .null rows : Except Failure Value)

def collect : List String → Job σ (List Row)
  | [] => return []
  | q :: qs => do
    let rows ← Job.askOrNone ⟨q, []⟩
    return rows ++ (← collect qs)

/-- Groups already looked up, under the text and type of the node. -/
abbrev Lookups := List (String × List Value)

def groupsBehind (seen : Lookups) (label : Value) (kind : String) :
    Job σ (List Value × Lookups) := do
  let label := label.orElse (.text "")
  let key := s!"{label.display}_{kind}"
  match seen.lookup key with
  | some groups => return (groups, seen)
  | none =>
    let text := if kind == "Incident" then groupsOfIncident else groupsOfNode
    let rows ← Job.ask text [("val", label)]
    let groups := (rows.map (·.get "tgname")).filter Value.truthy
    return (groups, (key, groups) :: seen)

def groupsOf (seen : Lookups) (row : Row) : Job σ (List Value × Lookups) := do
  let kind ← ((row.get "type").orElse (.text "")).asText "strip"
  let kind := Text.strip kind
  let label := row.get "label"
  if kind == "ThreatGroup" then
    match ← Job.ask canonicalGroup [("val", label)] with
    | [] => return ([label], seen)
    | rows => return (← (Row.column "name" rows : Except Failure _), seen)
  else groupsBehind seen label kind

def checkAliases (name : Value) : Job σ Unit := do
  let rows ← Job.ask groupAliases [("val", name)]
  match rows with
  | [] => return
  | row :: _ =>
    let aliases ← (Value.record row).item "aliases"
    if aliases.truthy then
      let _ ← Value.joinTexts ", " (← aliases.joinable)
      match name with
      | .text _ => return
      | v => throw (.mismatch (.operands "+=" v.kind .text))

def sight (clues : Clues) (row : Row) (g : Group) : Except Failure Group := do
  let nearest ← g.nearest.lesser (distanceOf row)
  let path ← pathOf row
  return { g with nearest }.absorb clues path

/-- The groups with one of this name, whose other names are looked up if it is new. -/
def enlist (groups : List Group) (name : Value) : Job σ (List Group) :=
  if groups.any (·.name == name) then pure groups
  else do
    checkAliases name
    pure (groups ++ [{ name := name }])

/-- The records after the groups of a name took the row into account. -/
def sightAll (clues : Clues) (row : Row) (name : Value) (groups : List Group) :
    Except Failure (List Group) :=
  groups.mapM fun g => if g.name == name then sight clues row g else pure g

def meet (clues : Clues) (row : Row) (groups : List Group) (name : Value) : Job σ (List Group) := do
  if !name.truthy then return groups
  let name ← name.hashable
  sightAll clues row name (← enlist groups name)

def meetAll (clues : Clues) (row : Row) : List Value → List Group → Job σ (List Group)
  | [], groups => return groups
  | name :: names, groups => do meetAll clues row names (← meet clues row groups name)

def gather (clues : Clues) : List Row → Lookups → List Group → Job σ (List Group)
  | [], _, groups => return groups
  | row :: rows, seen, groups => do
    let (names, seen) ← groupsOf seen row
    gather clues rows seen (← meetAll clues row names groups)

def instructions : String := "You are a senior Cyber Threat Intelligence Analyst. Your task is to synthesize raw findings into a concise intelligence report.
Your answer MUST be in Korean."

def request (clues : Clues) (o : Options) (loose : Int) (findings : List Finding) : String :=
  "
[Task]
제공된 단서(Artifacts)와 지식 그래프 분석 결과를 토대로 위협 인텔리전스 보고서를 작성하세요.
단순히 목록을 나열하지 말고, 왜 특정 그룹이 배후로 강력하게 의심되는지 논리적으로 설명해야 합니다.

[Context]
- 입력된 단서: " ++ Json.write (.texts (clues.map (·.2))) ++ "
- 분석 설정: Depth=" ++ o.depth.display ++ ", Looseness=" ++ toString loose ++ ", Include Incidents=" ++ o.includeIncidents.display ++ "

[Knowledge Graph Findings]
아래는 그래프 DB에서 찾은 가용한 모든 연결 고리입니다.
" ++ Json.writeIndented 2 (.list (findings.map Finding.summary)) ++ "

[Report Requirements]
1. **결론 우선**: 가장 가능성이 높은 위협 그룹과 판단 근거 요약을 첫 부분에 작성하세요.
2. **근거 중심 추론**: 입력한 각각의 단서가 어떻게 해당 위협 그룹과 연결되는지(예: IP -> Malware A -> Group X) 그래프 경로를 기반으로 설명하세요.
3. **공유 지식 강조**: 여러 단서가 공통으로 거쳐가는 'Shared Knowledge Nodes'(악성코드, CVE 등)가 있다면 적극적으로 언급하여 연결의 견고함을 증명하세요.
4. **신뢰성 평가**: 분석 결과에 대한 신뢰도(높음, 중간, 낮음)를 명시하고 이유를 설명하세요.
5. **한국어 작성**: 모든 보고 내용은 한국어로 작성해야 합니다.

보고서를 시작하세요.
"

def noClues : String := "분석 가능한 아티팩트가 없거나, 선택된 심도(Depth)에서는 탐색 경로가 정의되지 않았습니다."

def noGroups : String := "조건에 맞는 위협 그룹을 찾지 못했습니다."

/-- What a search for the artifacts brings: the clues, their number and the rows found for them. -/
structure Search where
  loose : Int
  clues : Clues
  count : Nat
  rows : List Row

/-- The search for the artifacts, if there is anything to search for. -/
def search (artifacts : Value) (o : Options) : Job σ (Option Search) := do
  let loose ← looseness o.looseness
  let index ← findIndex
  let items ← artifacts.elements
  let queries ← (items.mapM (clueQueries index loose o) : Except Failure _)
  if queries.flatten.isEmpty then return none
  let rows ← collect queries.flatten
  let values ← (items.mapM clueValue : Except Failure _)
  return some ⟨loose, .ofValues values, items.length, rows⟩

def assess (clues : Clues) (count : Nat) (rows : List Row) : Job σ (List Finding) := do
  let groups ← gather clues rows [] []
  (groups.mapM (Finding.ofGroup count) : Except Failure _)

def conclude (clues : Clues) (o : Options) (loose : Int) (found : List Finding) :
    Job σ (List Finding × Value) := do
  if found.isEmpty then return ([], .text noGroups)
  let report ← Job.analyse instructions (request clues o loose found)
  return (Finding.rank found, report)

/-- The correlation, with what makes findings of the clues, their number and the rows left open. -/
def runWith (findings : Clues → Nat → List Row → Job σ (List Finding)) (artifacts : Value)
    (o : Options) : Job σ (List Finding × Value) := do
  match ← search artifacts o with
  | none => return ([], .text noClues)
  | some found =>
    conclude found.clues o found.loose (← findings found.clues found.count found.rows)

/-- Correlates artifacts. The result is the ranked findings and the report. -/
def run (artifacts : Value) (o : Options) : Job σ (List Finding × Value) :=
  runWith assess artifacts o

end ThreatAtlas.Correlation
