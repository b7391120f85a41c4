import ThreatAtlas.Dashboard.Widgets
import ThreatAtlas.Profile.Analysis

/-!
# The page of profiles

The user picks an entity, by searching or from examples, and has it analysed.
-/

namespace ThreatAtlas.Dashboard.Profiles

open Profile (Choice)

def kinds : List Value :=
  ["Incident", "Threat Group", "Malware", "Vulnerability"].map .text

/-- The choices under their labels: of equal labels the last choice counts, under the first label and in
its place. -/
def byLabel (choices : List Choice) : Except Failure (List (Value × Choice)) :=
  let rec place (c : Choice) : List (Value × Choice) → List (Value × Choice)
    | [] => [(c.label, c)]
    | (label, d) :: rest => if label == c.label then (label, c) :: rest else (label, d) :: place c rest
  choices.foldlM (fun placed c => do
    let _ ← c.label.hashable
    return place c placed) []

def isHeading (fact : String) : Bool :=
  ["---", "[Step", "Threat Actor", "Malware"].any (Text.startsWith · fact)

def isAlias (fact : String) : Bool :=
  Text.startsWith "Aliases:" fact

variable {σ : Type} [Outside σ]

def showFact (fact : String) : Job σ Unit :=
  if isHeading fact then write "markdown" s!"**{fact}**" else write "write" s!"- {fact}"

def showProfile (p : Profile.Dossier) : Job σ Unit := do
  columnsOf [.real 1.2, .real 0.8]
  write "subheader" "🤖 AI Analyst Report"
  put "info" [p.analysis]
  write "subheader" "🕸️ Knowledge Graph Evidence"
  if let aliases :: _ := p.facts.filter isAlias then write "warning" s!"🔍 {aliases}"
  write "write" s!"Found {p.facts.length} facts from Graph DB."
  write "expander" "추론 근거 (Evidence Trace) 보기"
  (p.facts.filter (!isAlias ·)).forM showFact

def analyse (kind target : Value) : Job σ Unit := do
  if !target.truthy then
    write "error" "분석할 대상을 먼저 검색하거나 선택해 주세요."
  else
    put "divider"
    write "spinner" "AI Analyst가 그래프 데이터를 분석 중입니다..."
    Job.recover
      (do
        match Profile.Subject.ofName? kind with
        | some subject =>
          showProfile (← Profile.ofSubject subject (← target.item "uri") (← target.item "label"))
        | none => showProfile ⟨.text "", []⟩)
      fun e => write "error" s!"분석 중 오류 발생: {e.message}"

/-- A choice to be searched for on the next run, under the name that takes it there. -/
def pendingName (kind : String) : String := s!"pending_q_{kind}"

def searchName (kind : String) : String := s!"q_{kind}"

def takePending (kind : String) : Job σ Unit := do
  if ← isRemembered (pendingName kind) then
    remember (searchName kind) (← remembered (pendingName kind))
    forget (pendingName kind)

def pick (search : Value) (choices : List Choice) : Job σ Unit := do
  if choices.isEmpty then
    write "warning" s!"'{search.display}' 검색 결과가 없습니다."
    remember "selected_item" .null
  else
    let options ← byLabel choices
    let label ← choose "selectbox" "분석할 항목 선택" (options.map (·.1))
    let picked := (options.find? (·.1 == label)).map (·.2.toValue)
    remember "selected_item" (picked.getD .null)

def offerExamples (kind : String) (examples : List Choice) : Job σ Unit := do
  if !examples.isEmpty then
    write "markdown" "##### 💡 Quick Select (Examples)"
    columns (min examples.length 4)
    examples.zipIdx.forM fun (c, i) => do
      if ← button (.text s!"🏷️ {c.label.display}") (some s!"btn_{kind}_{i}") then
        remember (pendingName kind) c.label
        rerun

def run : Job σ Unit := do
  put "set_page_config"
  write "title" "🔍 Entity Deep Analysis"
  write "markdown" "사건(Incident), 위협 그룹(Threat Group), 악성코드, 취약점의 상세 정보를 조회하고 AI 분석을 수행합니다."
  columnsOf [.int 1, .int 3]
  let kind ← choose "selectbox" "분석 대상 유형" kinds
  let kindName := kind.display
  rememberFirst "selected_item" .null
  takePending kindName
  let search ← field "text_input" s!"🔍 {kindName} 검색 (Loose Search)" (some (searchName kindName))
  write "spinner" s!"{kindName} 목록 검색 중..."
  let choices ← Profile.choices kind (.int 100) search
  let examples ← Profile.choices kind (.int 8) .null
  pick search choices
  offerExamples kindName examples
  let target ← remembered "selected_item"
  if ← button "🚀 상세 분석 실행" then analyse kind target

end ThreatAtlas.Dashboard.Profiles
