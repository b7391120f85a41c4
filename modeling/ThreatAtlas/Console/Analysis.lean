import ThreatAtlas.Console.Screen
import ThreatAtlas.Profile.Analysis

/-!
# Analysing an entity at the console

The user picks an entity of a kind from a numbered list and gets its profile.
-/

namespace ThreatAtlas.Console

/-- A text of digits of any script, superscripts included. -/
def isNumeral (s : String) : Bool :=
  !s.isEmpty && s.toList.all Text.isDigitLike

variable {σ : Type} [Outside σ]

/-- The profile of a choice. Threat groups have none at the console. -/
def profileOf (kind : Value) (choice : Profile.Choice) : Job σ Profile.Dossier :=
  match Profile.Subject.ofName? kind with
  | some .incident => Profile.ofIncident choice.uri
  | some .malware => Profile.ofMalware choice.label
  | some .vulnerability => Profile.ofVulnerability choice.uri choice.label
  | _ => return ⟨.text "", []⟩

def showProfile (kind : Value) (choice : Profile.Choice) : Job σ Unit := do
  Job.say s!"\n🚀 '{choice.label.display}' 분석 중..."
  let profile ← profileOf kind choice
  showEvidence (.texts profile.facts)
  showAnalysis profile.analysis
  let _ ← Job.prompt "\n엔터를 누르면 메뉴로 돌아갑니다..."

def pickAndAnalyse (kind : Value) : Job σ Unit := do
  let choices ← Profile.choices kind (.int 20) .null
  if choices.isEmpty then
    Job.say s!"[!] 데이터가 없습니다 ({kind.display})."
    return
  Job.say s!"\n📋 [최근 {kind.display} 목록]"
  choices.zipIdx.forM fun (c, i) =>
    Job.say s!"  {i + 1}. {c.label.display} (ID: {c.uri.display} | Count:0)"
  let answer := Text.strip (← Job.prompt s!"\n분석할 번호 선택 (1-{choices.length}) > ")
  if isNumeral answer then
    let n ← (Value.text answer).toInt
    if 1 ≤ n then
      if let some c := choices[n.toNat - 1]? then showProfile kind c

end ThreatAtlas.Console
