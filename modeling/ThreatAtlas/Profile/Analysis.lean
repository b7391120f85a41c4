import ThreatAtlas.Models
import ThreatAtlas.Profile.Listing

/-!
# Profiles

The facts the graph holds on an entity, and an analysis that a model writes from them.
-/

namespace ThreatAtlas.Profile

structure Dossier where
  analysis : Value
  facts : List String

def factsJson (step : Option Nat) (facts : List String) : String :=
  Json.writeAt step 0 (.texts facts)

def joined (v : Value) : Except Failure String := do
  Value.joinTexts ", " (← v.joinable)

/-- The start of a text, which may be missing but not null. -/
def excerpt (row : Row) (name : String) (length : Nat) : Except Failure String := do
  return (← ((row.lookup name).getD (.text "")).takeFirst length).display

def eachFact (title : String) (items : List Value) : List String :=
  items.map fun v => s!"{title}: {v.display}"

def listed (row : Row) (name : String) : Value :=
  (row.lookup name).getD (.list [])

def aliasFacts (row : Row) : Except Failure (List String) := do
  let aliases := listed row "aliases"
  if aliases.truthy then return [s!"Aliases: {← joined aliases}"] else return []

def headerQuery : String := "
    MATCH (i:Incident \x7bid: $id\x7d)
    OPTIONAL MATCH (i)-[:TARGETS]->(v:Identity)
    OPTIONAL MATCH (i)-[:ATTRIBUTED_TO]->(g:ThreatGroup)
    RETURN i.title as title, i.summary as summary, i.timestamp as date,
           v.name as victim, v.system as system,
           g.name as actor
    "

def stepsQuery : String := "
    MATCH (i:Incident \x7bid: $id\x7d)-[:STARTS_WITH]->(s:AttackStep)
    // 연결된 모든 단계 순차 조회 (Next 관계 따라가거나 Order로 정렬)
    // 여기서는 간단하게 Incident와 직/간접 연결된 모든 Step을 Order로 정렬
    MATCH (i)-[:STARTS_WITH|NEXT*]->(step:AttackStep)
    
    OPTIONAL MATCH (step)-[:USES_MALWARE]->(m:Malware)
    OPTIONAL MATCH (step)-[:EXPLOITS]->(vuln:Vulnerability)
    OPTIONAL MATCH (step)-[:HAS_INDICATOR]->(ind:Indicator)
    
    RETURN step.order as order, step.phase as phase, step.description as desc, 
           step.outcome as outcome,
           m.name as malware, vuln.cve_id as cve, ind.url as ioc
    ORDER BY step.order ASC
    "

def headerFacts (uri : Value) : List Row → List String
  | [] => [s!"Incident ID '{uri.display}' not found."]
  | h :: _ =>
    let shown (name : String) : String := (h.get name).display
    let actor := (h.lookup "actor").getD (.text "Unknown")
    ["Incident: " ++ shown "title",
      "Date: " ++ shown "date",
      "Victim: " ++ shown "victim" ++ " (" ++ shown "system" ++ ")",
      "Attributed Actor: " ++ actor.display,
      "Summary: " ++ shown "summary"]

def stepFact (row : Row) : Except Failure String := do
  let order ← row.item "order"
  let phase ← row.item "phase"
  let description ← row.item "desc"
  let outcome ← row.item "outcome"
  let used := [("Malware", "malware"), ("Vuln", "cve"), ("IoC", "ioc")].filterMap fun (title, name) =>
    let v := row.get name
    if v.truthy then some s!"{title}: {v.display}" else none
  return s!"[Step {order.display}] {phase.display}: {description.display} ({outcome.display})" ++
    if used.isEmpty then "" else " -> Used: " ++ ", ".intercalate used

def flowFacts : List Row → Except Failure (List String)
  | [] => .ok ["No detailed attack steps found."]
  | steps => do return "--- Attack Flow ---" :: (← steps.mapM stepFact)

def incidentRequest (facts : List String) : String :=
  "
    [Incident Context]
    " ++ factsJson (some 1) facts ++ "
    
    [Request]
    Based on the incident timeline and artifacts:
    1. Provide a post-mortem analysis of the attack (How it started, How it propagated).
    2. Assess the criticality of the compromised system.
    3. Suggest immediate response actions and long-term mitigation strategies.
    4. **All responses must be in Korean (한국어).**
    "

def groupQuery (uri label : Value) : String :=
  "
    MATCH (g:ThreatGroup)
    WHERE g.name = '" ++ label.display ++ "' OR g.mitre_id = '" ++ uri.display ++ "'
    
    OPTIONAL MATCH (g)-[:ALIASED_AS]-(a:ThreatGroup)
    OPTIONAL MATCH (g)-[:USES]->(m:Malware)
    OPTIONAL MATCH (g)-[:USES]->(t:AttackTechnique)
    
    RETURN g.description as desc, 
           collect(distinct a.name) as aliases,
           collect(distinct m.name) as malwares,
           collect(distinct t.mitre_id + ' ' + t.name) as techniques
    "

def groupFacts (label : Value) : List Row → Except Failure (List String)
  | [] => .ok [s!"Threat Actor: '{label.display}'", "No data found for this group."]
  | row :: _ => do
    let aliases ← aliasFacts row
    let description ← excerpt row "desc" 300
    let malwares ← (← (listed row "malwares").takeFirst 10).elements
    let techniques ← (← (listed row "techniques").takeFirst 10).elements
    return [s!"Threat Actor: '{label.display}'"] ++ aliases ++ [s!"Description: {description}..."] ++
      eachFact "Uses Malware" malwares ++ eachFact "Technique" techniques

def groupRequest (facts : List String) : String :=
  "
    [Evidence]
    " ++ factsJson (some 1) facts ++ "
    
    [Request]
    Profile this Threat Group.
    1. Summarize their characteristics and main tools (including aliases).
    2. Analyze their sophistication based on techniques.
    3. Recommended defenses.
    4. **All responses must be in Korean (한국어).**
    "

def malwareQuery (label : Value) : String :=
  "
    MATCH (m:Malware) WHERE m.name = '" ++ label.display ++ "'
    OPTIONAL MATCH (m)-[:ALIASED_AS]-(a:Malware)
    OPTIONAL MATCH (m)-[:USES]->(t:AttackTechnique)
    OPTIONAL MATCH (g:ThreatGroup)-[:USES]->(m)
    RETURN m.description as desc,
           collect(distinct a.name) as aliases,
           collect(distinct t.mitre_id + ' ' + t.name) as techniques,
           collect(distinct g.name) as groups
    "

def malwareFacts (label : Value) : List Row → Except Failure (List String)
  | [] => .ok [s!"Malware: '{label.display}'"]
  | row :: _ => do
    let aliases ← aliasFacts row
    let description ← excerpt row "desc" 200
    let groups ← (listed row "groups").elements
    let techniques ← (listed row "techniques").elements
    return [s!"Malware: '{label.display}'"] ++ aliases ++ [s!"Description: {description}..."] ++
      eachFact "Used By" groups ++ eachFact "Capability" techniques

def malwareRequest (facts : List String) : String :=
  "
    [Evidence] " ++ factsJson none facts ++ "
    Analyze this malware's capabilities and risk.
    **All responses must be in Korean (한국어).**
    "

def vulnerabilityQuery (uri : Value) : String :=
  "
    MATCH (v:Vulnerability) WHERE v.cve_id = '" ++ uri.display ++ "'
    OPTIONAL MATCH (v)-[:RELATED_TO]->(t:AttackTechnique)
    RETURN v.description as desc, v.product as product,
           collect(distinct t.mitre_id + ' ' + t.name) as techniques
    "

def vulnerabilityFacts (label : Value) : List Row → Except Failure (List String)
  | [] => .ok [s!"Vulnerability: {label.display}"]
  | row :: _ => do
    let techniques ← (listed row "techniques").elements
    return [s!"Vulnerability: {label.display}", "Product: " ++ (row.get "product").display,
      "Description: " ++ (row.get "desc").display] ++ eachFact "Related Tech" techniques

def vulnerabilityRequest (facts : List String) : String :=
  "
    [Evidence] " ++ factsJson none facts ++ "
    Analyze the impact and risk of this CVE.
    **All responses must be in Korean (한국어).**
    "

variable {σ : Type} [Outside σ]

def ofIncident (uri : Value) : Job σ Dossier := do
  let header ← Job.ask headerQuery [("id", uri)]
  let steps ← Job.ask stepsQuery [("id", uri)]
  let facts := headerFacts uri header ++ (← flowFacts steps)
  let analysis ← Job.analyse "You are a Cyber Incident Responder. Always answer in Korean."
    (incidentRequest facts)
  return ⟨analysis, facts⟩

def ofThreatGroup (uri label : Value) : Job σ Dossier := do
  let facts ← groupFacts label (← Job.ask (groupQuery uri label))
  let analysis ← Job.analyse "You are a Threat Intelligence Analyst. Answer in Korean."
    (groupRequest facts)
  return ⟨analysis, facts⟩

def ofMalware (label : Value) : Job σ Dossier := do
  let facts ← malwareFacts label (← Job.ask (malwareQuery label))
  let analysis ← Job.analyse "You are a Malware Analyst. Answer in Korean." (malwareRequest facts)
  return ⟨analysis, facts⟩

def ofVulnerability (uri label : Value) : Job σ Dossier := do
  let facts ← vulnerabilityFacts label (← Job.ask (vulnerabilityQuery uri))
  let analysis ← Job.analyse "You are a Vulnerability Researcher. Answer in Korean."
    (vulnerabilityRequest facts)
  return ⟨analysis, facts⟩

def ofSubject (subject : Subject) (uri label : Value) : Job σ Dossier :=
  match subject with
  | .incident => ofIncident uri
  | .threatGroup => ofThreatGroup uri label
  | .malware => ofMalware label
  | .vulnerability => ofVulnerability uri label

end ThreatAtlas.Profile
