import ThreatAtlas.Incident.Extraction
import ThreatAtlas.Models

/-!
# Inventing incidents

A model is given a victim and ingredients from the graph, and writes an incident around them.
-/

namespace ThreatAtlas.Incident

def victimFile : String := "data/seed/victims.json"

def ingredientQueries : List (String × String) :=
  [("groups", "MATCH (n:ThreatGroup) RETURN n.name as val LIMIT 50"),
    ("malwares", "MATCH (n:Malware) RETURN n.name as val LIMIT 50"),
    ("vulnerabilities", "MATCH (n:Vulnerability) RETURN n.cve_id + ' (' + coalesce(n.product, '') + ')' as val ORDER BY n.date_added DESC LIMIT 50"),
    ("techniques", "MATCH (n:AttackTechnique) RETURN n.mitre_id + ' ' + n.name as val LIMIT 50"),
    ("indicators", "MATCH (n:Indicator) WHERE n.url IS NOT NULL RETURN n.url as val LIMIT 50")]

def instructions : String := "
    You are a Cyber Threat Intelligence Generator. 
    Your job is to create realistic cybersecurity incident scenarios in JSON format.
    
    [Rules]
    1. **Strict Target**: You MUST create an incident targeting the organization provided in the user prompt.
    2. **Realism**: Use the provided 'Ingredients' (Groups, Malware, CVEs) to build a logical attack chain.
    3. **Story**: The 'attack_flow' should be a sequence of 3-5 steps explaining how the breach happened.
    4. **Language**: Use Korean (한국어) for title, summary, and descriptions.
    5. **Date**: Random date between 2024 and 2026.
    "

/-- What is asked for; names in braces are filled in, doubled braces stand for one. -/
def requestTemplate : String := "
    Create \x7bcount\x7d unique incident scenario targeting the following entity:
    
    [Target Victim]
    - Organization: \x7btarget_org\x7d
    - System: \x7btarget_sys\x7d
    - Industry: \x7btarget_ind\x7d
    
    [Ingredients to Use]
    - Threat Groups: \x7bgroups\x7d
    - Malware: \x7bmalwares\x7d
    - Vulnerabilities: \x7bvulnerabilities\x7d
    - Techniques: \x7btechniques\x7d
    - Indicators: \x7bindicators\x7d
    
    [Output JSON Schema]
    [
      \x7b\x7b
        \"id\": \"incident--uuid\",
        \"title\": \"Incident Title (Korean)\",
        \"timestamp\": \"ISO8601 Date distributed between 2023-2025\",
        \"victim\": \x7b\x7b 
            \"organization\": \"\x7btarget_org\x7d\", 
            \"system\": \"\x7btarget_sys\x7d\", 
            \"industry\": \"\x7btarget_ind\x7d\", 
            \"country\": \"South Korea\" 
        \x7d\x7d,
        \"attribution\": \x7b\x7b \"group_name\": \"Pick one from ingredients\", \"confidence\": \"High/Medium/Low\" \x7d\x7d,
        \"summary\": \"Brief summary in Korean\",
        \"attack_flow\": [
           \x7b\x7b
             \"step\": 1,
             \"phase\": \"Initial Access/Execution/...\",
             \"technique\": \"Pick one from ingredients\",
             \"description\": \"What happened? (Korean)\",
             \"outcome\": \"Success/Blocked\",
             \"related_entity\": \x7b\x7b \"type\": \"Malware/Vulnerability/Indicator\", \"value\": \"Value from ingredients\" \x7d\x7d
           \x7d\x7d
        ]
      \x7d\x7d
    ]
    
    IMPORTANT: Return ONLY the raw JSON array.
    "

variable {σ : Type} [Outside σ]

def victims : Job σ Value := do
  if ← Job.fileExists victimFile then
    Job.recover (Job.readJson victimFile) fun e => do
      Job.say s!"[!] Error loading victim file: {e.message}"
      return .list []
  else
    Job.say s!"[!] Warning: Victim seed file not found at {← Job.shownPath victimFile}"
    return .list [.record [("org", .text "테스트기관"), ("sys", .text "테스트시스템"),
      ("ind", .text "Public")]]

def ingredient (query : String) : Job σ String :=
  Job.recover
    (do
      let values ← Row.column "val" (← Job.ask query)
      if values.isEmpty then return "None" else Value.joinTexts ", " (values.take 10))
    fun _ => return ""

def ingredients : Job σ Fields :=
  ingredientQueries.mapM fun (kind, query) => do return (kind, .text (← ingredient query))

def chooseOne (pool : Value) : Job σ Value := do
  let size ← pool.length
  let place := (← Job.draw).emod size
  match pool with
  | .list xs => return (xs[place.toNat]?).getD .null
  | .text s => return .text (String.ofList ((s.toList.drop place.toNat).take 1))
  | _ => throw (.missingKey (.int place))

def scenarios (count : Value := .int 1) : Job σ Value := do
  let parts ← ingredients
  let pool ← victims
  if !pool.truthy then
    Job.say "[!] No victim pool available."
    return .list []
  let target ← chooseOne pool
  let org ← target.item "org"
  let sys ← target.item "sys"
  let ind ← target.item "ind"
  let values := parts ++ [("count", .text count.display), ("target_org", org), ("target_sys", sys),
    ("target_ind", ind)]
  Job.say s!"[*] Generating scenario targeting: {org.display} ({sys.display})..."
  Job.say "    [*] Invoking LLM..."
  let s ← Job.settings
  Job.recover
    (do
      let reply ← Job.consultText
        { model := .ofSettings s (.real 0.95)
          prompt := .template [(.system, instructions), (.human, requestTemplate)] values }
      let found := match reply with
        | .text t => (extract t).getD .null
        | _ => .null
      if found.truthy then return found
      Job.say "[!] JSON Extraction Failed. Retrying..."
      return .list [])
    fun e => do
      Job.say s!"[!] Generation Error: {e.message}"
      return .list []

end ThreatAtlas.Incident
