import ThreatAtlas.Incident.Store
import ThreatAtlas.Plan
import ThreatAtlas.Value.Sort

/-!
# Bringing incidents into the graph

An incident, its victim and its actor become nodes, and its steps a chain in the order of their numbers.
A log keeps the incidents that have been brought in, and these are not brought in again.
-/

namespace ThreatAtlas.Incident

def logDirectory : String := "data/processed"

def logFile : String := "data/processed/incidents_imported.json"

namespace Queries

def core : String := "
    MERGE (i:Incident \x7bid: $id\x7d)
    SET i.title = $title,
        i.summary = $summary,
        i.timestamp = $timestamp,
        i.created_at = datetime()

    MERGE (v:Identity \x7bname: $victim_org\x7d)
    SET v.industry = $victim_ind,
        v.system = $victim_sys,
        v.country = $victim_country

    MERGE (i)-[:TARGETS]->(v)
    "

def attribution : String := "
        MATCH (g:ThreatGroup)
        WHERE toLower(g.name) = toLower($group_name)
        MATCH (i:Incident \x7bid: $id\x7d)
        MERGE (i)-[:ATTRIBUTED_TO]->(g)
        "

def step : String := "
        MERGE (s:AttackStep \x7bid: $step_id\x7d)
        SET s.phase = $phase,
            s.description = $desc,
            s.technique_name = $tech_name,
            s.outcome = $outcome,
            s.order = $order
        "

def firstLink : String := "
            MATCH (i:Incident \x7bid: $inc_id\x7d), (s:AttackStep \x7bid: $step_id\x7d)
            MERGE (i)-[:STARTS_WITH]->(s)
            "

def nextLink : String := "
            MATCH (prev:AttackStep \x7bid: $prev_id\x7d), (curr:AttackStep \x7bid: $curr_id\x7d)
            MERGE (prev)-[:NEXT]->(curr)
            "

def malware : String := "
                MATCH (s:AttackStep \x7bid: $step_id\x7d)
                MERGE (m:Malware \x7bname: $val\x7d)
                MERGE (s)-[:USES_MALWARE]->(m)
                "

def vulnerability : String := "
                MATCH (s:AttackStep \x7bid: $step_id\x7d)
                MERGE (v:Vulnerability \x7bcve_id: $val\x7d)
                MERGE (s)-[:EXPLOITS]->(v)
                "

def indicator : String := "
                MATCH (s:AttackStep \x7bid: $step_id\x7d)
                MERGE (i:Indicator \x7burl: $val\x7d)
                ON CREATE SET i.type = 'URL', i.source = 'Generated Scenario'
                MERGE (s)-[:HAS_INDICATOR]->(i)
                "

end Queries

def coreParams (incident : Value) : Except Failure Fields := do
  let id ← incident.item "id"
  let title ← incident.item "title"
  let summary ← incident.getD "summary" (.text "")
  let timestamp ← incident.getD "timestamp" (.text "")
  let victim ← incident.item "victim"
  let organization ← victim.item "organization"
  let system ← victim.getD "system" (.text "")
  let industry ← victim.getD "industry" (.text "")
  let country ← victim.getD "country" (.text "Unknown")
  return [("id", id), ("title", title), ("summary", summary), ("timestamp", timestamp),
    ("victim_org", organization), ("victim_sys", system), ("victim_ind", industry),
    ("victim_country", country)]

/-- The steps by their numbers, equal ones in the given order. A step without a number counts as zero. -/
def sortSteps (steps : List Value) : Except Failure (List Value) := do
  Value.sortByKey (← steps.mapM fun s => do return (← s.getD "step" (.int 0), s))

def sortFlow (incident : Value) : Except Failure (Value × List Value) := do
  match ← incident.getD "attack_flow" (.list []) with
  | .list steps =>
    let sorted ← sortSteps steps
    match incident with
    | .record fs =>
      if Fields.has fs "attack_flow" then
        return (.record (Fields.set fs "attack_flow" (.list sorted)), sorted)
      else return (incident, sorted)
    | v => return (v, sorted)
  | v => .error (.noMember v.kind.word "sort")

def stepId (incidentId number : Value) : String :=
  s!"{incidentId.display}-step-{number.display}"

def stepParams (id : String) (step : Value) : Except Failure Fields := do
  let phase ← step.getD "phase" (.text "Unknown")
  let description ← step.getD "description" (.text "")
  let technique ← step.getD "technique" (.text "")
  let outcome ← step.getD "outcome" (.text "")
  let order ← step.get "step"
  return [("step_id", .text id), ("phase", phase), ("desc", description), ("tech_name", technique),
    ("outcome", outcome), ("order", order)]

/-- The query that links a step to what was used in it, if that is of a known type. Of a vulnerability
only the first word counts. -/
def artifactLink (related : Fields) : Except Failure (Option (String × Value)) := do
  let value := related.get "value"
  if !value.truthy || value == .text "None" then return none
  match related.get "type" with
  | .text "Malware" => return some (Queries.malware, value)
  | .text "Vulnerability" =>
    let words := Text.split ' ' (← value.asText "split")
    return some (Queries.vulnerability, .text (words.headD ""))
  | .text "Indicator" => return some (Queries.indicator, value)
  | _ => return none

/-- One step, linked to the incident when it is the first and else to the step before. -/
def planStep (incidentId : Value) (previous : Option String) (step : Value) :
    Plan (Option String) := do
  let id := stepId incidentId (← step.item "step")
  Plan.ask Queries.step (← stepParams id step)
  match previous with
  | none => Plan.ask Queries.firstLink [("inc_id", incidentId), ("step_id", .text id)]
  | some before => Plan.ask Queries.nextLink [("prev_id", .text before), ("curr_id", .text id)]
  match ← step.get "related_entity" with
  | .record related =>
    if let some (query, value) ← artifactLink related then
      Plan.ask query [("step_id", .text id), ("val", value)]
  | _ => pure ()
  return some id

/-- The queries that an incident takes, and the incident with its steps sorted. -/
def plan (incident : Value) : Plan Value := do
  Plan.ask Queries.core (← coreParams incident)
  let id ← incident.item "id"
  let actor ← (← incident.item "attribution").get "group_name"
  if actor.truthy && actor != .text "None" then
    Plan.ask Queries.attribution [("group_name", actor), ("id", id)]
  let (incident, steps) ← sortFlow incident
  let _ ← steps.foldlM (planStep id) none
  return incident

variable {σ : Type} [Outside σ]

def ingest (incident : Value) : Job σ Value := do
  let title ← incident.get "title"
  Job.say s!"[*] Processing Incident: {title.display}"
  (plan incident).run

def attempt (id incident : Value) : Job σ (List Value) :=
  Job.recover (do return [← ingest incident]) fun e => do
    Job.say s!"[!] Failed to ingest incident {id.display}: {e.message}"
    return []

/-- Brings in the incidents that are not known yet, and gives back those that went in. -/
def ingestNew (known : List Value) : List Value → Job σ (List Value)
  | [] => return []
  | incident :: rest => do
    let id ← idOf incident
    if known.any (· == id) then ingestNew known rest
    else
      let done ← attempt id incident
      return done ++ (← ingestNew known rest)

def extendLog (log : Value) (incidents : List Value) : Except Failure Value :=
  match log with
  | .list xs => .ok (.list (xs ++ incidents))
  | v => .error (.noMember v.kind.word "extend")

def readLog : Job σ Value := do
  if ← Job.fileExists logFile then Job.readJson logFile else return .list []

def stored (shown : String) : Job σ Value := do
  if ← Job.fileExists storeFile then Job.readJson storeFile
  else
    Job.say s!"[!] Generated file not found: {shown}"
    return .list []

def record (done : List Value) : Job σ Unit := do
  if done.isEmpty then
    Job.say "\n[*] All incidents are already up to date in Neo4j."
  else
    let log ← extendLog (← readLog) done
    Job.writeJson logFile 2 log
    Job.say s!"\n[+] Successfully ingested {done.length} new incidents into Neo4j."

def importFrom (shown : String) : Job σ Unit := do
  let incidents ← stored shown
  if !incidents.truthy then
    Job.say "[!] No generated incidents found."
    return
  let known ← idsOf (← readLog)
  record (← ingestNew known (← incidents.elements))

def importAll : Job σ Unit := do
  if !(← Job.fileExists logDirectory) then Job.makeDirectory logDirectory
  importFrom (← Job.shownPath storeFile)

def programDirectory : String := "scripts/etl"

/-- The import run as a program. Without its directory the log directory is not seen, and making it anew
fails when it is there. -/
def importProgram : Job σ Unit := do
  if !(← get).files.isDirectory programDirectory then
    if ← Job.fileExists programDirectory then
      throw (.notDirectory (← Job.shownPath s!"{programDirectory}/.."))
    Job.makeDirectory programDirectory
    if ← Job.fileExists logDirectory then
      throw (.fileExists (← Job.shownPath s!"{programDirectory}/../../{logDirectory}"))
  if !(← Job.fileExists logDirectory) then Job.makeDirectory logDirectory
  importFrom (← Job.shownPath s!"{programDirectory}/../../{storeFile}")

end ThreatAtlas.Incident
