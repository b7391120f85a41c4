import ThreatAtlas.Explorer
import ThreatAtlas.Value.Sort

/-!
# Drawing what the graph answers

Incidents with their flow, neighbours and paths are drawn on a canvas row by row. A row that lacks
something ends the drawing there.
-/

namespace ThreatAtlas.Drawing

def kindOf (labels : Value) : Except Failure String := do
  if ← labels.holds "Incident" then return "Incident"
  if ← labels.holds "Identity" then return "Victim"
  if ← labels.holds "ThreatGroup" then return "Actor"
  if ← labels.holds "Malware" then return "Malware"
  if ← labels.holds "Vulnerability" then return "Vulnerability"
  if ← labels.holds "Indicator" then return "Indicator"
  return "Step"

/-- The first of these properties that is truthy; the last one as it is, or `missing`. -/
def firstOf (properties : Value) (names : List String) (last : String) (missing : Value := .null) :
    Except Failure Value := do
  let fs ← properties.fields "get"
  match names.find? fun name => (fs.get name).truthy with
  | some name => return fs.get name
  | none => return (fs.lookup last).getD missing

def withoutSlashes (label : String) : String :=
  Text.replace "/" "_" (Text.replace "://" "_" label)

def remarks (properties : Value) (names : List String) : Except Failure String := do
  let fs ← properties.fields "get"
  return "".intercalate (names.filterMap fun name =>
    (fs.lookup name).map fun v => "\n" ++ v.display)

def idIn (properties : Value) : Except Failure Value :=
  firstOf properties ["id", "name", "cve_id"] "url"

def stored (properties labels id : Value) : Drawing Value := do
  let id ← if id.truthy then pure id else firstOf properties ["id", "name"] "url"
  let name ← firstOf properties ["name", "title", "cve_id"] "url" (.text "Unknown")
  let label ← Explorer.shortLabel (.text name.display) (.int 15)
  let kind ← kindOf labels
  let more ← remarks properties ["summary", "description"]
  let _ ← node id (.text (withoutSlashes label.display)) (.text kind)
    (.text (s!"[{kind}] {name.display}" ++ more))
  return id

structure Event where
  id : Value
  order : Value
  phase : Value
  description : Value
  outcome : Value
  artifacts : List String := []

def Event.toValue (e : Event) : Value :=
  .record [("order", e.order), ("phase", e.phase), ("desc", e.description), ("outcome", e.outcome),
    ("artifacts", .texts e.artifacts)]

def header (id : Value) (row : Row) : Drawing Unit := do
  let title ← row.item "title"
  let _ ← node id (← Explorer.shortLabel title (.int 12)) "Incident" (.text s!"[Incident] {title.display}")
  let victimId := row.get "victim_id"
  if victimId.truthy then
    let victim ← row.item "victim"
    let _ ← node victimId (← Explorer.shortLabel victim (.int 15)) "Victim"
      (.text s!"[Victim] {victim.display}")
    let _ ← edge id victimId "TARGETS"
  let actorId := row.get "actor_id"
  if actorId.truthy then
    let actor ← row.item "actor"
    let _ ← node actorId actor "Actor" (.text s!"[Actor] {actor.display}")
    let _ ← edge id actorId "ATTRIBUTED_TO"

def artifactLine (properties labels : Value) : Except Failure String := do
  let value ← firstOf properties ["name", "cve_id"] "url"
  let kind ← if ← labels.holds "Malware" then pure "Malware"
    else if ← labels.holds "Vulnerability" then pure "Vulnerability"
    else pure "Indicator"
  return s!"[{kind}] {value.display}"

def addArtifact (step : Value) (line : String) (events : List Event) : List Event :=
  events.map fun e => if e.id == step then { e with artifacts := e.artifacts ++ [line] } else e

def artifact (follow : Bool) (step : Value) (row : Row) (events : List Event) :
    Drawing (List Event) := do
  let id ← row.item "art_id"
  if !id.truthy then return events
  let properties ← row.item "props"
  let labels ← row.item "labels"
  let _ ← properties.fields "get"
  let events ← if follow then
      pure (addArtifact step (← artifactLine properties labels) events)
    else pure events
  let drawn ← stored properties labels id
  let _ ← edge step drawn (← row.item "rel")
  return events

/-- One row of a flow: the step comes after `previous`, and then its artifact. -/
def flowRow (follow : Bool) (previous : Value) (row : Row) (events : List Event) :
    Drawing (Value × List Event) := do
  let id ← row.item "step_id"
  let order ← row.item "order"
  let phase ← row.item "phase"
  let outcome ← row.item "outcome"
  let description ← row.item "desc"
  let color := if outcome == .text "Success" then succeeded else failed
  let _ ← node id (.text s!"#{order.display} {phase.display}") "Step"
    (.text s!"{phase.display}: {description.display}") (.text color)
  let _ ← edge previous id (if order == .int 1 then "STARTS_WITH" else "NEXT")
  let events := if !follow || events.any (·.id == id) then events
    else events ++ [{ id := id, order, phase, description, outcome }]
  return (id, ← artifact follow id row events)

def flowRows (follow : Bool) : List Row → Value → List Event → Drawing (List Event)
  | [], _, events => return events
  | row :: rows, previous, events => do
    let (step, events) ← flowRow follow previous row events
    flowRows follow rows step events

/-- Draws an incident and its flow. With `follow`, gives the events of its timeline in order. -/
def incident (follow : Bool) (id : Value) (i : Explorer.Incident) : Drawing (List Event) := do
  header id i.header
  let events ← flowRows follow i.flow id []
  Value.sortByKey (events.map fun e => (e.order, e))

def incidentRelations : List String := ["ATTRIBUTED_TO", "USED_IN", "EXPLOITED_IN", "SEEN_IN"]

def neighbour (id : Value) (row : Row) : Drawing Bool := do
  let other ← row.item "res_id"
  let label ← row.item "res_label"
  let kind ← row.item "type"
  let relation ← row.item "rel"
  let new ← node other (← Explorer.shortLabel label (.int 12)) kind label
  let inward := incidentRelations.any (relation == .text ·) && kind == .text "Incident"
  let _ ← if inward then edge other id relation else edge id other relation
  return new

def neighbours (id : Value) : List Row → Drawing Nat
  | [] => return 0
  | row :: rows => do
    let new ← neighbour id row
    return (if new then 1 else 0) + (← neighbours id rows)

def pathNodes : List Value → Drawing Unit
  | [] => return
  | n :: ns => do
    let properties ← n.item "props"
    let labels ← n.item "labels"
    let _ ← stored properties labels (← n.item "id")
    pathNodes ns

def pathEdges : List Value → Drawing Unit
  | [] => return
  | r :: rs => do
    let source ← r.item "s_id"
    let target ← r.item "e_id"
    let _ ← edge source target (← r.item "type")
    pathEdges rs

def path : List Row → Drawing Nat
  | [] => return 0
  | row :: _ => do
    let nodes := row.get "core_nodes"
    if !nodes.truthy then return 0
    let relations ← row.item "core_rels"
    pathNodes (← nodes.elements)
    pathEdges (← relations.elements)
    return 1

end ThreatAtlas.Drawing
