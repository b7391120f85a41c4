import ThreatAtlas.Draft.Basic
import ThreatAtlas.Indicator.Extract

/-!
# Refining drafts

Indicators found by their form complete what a model drafted. Of entities with one cleaned name one
is kept, addresses with ports are split, and entities that nothing points to are tied to the
incident.
-/

namespace ThreatAtlas.Draft

def excludedHosts : List String :=
  ["ahnlab", "security", "korea"]

def indicators (text : String) : List DraftEntity :=
  let of (label : DraftLabel) (what : String) (names : List String) : List DraftEntity :=
    names.map fun name => { name, label, reasoning := s!"Regex Extracted {what}" }
  of .vulnerability "CVE" (Indicator.vulnerability.findAll text) ++
  of .indicator "IP" ((Indicator.address.findAll text).filter (!Indicator.startsWithYear ·)) ++
  of .indicator "MD5" ((Indicator.hexWord 32).findAll text) ++
  of .indicator "URL" (Indicator.link.findAll text) ++
  of .indicator "Domain"
    ((Indicator.looseHost.findAll text).filter (!Indicator.namesAny excludedHosts ·))

/-- An indicator that is an address with ports becomes the address and one socket for each port. -/
def splitPorts (e : DraftEntity) : List DraftEntity :=
  match e.label, Indicator.splitPorts? e.name with
  | .indicator, some (address, ports) =>
    { name := address, label := .indicator, reasoning := "Extracted IP" } ::
      (Text.split ',' ports).map fun port =>
        { name := s!"{address}:{Text.strip port}", label := .indicator
          reasoning := "Extracted Socket" }
  | _, _ => [e]

def isFound (e : DraftEntity) : Bool :=
  Text.contains "Regex" e.reasoning

/-- A name with its brackets taken away and its scheme made whole. A scheme that is whole is written
anew, too. -/
def cleanName (s : String) : String :=
  Text.replace "hxxp" "http" (Text.replace "http" "http"
    (Text.replace "[:]" ":" (Text.replace "(.)" "." (Text.replace "[.]" "." s))))

/-- Puts an entity under its cleaned name: one drafted by a model takes the place of the one that is
there, one found by its form does not. -/
def keep (kept : List DraftEntity) (e : DraftEntity) : List DraftEntity :=
  let name := cleanName e.name
  let e' := { e with name }
  if kept.any (·.name == name) then
    if isFound e then kept else kept.map fun k => if k.name == name then e' else k
  else kept ++ [e']

def mainIncident (entities : List DraftEntity) : String :=
  match entities.find? (·.label == .incident) with
  | some e => e.name
  | none => "Detected Incident"

/-- The relationship that ties a lone indicator or malware to the incident. -/
def tie? (incident : String) (targets : List String) (e : DraftEntity) : Option Relationship :=
  if targets.contains e.name then none
  else
    match e.label with
    | .indicator => some ⟨incident, e.name, "HAS_INDICATOR"⟩
    | .malware => some ⟨incident, e.name, "USES_MALWARE"⟩
    | _ => none

def refine (d : Draft) (found : List DraftEntity) : Draft :=
  let kept := (d.entities ++ found).foldl keep []
  let entities := kept.flatMap splitPorts
  let targets := d.relationships.map Relationship.target
  { entities
    relationships := d.relationships ++ entities.filterMap (tie? (mainIncident entities) targets) }

end ThreatAtlas.Draft
