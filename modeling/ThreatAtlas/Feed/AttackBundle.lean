import ThreatAtlas.Csv
import ThreatAtlas.Digest
import ThreatAtlas.Job

/-!
# The feed of attack techniques

A bundle of typed objects becomes a table of nodes and a table of links between them. Objects of six
types become nodes; retired ones are left out. An alias of a node links it to the node of that name, or
to a node made for the alias. A relationship becomes a link when both its ends are nodes.
-/

namespace ThreatAtlas.Feed.AttackBundle

def source : String := "data/raw/mitre_enterprise_attack.json"

def targetDirectory : String := "data/processed"

def nodeTarget : String := "data/processed/mitre_nodes.csv"

def linkTarget : String := "data/processed/mitre_rels.csv"

structure Node where
  id : Value
  label : String
  name : String
  attackId : Value
  description : String

structure Link where
  source : Value
  target : Value
  type : String

structure Tables where
  nodes : List Node := []
  links : List Link := []
  /-- Node ids by name in lower case; the last one set counts. -/
  idByName : List (String × Value) := []

namespace Tables

def addNode (t : Tables) (n : Node) : Tables :=
  { t with nodes := t.nodes ++ [n] }

def addLink (t : Tables) (l : Link) : Tables :=
  { t with links := t.links ++ [l] }

def hasId (t : Tables) (id : Value) : Except Failure Bool := do
  let id ← id.hashable
  return t.nodes.any (·.id == id)

end Tables

def label? (type : Value) : Except Failure (Option String) := do
  match ← type.hashable with
  | .text "attack-pattern" => return some "AttackTechnique"
  | .text "intrusion-set" => return some "ThreatGroup"
  | .text "malware" => return some "Malware"
  | .text "tool" => return some "Tool"
  | .text "course-of-action" => return some "Mitigation"
  | .text "x-mitre-tactic" => return some "AttackTactic"
  | _ => return none

def isRetired (object : Value) : Except Failure Bool := do
  return (← object.get "revoked").truthy || (← object.get "x_mitre_deprecated").truthy

def attackIdIn : List Value → Except Failure Value
  | [] => .ok (.text "")
  | reference :: rest => do
    match ← reference.get "source_name" with
    | .text "mitre-attack" => reference.get "external_id"
    | .text "mitre-mobile-attack" => reference.get "external_id"
    | .text "mitre-ics-attack" => reference.get "external_id"
    | _ => attackIdIn rest

def attackId (object : Value) : Except Failure Value := do
  attackIdIn (← (← object.getD "external_references" (.list [])).elements)

/-- On one line, and without double quotes. -/
def plainText (v : Value) : Except Failure String := do
  if v.truthy then
    let s ← v.asText "replace"
    return String.ofList (s.toList.filterMap fun c =>
      if c == '\n' then some ' '
      else if c == '\r' then none
      else if c == '"' then some '\''
      else some c)
  else return ""

def nodeOf (object type : Value) (label : String) : Except Failure Node := do
  let id ← object.get "id"
  let name ← (← object.getD "name" (.text "Unknown")).asText "lower"
  let description ← plainText (← object.getD "description" (.text ""))
  let found ← attackId object
  let attackId ←
    if type == .text "x-mitre-tactic" && !found.truthy then object.getD "x_mitre_shortname" (.text "")
    else .ok found
  let id ← id.hashable
  return { id, label, name, attackId, description := Text.take 1000 description }

def addMain (t : Tables) (object : Value) : Except Failure Tables := do
  let type ← object.get "type"
  if ← isRetired object then return t
  match ← label? type with
  | none => return t
  | some label =>
    let n ← nodeOf object type label
    return { t.addNode n with idByName := (Text.lower n.name, n.id) :: t.idByName }

def aliasId (name : String) : Value :=
  .text ("alias--" ++ Digest.hex name)

/-- Links an object to the node of one of its aliases, which is made if there is none. -/
def addAlias (object : Value) (t : Tables) (name : String) : Except Failure Tables := do
  let own ← object.getD "name" (.text "Unknown")
  if Text.lower name == Text.lower (← own.asText "lower") then return t
  let (target, t) ← match t.idByName.lookup (Text.lower name) with
    | some id => .ok (id, t)
    | none => do
      let id := aliasId name
      if ← t.hasId id then .ok (id, t)
      else
        let label := (← label? (← object.get "type")).getD "BaseNode"
        .ok (id, t.addNode
          { id, label, name, attackId := .text "Alias", description := s!"Alias for '{own.display}'" })
  let id ← object.get "id"
  if (← t.hasId id) && (← t.hasId target) then
    return t.addLink ⟨id, target, "ALIASED_AS"⟩
  else return t

def addAliases (t : Tables) (object : Value) : Except Failure Tables := do
  if ← isRetired object then return t
  let aliases ← object.getD "aliases" (.list [])
  let aliases ← if aliases.truthy then .ok aliases else object.getD "x_mitre_aliases" (.list [])
  if !aliases.truthy then return t
  (← aliases.elements).foldlM (fun t name => do addAlias object t (← name.asText "lower")) t

def addRelationship (t : Tables) (object : Value) : Except Failure Tables := do
  if (← object.get "type") != .text "relationship" then return t
  let source ← object.get "source_ref"
  let target ← object.get "target_ref"
  if !(← t.hasId source) then return t
  if !(← t.hasId target) then return t
  let type ← (← object.get "relationship_type").asText "upper"
  return t.addLink ⟨source, target, Text.replace "-" "_" (Text.upper type)⟩

def mainNodes (objects : List Value) : Except Failure Tables :=
  objects.foldlM addMain {}

def withAliases (objects : List Value) (t : Tables) : Except Failure Tables :=
  objects.foldlM addAliases t

def withRelationships (objects : List Value) (t : Tables) : Except Failure Tables :=
  objects.foldlM addRelationship t

def tablesOf (objects : List Value) : Except Failure Tables := do
  withRelationships objects (← withAliases objects (← mainNodes objects))

def nodeRecords (t : Tables) : List Csv.Record :=
  ["stix_id", "label", "name", "mitre_id", "description"] ::
    t.nodes.map fun n => [Csv.cell n.id, n.label, n.name, Csv.cell n.attackId, n.description]

def linkRecords (t : Tables) : List Csv.Record :=
  ["source_id", "target_id", "type"] ::
    t.links.map fun l => [Csv.cell l.source, Csv.cell l.target, l.type]

variable {σ : Type}

def load : Job σ (List Value) := do
  if !(← Job.fileExists source) then
    Job.say s!"[Error] Input file not found: {← Job.shownPath source}"
    Job.say "Run 'bash scripts/setup/download_data.sh' first."
    throw (.exit 1)
  Job.say s!"[*] Loading MITRE ATT&CK data from: {← Job.shownPath source}"
  let bundle ← Job.readJson source
  let objects ← bundle.getD "objects" (.list [])
  Job.say "[*] Phase 1: Parsing Main Nodes..."
  objects.elements

def store (t : Tables) : Job σ Unit := do
  Job.makeDirectory targetDirectory
  Job.say s!"[*] Saving {t.nodes.length} nodes to {← Job.shownPath nodeTarget}"
  Job.writeText nodeTarget (Csv.write (nodeRecords t))
  Job.say s!"[*] Saving {t.links.length} relationships to {← Job.shownPath linkTarget}"
  Job.writeText linkTarget (Csv.write (linkRecords t))
  Job.say "[+] MITRE ETL Completed Successfully."

def process : Job σ Unit := do
  let objects ← load
  let t ← mainNodes objects
  Job.say "[*] Phase 2: Processing Aliases..."
  let t ← withAliases objects t
  Job.say "[*] Phase 3: Parsing Relationships..."
  store (← withRelationships objects t)

end ThreatAtlas.Feed.AttackBundle
