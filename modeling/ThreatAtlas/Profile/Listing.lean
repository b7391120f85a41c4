import ThreatAtlas.Job

/-!
# Lists to choose from

The entities of a kind, the newest or the best match first. A choice from the list can itself be the
search text; of an incident's label only the title is searched for.
-/

namespace ThreatAtlas.Profile

inductive Subject where
  | incident
  | threatGroup
  | malware
  | vulnerability
deriving Repr, DecidableEq

namespace Subject

def ofName? : Value → Option Subject
  | .text "Incident" => some .incident
  | .text "Threat Group" => some .threatGroup
  | .text "Malware" => some .malware
  | .text "Vulnerability" => some .vulnerability
  | _ => none

def listing : Subject → String
  | .incident => "MATCH (n:Incident) OPTIONAL MATCH (n)-[:TARGETS]->(v:Identity) RETURN n.id as uri, '[' + substring(n.timestamp, 0, 10) + '] ' + n.title + ' (' + coalesce(v.name, 'Unknown') + ')' as label ORDER BY n.timestamp DESC LIMIT $limit"
  | .threatGroup => "MATCH (n:ThreatGroup) WHERE n.name IS NOT NULL RETURN n.mitre_id as uri, n.name as label ORDER BY n.name ASC LIMIT $limit"
  | .malware => "MATCH (n:Malware) RETURN n.name as uri, n.name as label ORDER BY n.name ASC LIMIT $limit"
  | .vulnerability => "MATCH (n:Vulnerability) RETURN n.cve_id as uri, n.cve_id + ' (' + coalesce(n.product, 'Unknown') + ')' as label ORDER BY n.date_added DESC LIMIT $limit"

def searching : Subject → String
  | .incident => "
            MATCH (n:Incident)
            WHERE toLower(n.title) CONTAINS $query OR toLower(n.summary) CONTAINS $query
            OPTIONAL MATCH (n)-[:TARGETS]->(v:Identity)
            WITH n, v,
                 CASE 
                   WHEN toLower(n.title) = $query THEN 100
                   WHEN toLower(n.title) CONTAINS $query THEN 50
                   ELSE 20
                 END as score
            RETURN n.id as uri, 
                   '[' + substring(n.timestamp, 0, 10) + '] ' + n.title + ' (' + coalesce(v.name, 'Unknown') + ')' as label
            ORDER BY score DESC, n.timestamp DESC LIMIT $limit
            "
  | .threatGroup => "
            MATCH (n:ThreatGroup)
            OPTIONAL MATCH (n)-[:ALIASED_AS]-(a)
            WHERE toLower(n.name) CONTAINS $query 
               OR toLower(n.description) CONTAINS $query
               OR toLower(a.name) CONTAINS $query
            WITH n, collect(distinct a.name) as aliases
            WITH n, aliases,
                 CASE 
                   WHEN toLower(n.name) = $query THEN 100
                   WHEN any(al IN aliases WHERE toLower(al) = $query) THEN 95
                   WHEN toLower(n.name) CONTAINS $query THEN 50
                   WHEN any(al IN aliases WHERE toLower(al) CONTAINS $query) THEN 40
                   ELSE 10
                 END as score
            RETURN n.mitre_id as uri, 
                   n.name + CASE WHEN size(aliases) > 0 THEN ' (a.k.a ' + apoc.text.join(aliases, ', ') + ')' ELSE '' END as label
            ORDER BY score DESC, n.name ASC LIMIT $limit
            "
  | .malware => "
            MATCH (n:Malware)
            OPTIONAL MATCH (n)-[:ALIASED_AS]-(a)
            WHERE toLower(n.name) CONTAINS $query OR toLower(a.name) CONTAINS $query
            WITH n, collect(distinct a.name) as aliases
            WITH n, aliases,
                 CASE 
                   WHEN toLower(n.name) = $query THEN 100
                   WHEN any(al IN aliases WHERE toLower(al) = $query) THEN 95
                   WHEN toLower(n.name) CONTAINS $query THEN 50
                   WHEN any(al IN aliases WHERE toLower(al) CONTAINS $query) THEN 40
                   ELSE 10
                 END as score
            RETURN n.name as uri, n.name as label
            ORDER BY score DESC, n.name ASC LIMIT $limit
            "
  | .vulnerability => "
            MATCH (n:Vulnerability)
            WHERE toLower(n.cve_id) CONTAINS $query OR toLower(n.description) CONTAINS $query
            WITH n,
                 CASE 
                   WHEN toLower(n.cve_id) = $query THEN 100
                   WHEN toLower(n.cve_id) STARTS WITH $query THEN 50
                   ELSE 20
                 END as score
            RETURN n.cve_id as uri, n.cve_id + ' (' + coalesce(n.product, 'Unknown') + ')' as label
            ORDER BY score DESC, n.date_added DESC LIMIT $limit
            "

end Subject

/-- The title in a label of the form `[date] title (victim)`. -/
def titleIn (label : String) : String :=
  if Text.startsWith "[" label then
    match Text.cut? "]" label with
    | none => label
    | some (_, rest) =>
      match Text.cut? "(" rest with
      | some (title, _) => Text.strip title
      | none => Text.strip rest
  else label

def searchText (subject : Option Subject) (search : String) : String :=
  let lowered := Text.lower search
  if subject = some .incident then titleIn lowered else lowered

structure Choice where
  uri : Value
  label : Value

def Choice.ofRow (row : Row) : Choice :=
  ⟨row.get "uri", row.get "label"⟩

def Choice.toValue (c : Choice) : Value :=
  .record [("uri", c.uri), ("label", c.label), ("uri_short", c.uri)]

variable {σ : Type} [Outside σ]

def choices (kind limit search : Value) : Job σ (List Choice) := do
  let subject := Subject.ofName? kind
  let ask (query : String) (text : String) : Job σ (List Choice) := do
    return (← Job.ask query [("limit", limit), ("query", .text text)]).map Choice.ofRow
  if search.truthy then
    let text := searchText subject (← search.asText "lower")
    match subject with
    | some s => ask s.searching text
    | none => throw (.unset "q")
  else
    match subject with
    | some s => ask s.listing ""
    | none => return []

end ThreatAtlas.Profile
