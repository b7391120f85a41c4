import ThreatAtlas.Text.Basic

/-!
# Queries of the correlation

For each clue the graph is searched for nodes equal to it, for nodes that contain it, through a text
index when there is one, and for groups and incidents near nodes that contain it.
-/

namespace ThreatAtlas.Correlation

def searchedProperties : List String :=
  ["name", "url", "cve_id", "value", "indicator", "title", "description", "hash", "ip", "domain"]

def searchable (node : String) : String :=
  " + ' ' + ".intercalate
    (searchedProperties.map fun p => s!"coalesce(properties(" ++ node ++ ")['" ++ p ++ "'], '')")

/-- A text as it stands between single quotes in a query. -/
def quotable (s : String) : String :=
  Text.replace "'" "\\'" s

def textIndexes : String := "SHOW FULLTEXT INDEXES"

def equalNodes (clue : String) : String :=
  "
            MATCH (candidate)
            WHERE toLower(" ++ searchable "candidate" ++ ") = toLower('" ++ clue ++ "')
            RETURN coalesce(candidate.name, candidate.cve_id, candidate.url, candidate.value, candidate.title) AS label, 
                   labels(candidate)[0] AS type, 0 AS dist,
                   [\x7bname: coalesce(candidate.name, candidate.cve_id, candidate.url, candidate.value, candidate.title), labels: labels(candidate)\x7d] AS path_nodes
            LIMIT 100
        "

def containingNodes (clue : String) : String :=
  "
            MATCH (candidate)
            WHERE toLower(" ++ searchable "candidate" ++ ") CONTAINS toLower('" ++ clue ++ "')
            RETURN coalesce(candidate.name, candidate.cve_id, candidate.url, candidate.value, candidate.title) AS label, 
                   labels(candidate)[0] AS type, 1 AS dist,
                   [\x7bname: coalesce(candidate.name, candidate.cve_id, candidate.url, candidate.value, candidate.title), labels: labels(candidate)\x7d] AS path_nodes
            LIMIT 100
        "

def indexedNodes (index clue : String) : String :=
  "CALL db.index.fulltext.queryNodes('" ++ index ++ "', '" ++ clue ++ "~') YIELD node, score RETURN coalesce(node.name,node.cve_id,node.url,node.value) AS label, (CASE WHEN 'ThreatGroup' IN labels(node) THEN 'ThreatGroup' ELSE head(labels(node)) END) AS type, 1 AS dist, [\x7bname: coalesce(node.name,node.cve_id,node.url,node.value), labels: labels(node)\x7d] AS path_nodes, score AS raw_score LIMIT 200"

def passableLabels (withIncidents : Bool) : String :=
  let labels := "+(ThreatGroup|Campaign|Actor|Incident|Malware|Indicator|Vulnerability|AttackTechnique|Tool|Identity|AttackStep)"
  if withIncidents then labels
  else Text.replace "|AttackStep" "" (Text.replace "|Incident" "" labels)

def followedRelations : String :=
  "USES|INDICATES|RELATED_TO|CONNECTED|RELATED|ASSOCIATED_WITH|USES_MALWARE|EXPLOITS|HAS_INDICATOR|ATTRIBUTED_TO|TARGETS|STARTS_WITH|NEXT|ALIASED_AS"

/-- Goes at most `reach` steps from a seed, to groups and incidents. -/
def expansion (reach : String) (withIncidents : Bool) : String :=
  "
            CALL apoc.path.expandConfig(seed, \x7b
                relationshipFilter: '" ++ followedRelations ++ "', 
                labelFilter: '" ++ passableLabels withIncidents ++ "', 
                minLevel: 1,
                maxLevel: " ++ reach ++ ", 
                bfs: true,
                limit: 200
            \x7d) YIELD path
            WITH last(nodes(path)) AS candidate, path, length(path) AS dist
            WHERE candidate:ThreatGroup OR candidate:Incident
            RETURN coalesce(candidate.name, candidate.title, candidate.cve_id, candidate.url, candidate.value) AS label, 
                   (CASE WHEN 'ThreatGroup' IN labels(candidate) THEN 'ThreatGroup' 
                         WHEN 'Incident' IN labels(candidate) THEN 'Incident'
                         ELSE head(labels(candidate)) END) AS type, 
                   dist AS dist,
                   [n IN nodes(path) | \x7bname: coalesce(n.name, n.title, n.cve_id, n.url, n.value), labels: labels(n)\x7d] AS path_nodes
            LIMIT 100
        "

def nearbyGroups (clue reach : String) (withIncidents : Bool) : String :=
  "
            MATCH (seed)
            WHERE toLower(" ++ searchable "seed" ++ ") CONTAINS toLower('" ++ clue ++
    ("')" ++ expansion reach withIncidents)

def groupsOfIncident : String := "
                MATCH (i:Incident) 
                WHERE toLower(i.title) = toLower($val) OR toLower(i.name) = toLower($val) 
                MATCH (i)-[:ATTRIBUTED_TO|ALIASED_AS*0..1]-(canonical)
                OPTIONAL MATCH (canonical)-[:ALIASED_AS*0..1]-(tg:ThreatGroup)
                RETURN DISTINCT tg.name as tgname
            "

def groupsOfNode : String := "
            MATCH (n)
            WHERE toLower(n.name) = toLower($val) OR toLower(n.value) = toLower($val) 
               OR toLower(n.url) = toLower($val) OR toLower(n.cve_id) = toLower($val) 
               OR toLower(n.title) = toLower($val)
            WITH n LIMIT 5
            
            // n 자체이거나 n의 별칭인 모든 관련 노드 확장
            OPTIONAL MATCH (n)-[:ALIASED_AS*0..1]-(rel_node)
            WITH distinct rel_node
            
            OPTIONAL MATCH (rel_node)-[:ATTRIBUTED_TO|INDICATES|RELATED_TO|USES|ALIASED_AS*1..2]-(tg1:ThreatGroup)
            OPTIONAL MATCH (rel_node)-[:STARTS_WITH|NEXT|HAS_INDICATOR|USES_MALWARE|EXPLOITS|ALIASED_AS*1..3]-(i:Incident)
            OPTIONAL MATCH (i)-[:ATTRIBUTED_TO|ALIASED_AS*0..1]-(tg2:ThreatGroup)
            
            WITH collect(distinct tg1.name) + collect(distinct tg2.name) AS tgs
            UNWIND tgs AS tgname
            RETURN DISTINCT tgname LIMIT 15
        "

def canonicalGroup : String := "
                MATCH (tg:ThreatGroup \x7bname: $val\x7d)
                OPTIONAL MATCH (tg)-[:ALIASED_AS*1..1]-(canonical:ThreatGroup)
                RETURN DISTINCT coalesce(canonical.name, tg.name) as name LIMIT 1
            "

def groupAliases : String := "
                    MATCH (tg:ThreatGroup \x7bname: $val\x7d)
                    OPTIONAL MATCH (tg)-[:ALIASED_AS]-(a)
                    RETURN collect(distinct a.name) as aliases
                "

/-- Characters with a meaning in the language of text indexes. -/
def indexSpecials : List Char :=
  "+-&|!()\x7b\x7d[]^\"~*?:<>/".toList

/-- Puts a backslash before every special character, one kind after the other. -/
def escapeForIndex (s : String) : String :=
  indexSpecials.foldl (fun s c => Text.replace (String.singleton c) (String.ofList ['\\', c]) s) s

end ThreatAtlas.Correlation
