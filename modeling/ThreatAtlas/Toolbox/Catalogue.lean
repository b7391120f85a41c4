import ThreatAtlas.Parameters
import ThreatAtlas.Toolbox.Paths

/-!
# The catalogue of tools

Every tool by the name under which a model calls it.
-/

namespace ThreatAtlas.Toolbox

inductive Tool where
  | inspectSchema
  | searchContext
  | incidentsWith
  | runQuery
  | listLabels
  | listProperties
  | sampleNodes
  | expandNeighbourhood
  | findExact
  | findFuzzy
  | entityHistory
  | ensureIndexes
  | searchIncidents
  | incidentDetails
  | findPaths
deriving Repr, DecidableEq

namespace Tool

def name : Tool → String
  | inspectSchema => "inspect_schema"
  | searchContext => "search_keyword_context"
  | incidentsWith => "explore_incident_correlations"
  | runQuery => "run_cypher"
  | listLabels => "list_labels"
  | listProperties => "list_properties"
  | sampleNodes => "sample_nodes_by_label"
  | expandNeighbourhood => "expand_neighborhood"
  | findExact => "find_entity_exact"
  | findFuzzy => "find_entity_fuzzy"
  | entityHistory => "entity_history"
  | ensureIndexes => "ensure_entity_indexes"
  | searchIncidents => "search_keyword_from_incidents"
  | incidentDetails => "get_details_of_incident"
  | findPaths => "find_paths"

def basic : List Tool :=
  [inspectSchema, searchContext, incidentsWith, runQuery]

def all : List Tool :=
  basic ++ [listLabels, listProperties, sampleNodes, expandNeighbourhood, findExact, findFuzzy,
    entityHistory, ensureIndexes, searchIncidents, incidentDetails, findPaths]

def ofName? (name : String) : Option Tool :=
  all.find? (·.name == name)

def parameters : Tool → List Parameter
  | inspectSchema | listLabels | ensureIndexes => []
  | searchContext | searchIncidents => ["keyword"]
  | incidentsWith | entityHistory => ["entity_name"]
  | runQuery => ["query"]
  | listProperties => [⟨"label", some .null⟩]
  | sampleNodes => ["label", ⟨"limit", some (.int 5)⟩]
  | expandNeighbourhood => ["seed", ⟨"hops", some (.int 2)⟩, ⟨"limit", some (.int 200)⟩]
  | findExact => ["value"]
  | findFuzzy => ["keyword", ⟨"limit", some (.int 50)⟩]
  | incidentDetails => ["title_keyword"]
  | findPaths => ["start", ⟨"end", some .null⟩, ⟨"max_len", some (.int 4)⟩,
      ⟨"max_paths", some (.int 20)⟩, ⟨"rel_filter", some .null⟩, ⟨"label_filter", some .null⟩,
      ⟨"strategy", some (.text "ranked")⟩, ⟨"debug", some (.bool true)⟩]

variable {σ : Type} [Outside σ]

def run (tool : Tool) (args : Fields) : Job σ String := do
  let args ← Parameter.bind tool.parameters args
  let arg (name : String) : Value := args.get name
  match tool with
  | inspectSchema => Toolbox.inspectSchema
  | searchContext => Toolbox.searchContext (arg "keyword")
  | incidentsWith => Toolbox.incidentsWith (arg "entity_name")
  | runQuery => Toolbox.runQuery (arg "query")
  | listLabels => Toolbox.listLabels
  | listProperties => Toolbox.listProperties (arg "label")
  | sampleNodes => Toolbox.sampleNodes (arg "label") (arg "limit")
  | expandNeighbourhood => Toolbox.expandNeighbourhood (arg "seed") (arg "hops") (arg "limit")
  | findExact => Toolbox.findExact (arg "value")
  | findFuzzy => Toolbox.findFuzzy (arg "keyword") (arg "limit")
  | entityHistory => Toolbox.entityHistory (arg "entity_name")
  | ensureIndexes => Toolbox.ensureIndexes
  | searchIncidents => Toolbox.searchIncidents (arg "keyword")
  | incidentDetails => Toolbox.incidentDetails (arg "title_keyword")
  | findPaths =>
    let request : PathRequest :=
      { start := arg "start", finish := arg "end", maxLength := arg "max_len"
        maxPaths := arg "max_paths", relationFilter := arg "rel_filter"
        labelFilter := arg "label_filter", strategy := arg "strategy", debug := arg "debug" }
    Toolbox.findPaths request

end Tool

end ThreatAtlas.Toolbox
