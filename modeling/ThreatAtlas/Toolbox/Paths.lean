import ThreatAtlas.Toolbox.Search

/-!
# Paths through the graph

Paths from a start to an end, or around the start, ranked by a score: the shorter a path and the more
incidents it meets, the higher.
-/

namespace ThreatAtlas.Toolbox

structure PathRequest where
  start : Value
  finish : Value := .null
  maxLength : Value := .int 4
  maxPaths : Value := .int 20
  relationFilter : Value := .null
  labelFilter : Value := .null
  strategy : Value := .text "ranked"
  debug : Value := .bool true

def PathRequest.whenDebug (r : PathRequest) (fields : Fields) : Fields :=
  if r.debug.truthy then fields else []

structure PathStop where
  labels : Value
  shown : Value
  properties : Value

structure PathRecord where
  stops : List PathStop
  relations : Value
  length : Nat
  incidents : Nat

namespace PathRecord

/-- The score in thousandths. `1 / length` and its sum with a half per incident are binary fractions,
and only then the sum is rounded. -/
def score (length incidents : Nat) : Nat :=
  let (m, e) := if length == 0 then (0, 0) else Number.nearest 1 length
  let (num, den) := Number.fraction m e
  let (m, e) := Number.nearest (2 * num + incidents * den) (2 * den)
  Number.units 3 m e

def toValue (p : PathRecord) : Value :=
  .record [
    ("nodes", .list (p.stops.map fun s =>
      .record [("labels", s.labels), ("display", s.shown), ("props", s.properties)])),
    ("rels", p.relations),
    ("length", .int p.length),
    ("incident_count", .int p.incidents),
    ("score", .real (Number.ofDecimal false (score p.length p.incidents) (-3)))]

/-- Higher scores first, then shorter paths. -/
def before (p q : PathRecord) : Bool :=
  let a := score p.length p.incidents
  let b := score q.length q.incidents
  b < a || (a == b && p.length ≤ q.length)

end PathRecord

def shownProperty (properties : Value) : Except Failure Value :=
  let rec go : List String → Except Failure Value
    | [] => .ok .null
    | name :: rest => do
      if ← properties.holds name then properties.get name else go rest
  if properties.truthy then go ["title", "name", "original_value", "cve_id"] else .ok .null

def speaksOfIncident (label : Value) : Except Failure Bool := do
  if label.truthy then
    let s := Text.lower (← label.asText "lower")
    return Text.contains "incident" s || Text.contains "intelligence" s
  else return false

def someIncident : List Value → Except Failure Bool
  | [] => .ok false
  | l :: rest => do if ← speaksOfIncident l then return true else someIncident rest

def pathStop (node : Value) : Except Failure (PathStop × Bool) := do
  let (labels, properties) := match node with
    | .record fs => (Fields.get fs "labels", Fields.get fs "props")
    | _ => (.list [], .record [])
  let names ← if labels.truthy then labels.elements else .ok []
  let shown ← shownProperty properties
  return (⟨labels, shown, properties⟩, ← someIncident names)

def pathParts (row : Row) : Except Failure (Value × Value) := do
  match row.lookup "nodes", row.lookup "entry" with
  | some nodes, _ => .ok (nodes.orElse (.list []), (row.get "rels").orElse (.list []))
  | none, some entry =>
    if entry.truthy then
      .ok (.list [← entry.get "neighbor"], .list [← entry.get "rel"])
    else .ok (.list [], .list [])
  | none, none => .ok (.list [], .list [])

def pathRecord (row : Row) : Except Failure PathRecord := do
  let (nodes, relations) ← pathParts row
  let length ←
    if nodes.truthy then nodes.length
    else if relations.truthy then relations.length
    else .ok 0
  let stops ← (← nodes.elements).mapM pathStop
  return {
    stops := stops.map (·.1)
    relations
    length
    incidents := (stops.filter (·.2)).length }

def rankPaths (rows : List Row) : Except Failure (List PathRecord) := do
  return (← rows.mapM pathRecord).mergeSort PathRecord.before

/-- The two limits: at most six steps and two hundred paths; what is no number leaves both as they are
usually. -/
def pathLimits (maxLength maxPaths : Value) : Int × Int :=
  match maxLength.toInt, maxPaths.toInt with
  | .ok n, .ok k => (min n 6, min k 200)
  | _, _ => (4, 20)

def filterOf (v : Value) : Except Failure Value := do
  if v.truthy then
    return if (Text.strip (← v.asText "strip")).isEmpty then .null else v
  else return .null

def noPaths (message : String) : Fields :=
  [("match_type", .text "error"), ("paths_returned", .int 0), ("results", .list []),
    ("message", .text message)]

variable {σ : Type} [Outside σ]

/-- The question for the paths of a request; or, where an end of them is not found, the answer that is
given without it. -/
def pathQuestion (r : PathRequest) : Job σ (Except String Query) := do
  let (maxLength, maxPaths) := pathLimits r.maxLength r.maxPaths
  let relationFilter ← filterOf r.relationFilter
  let labelFilter ← filterOf r.labelFilter
  let params : Fields :=
    [("start", r.start), ("end", r.finish), ("max_len", .int maxLength), ("max_paths", .int maxPaths),
      ("rel_filter", relationFilter), ("label_filter", labelFilter)]
  let procedures ← hasProcedures
  let starts ← Job.ask Queries.resolve [("val", r.start)]
  if starts.isEmpty then
    return .error (cutJson 4000 (.record (noPaths "Start node not found" ++ r.whenDebug
      [("debug_resolve_start_q", .text Queries.resolve), ("params", .record params)])))
  let ends ← if r.finish.truthy then Job.ask Queries.resolve [("val", r.finish)] else pure []
  if r.finish.truthy && ends.isEmpty then
    return .error (cutJson 4000 (.record (noPaths "End node not found" ++ r.whenDebug
      [("debug_resolve_end_q", .text Queries.resolve), ("params", .record params),
        ("start_nodes_sample", rowsValue (starts.take 5))])))
  let ids (rows : List Row) : Value := .list (rows.map (·.get "nid"))
  let params := params ++ [("start_ids", ids starts)] ++
    if r.finish.truthy then [("end_ids", ids ends)] else []
  return .ok ⟨Queries.paths r.finish.truthy procedures, params⟩

/-- Asks for paths; when the connection is lost, once more without procedures for properties. Gives the
rows and the query that brought them, or why there are none. -/
def askPaths (query : String) (params : Fields) : Job σ (Except String (List Row × String)) :=
  Job.recover (do return .ok (← Job.ask query params, query)) fun _ =>
    let plain := Queries.withPlainProperties query
    Job.recover (do return .ok (← Job.ask plain params, plain)) fun e => return .error e.message

def pathReport (r : PathRequest) (q : Query) :
    Except String (List Row × String) → Except Failure String
  | .error why =>
    .ok (cutJson 4000 (.record (noPaths s!"Path query failed: {why}" ++ r.whenDebug
      [("cypher", .text q.text), ("params", .record q.params)])))
  | .ok (rows, query) => do
    let paths ← rankPaths rows
    return cutJson 8000 (.record
      ([("match_type", if r.finish.truthy then r.strategy else .text "neighborhood"),
        ("paths_returned", .int paths.length),
        ("results", .list (paths.map PathRecord.toValue))] ++ r.whenDebug
        [("cypher", .text query), ("params", .record q.params)]))

def findPaths (r : PathRequest) : Job σ String := do
  match ← pathQuestion r with
  | .error answer => return answer
  | .ok q => pathReport r q (← askPaths q.text q.params)

end ThreatAtlas.Toolbox
