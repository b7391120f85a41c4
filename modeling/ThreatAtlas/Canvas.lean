import ThreatAtlas.Value.Access

/-!
# The canvas of a graph

A canvas holds the nodes and edges drawn so far. A node is drawn once for each id and an edge once for
each name. Drawing may fail half-way; what was drawn before stays.

A canvas may be set up with values in the place of its parts. Lists of nodes and edges are then drawn
on, but a value is never taken for a set of ids or names.
-/

namespace ThreatAtlas

structure GraphNode where
  id : Value
  label : Value
  title : Option Value := none
  shape : String
  color : Value
  size : Int
  font : Option Fields := none

def GraphNode.toValue (n : GraphNode) : Value :=
  .record ([("id", n.id), ("label", n.label)] ++ (n.title.map (("title", ·))).toList ++
    [("shape", .text n.shape), ("color", n.color), ("size", .int n.size)] ++
    (n.font.map fun f => ("font", Value.record f)).toList)

structure GraphEdge where
  source : Value
  target : Value
  label : Value

def GraphEdge.name (e : GraphEdge) : String :=
  s!"{e.source.display}-{e.label.display}-{e.target.display}"

def GraphEdge.toValue (e : GraphEdge) : Value :=
  .record [("source", e.source), ("target", e.target), ("label", e.label)]

/-- The values a canvas was set up with in the place of its parts. -/
structure Setup where
  nodeIds : Option Value := none
  edgeNames : Option Value := none
  nodes : Option Value := none
  edges : Option Value := none

structure Canvas where
  nodeIds : List Value := []
  edgeNames : List String := []
  nodes : List GraphNode := []
  edges : List GraphEdge := []
  setup : Setup := {}

/-- A list with what was drawn behind it, or the value that stands in its place. -/
def Setup.shown (given : Option Value) (drawn : List Value) : Value :=
  match given with
  | none => .list drawn
  | some (.list vs) => .list (vs ++ drawn)
  | some v => v

def Canvas.shownNodes (c : Canvas) : Value :=
  Setup.shown c.setup.nodes (c.nodes.map GraphNode.toValue)

def Canvas.shownEdges (c : Canvas) : Value :=
  Setup.shown c.setup.edges (c.edges.map GraphEdge.toValue)

abbrev Drawing := ExceptT Failure (StateM Canvas)

namespace Drawing

structure Look where
  color : String
  shape : String
  size : Int
  font : Fields

def plainFont : Fields := [("color", .text "white"), ("background", .text "#333")]

def succeeded : String := "#00C853"

def failed : String := "#FF3D00"

def Look.ofKind : Value → Look
  | .text "Incident" => ⟨"#FFD900", "hexagon", 18,
      [("color", .text "white"), ("face", .text "sans-serif"), ("background", .text "#440000")]⟩
  | .text "Victim" =>
    ⟨"#2D8CFF", "box", 14, [("color", .text "white"), ("background", .text "#002B55")]⟩
  | .text "Actor" =>
    ⟨"#FB0000", "star", 14, [("color", .text "white"), ("background", .text "#000000")]⟩
  | .text "Malware" =>
    ⟨"#D32DFF", "diamond", 11, [("color", .text "white"), ("background", .text "#440055")]⟩
  | .text "Vulnerability" =>
    ⟨"#FF9F1C", "triangle", 11, [("color", .text "white"), ("background", .text "#553300")]⟩
  | .text "Indicator" =>
    ⟨"#00E096", "square", 8, [("color", .text "black"), ("background", .text "#004422")]⟩
  | .text "Step" => ⟨"#999", "dot", 13, plainFont⟩
  | _ => ⟨succeeded, "dot", 6, plainFont⟩

/-- Whether something is missing from the value in the place of a set. It cannot be added there. -/
def missingFrom (set part : Value) : Except Failure Bool := do
  if ← set.contains part then return false
  .error (.noMember set.kind.word "add")

/-- Only a list takes what is drawn. -/
def takes (given : Option Value) : Except Failure Unit :=
  match given with
  | none | some (.list _) => .ok ()
  | some v => .error (.noMember v.kind.word "append")

def newId (id : Value) : Drawing Bool := do
  match (← get).setup.nodeIds with
  | some ids => missingFrom ids id
  | none =>
    let id ← id.hashable
    if (← get).nodeIds.any (· == id) then return false
    modify fun c => { c with nodeIds := c.nodeIds ++ [id] }
    return true

/-- Draws a node unless one with its id is there, and says whether it did. A color given replaces the one
of the kind. -/
def node (id label kind title : Value) (color : Value := .null) : Drawing Bool := do
  if !(← newId id) then return false
  let look := Look.ofKind (← kind.hashable)
  takes (← get).setup.nodes
  modify fun c => { c with nodes := c.nodes ++
    [{ id, label, title := some title, shape := look.shape, color := color.orElse (.text look.color)
       size := look.size, font := some look.font }] }
  return true

def newName (name : String) : Drawing Bool := do
  match (← get).setup.edgeNames with
  | some names => missingFrom names (.text name)
  | none =>
    if (← get).edgeNames.contains name then return false
    modify fun c => { c with edgeNames := c.edgeNames ++ [name] }
    return true

def edge (source target label : Value) : Drawing Bool := do
  let e : GraphEdge := ⟨source, target, label⟩
  if !(← newName e.name) then return false
  takes (← get).setup.edges
  modify fun c => { c with edges := c.edges ++ [e] }
  return true

end Drawing

end ThreatAtlas
