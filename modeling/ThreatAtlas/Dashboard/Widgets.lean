import ThreatAtlas.Job

/-!
# Parts of a page

A page puts elements on the screen from top to bottom and asks what the user did with them. What it
remembers from run to run stands in the session.
-/

namespace ThreatAtlas.Dashboard

variable {σ : Type}

def remembered (name : String) : Job σ Value := do
  return (← get).session.entries.get name

def isRemembered (name : String) : Job σ Bool := do
  return (← get).session.entries.has name

def remember (name : String) (v : Value) : Job σ Unit :=
  modify fun w => { w with session := { w.session with entries := w.session.entries.set name v } }

def forget (name : String) : Job σ Unit :=
  modify fun w => { w with session := { w.session with entries := w.session.entries.erase name } }

def rememberFirst (name : String) (v : Value) : Job σ Unit := do
  if !(← isRemembered name) then remember name v

def countUp (name : String) : Job σ Unit := do
  remember name (← (← remembered name).increment)

def put (function : String) (args : List Value := []) (named : Fields := []) : Job σ Unit :=
  Job.trace fun t => { t with shown := t.shown ++ [⟨function, args, named⟩] }

def write (function : String) (text : String) : Job σ Unit :=
  put function [.text text]

def columns (n : Nat) : Job σ Unit :=
  put "columns" [.int n]

def columnsOf (widths : List Value) : Job σ Unit :=
  put "columns" [.list widths]

def rerun : Job σ α := do
  put "rerun"
  throw .rerun

def keyed (key : Option String) : Fields :=
  (key.map fun k => ("key", Value.text k)).toList

def button (label : Value) (key : Option String := none) : Job σ Bool := do
  put "button" [label] (keyed key)
  let clicks := (← get).gestures.clicks
  return clicks.any fun c => label == c || (key.map Value.text).any (· == c)

/-- Puts a field for text. What its key remembers comes first, then what the user typed. -/
def field (function label : String) (key : Option String := none) : Job σ Value := do
  put function [.text label] (keyed key)
  let typed := ((← get).gestures.texts.get label).orElse (.text "")
  match key with
  | none => return typed
  | some k =>
    rememberFirst k typed
    remembered k

/-- Puts a choice. What the user selected counts when it is one of the options; else the option at
`start`, if any, is chosen. -/
def choose (function label : String) (options : List Value) (start : Option Nat := some 0)
    (key : Option String := none) : Job σ Value := do
  put function [.text label, .list options] (keyed key)
  let usual := (start.bind (options[·]?)).getD .null
  let chosen := match (← get).gestures.selections.get? label with
    | some v => if options.any (· == v) then v else usual
    | none => usual
  if let some k := key then remember k chosen
  return chosen

def slider (label : String) (low high usual : Int) : Job σ Value := do
  put "slider" [.text label, .int low, .int high, .int usual]
  return ((← get).gestures.selections.get? label).getD (.int usual)

def checkbox (label : String) (usual : Bool) : Job σ Value := do
  put "checkbox" [.text label] [("value", .bool usual)]
  return ((← get).gestures.selections.get? label).getD (.bool usual)

def chatInput (label : String) : Job σ Value := do
  write "chat_input" label
  return (← get).gestures.chat

def drawGraph (c : Canvas) : Job σ Value := do
  put "agraph" [] [("nodes", c.shownNodes), ("edges", c.shownEdges)]
  match (← get).gestures.drawingError with
  | some why => throw (.drawing why)
  | none => return (← get).gestures.node

/-- Whether a table takes these whole numbers as numbers of a fixed width: with a sign, or without one
when none is negative. -/
def fitWords (ns : List Int) : Bool :=
  ns.all (fun n => -Int.pow 2 63 ≤ n && n < Int.pow 2 64) &&
    (ns.all (· < Int.pow 2 63) || ns.all (0 ≤ ·))

/-- The values of a column as a table shows them. Where all are numbers, one of them a real, all are shown
as reals. -/
def asColumn (vs : List Value) : List Value :=
  let isReal : Value → Bool := fun v => v.kind == .real
  let whole := vs.filterMap fun v => match v with
    | .int n => some n
    | _ => none
  if vs.any isReal && vs.all (fun v => isReal v || v.kind == .int) && fitWords whole then
    vs.map fun v => match v with
      | .int n => .real (Number.ofInt n)
      | v => v
  else vs

def table (columnNames : List String) (rows : List (List Value)) : Job σ Unit :=
  put "dataframe" [.record [("columns", .texts columnNames), ("rows", .list (rows.map .list))]]

end ThreatAtlas.Dashboard
