import ThreatAtlas.Canvas
import ThreatAtlas.Files
import ThreatAtlas.Settings
import ThreatAtlas.Report.Basic

/-!
# The world a job works in

Services outside answer what a job asks: the graph, language models, web services, chance and the
user at the console. `Outside` says how such services behave, for any type of hidden state. A `World`
holds that state together with what jobs keep themselves: files, the session of the dashboard, and a
trace of everything sent, printed and shown.
-/

namespace ThreatAtlas

structure Query where
  text : String
  params : Fields := []

abbrev Row := Fields

def Row.item (row : Row) (name : String) : Except Failure Value :=
  (Value.record row).item name

def Row.column (name : String) (rows : List Row) : Except Failure (List Value) :=
  rows.mapM (·.item name)

inductive Answer where
  | rows (rows : List Row)
  | failed (text : String)
  /-- The query ran, but the connection fails when it is given back. -/
  | lost (rows : List Row) (text : String)

inductive Provider where
  | openAI
  | ollama
deriving Repr, DecidableEq

structure Model where
  provider : Provider
  options : Fields

inductive Role where
  | base | system | human | ai | tool
deriving Repr, DecidableEq

def Role.name : Role → String
  | .base => "base"
  | .system => "system"
  | .human => "human"
  | .ai => "ai"
  | .tool => "tool"

structure Message where
  role : Role
  content : Value
  /-- The tools a model wants called: a list, each with a name and arguments. -/
  toolCalls : Value := .list []
  name : Value := .null

/-- What stands in a conversation: a message, or a value put among the messages. -/
inductive Remark where
  | message (m : Message)
  | value (v : Value)

inductive Prompt where
  | messages (ms : List (Role × String))
  | plain (s : String)
  /-- Messages with named holes, and what goes into them. -/
  | template (ms : List (Role × String)) (values : Fields)

structure ModelCall where
  model : Model
  prompt : Prompt
  shape : Option String := none
  tools : List String := []

inductive ModelReply where
  | content (v : Value)
  | object (v : Value)
  | failed (text : String)
  | interrupted

inductive Consultation where
  | call (c : ModelCall)
  /-- A run of the agent on this conversation. -/
  | agent (conversation : List Remark)

structure WebRequest where
  method : String
  url : Value
  headers : Value := .null
  body : Value := .null
  timeout : Value

structure WebResponse where
  status : Int
  reason : String
  body : String

inductive WebReply where
  | response (r : WebResponse)
  | failed (text : String)

/-- Something that happens to the connection of a job of its own. -/
inductive Connection where
  | opened (uri user password : Value)
  | verified
  | closed

/-- One element put on a page: its function, what it was given, and what was given by name. -/
structure Shown where
  function : String
  args : List Value := []
  named : Fields := []

/-- How the services outside behave on a hidden state. -/
class Outside (σ : Type) where
  query : Query → σ → Answer × σ
  model : ModelCall → σ → ModelReply × σ
  web : WebRequest → σ → WebReply × σ
  draw : σ → Int × σ
  /-- The next answer at the console, if any comes. -/
  answer : σ → Option String × σ

/-- Everything a job sent, printed and showed, in order. -/
structure Trace where
  queries : List Query := []
  consultations : List Consultation := []
  requests : List WebRequest := []
  connections : List Connection := []
  shown : List Shown := []
  printed : String := ""

/-- What the dashboard remembers from one run of a page to the next. -/
structure Session where
  entries : Fields := []
  /-- Values that wait to take the place of parts of a canvas. -/
  setup : Setup := {}
  /-- What the graph page has drawn. -/
  canvas : Option Canvas := none
  /-- Questions and answers so far, as the agent is given them. -/
  history : Option (List Remark) := none
  /-- A value that is no list, in the place of the questions and answers. -/
  otherHistory : Option Value := none
  /-- The report last extracted. -/
  report : Option (Option Report) := none

namespace Session

/-- The places of a session: those that pages keep for themselves, and entries by their names. -/
inductive Slot where
  | nodeIds
  | edgeNames
  | nodes
  | edges
  | history
  | report
  | entry (name : String)

def setUp (s : Session) (wipe : Canvas → Canvas) (change : Setup → Setup) : Session :=
  match s.canvas with
  | some c => { s with canvas := some { wipe c with setup := change c.setup } }
  | none => { s with setup := change s.setup }

def put (s : Session) (v : Value) : Slot → Session
  | .nodeIds => s.setUp ({ · with nodeIds := [] }) ({ · with nodeIds := some v })
  | .edgeNames => s.setUp ({ · with edgeNames := [] }) ({ · with edgeNames := some v })
  | .nodes => s.setUp ({ · with nodes := [] }) ({ · with nodes := some v })
  | .edges => s.setUp ({ · with edges := [] }) ({ · with edges := some v })
  | .history =>
    match v with
    | .list vs => { s with history := some (vs.map .value), otherHistory := none }
    | _ => { s with history := none, otherHistory := some v }
  | .report => { s with report := none, entries := s.entries.set "proc_result" v }
  | .entry name => { s with entries := s.entries.set name v }

def beginCanvas (s : Session) : Session :=
  match s.canvas with
  | some _ => s
  | none => { s with canvas := some { setup := s.setup }, setup := {} }

end Session

structure Gestures where
  /-- Labels and keys of the buttons clicked. -/
  clicks : List Value := []
  texts : Fields := []
  selections : Fields := []
  chat : Value := .null
  node : Value := .null
  /-- Drawing a graph fails with this text. -/
  drawingError : Option String := none

structure World (σ : Type) where
  outside : σ
  settings : Settings := {}
  /-- The settings when the program started; what is set up only once follows them. -/
  startSettings : Settings := {}
  /-- Whether the shared client reached the graph. -/
  connected : Bool := true
  openError : Option String := none
  verifyError : Option String := none
  /-- The directory below which all files lie, as it is printed. -/
  root : String := ""
  files : Files := .empty
  standardInput : String := ""
  /-- What a run of the agent yields: the messages so far, or an error. -/
  agentEvents : List (Except String (List Message)) := []
  gestures : Gestures := {}
  session : Session := {}
  trace : Trace := {}

end ThreatAtlas
