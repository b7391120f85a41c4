import ThreatAtlas.World
import ThreatAtlas.Json.Reader
import ThreatAtlas.Json.Writer

/-!
# Jobs

A job reads and changes the world and may fail; what it did before failing stays done.
-/

namespace ThreatAtlas

abbrev Job (σ : Type) := ExceptT Failure (StateM (World σ))

namespace Job

variable {σ : Type}

def settings : Job σ Settings := do
  return (← get).settings

/-- Runs `job`; an error is passed to `onError`, which goes on in the world the error left. -/
def recover (job : Job σ α) (onError : Failure → Job σ α) : Job σ α :=
  tryCatch job fun e => if e.isError then onError e else throw e

def recoverAll (job : Job σ α) (onFailure : Failure → Job σ α) : Job σ α :=
  tryCatch job onFailure

def trace (f : Trace → Trace) : Job σ Unit :=
  modify fun w => { w with trace := f w.trace }

def print (s : String) : Job σ Unit :=
  trace fun t => { t with printed := t.printed ++ s }

def say (line : String) : Job σ Unit :=
  print (line ++ "\n")

section

variable [Outside σ]

def send (q : Query) : Job σ Answer := do
  trace fun t => { t with queries := t.queries ++ [q] }
  let w ← get
  let (a, outside) := Outside.query q w.outside
  set { w with outside }
  return a

/-- Asks the graph through the shared client. Without a connection the answer is empty; a query that
fails is reported and gives no rows; a connection that is lost is a failure. -/
def ask (text : String) (params : Fields := []) : Job σ (List Row) := do
  if (← get).connected then
    match ← send ⟨text, params⟩ with
    | .rows rows => return rows
    | .failed why =>
      say s!"[!] Query Error: {why}"
      return []
    | .lost _ why => throw (.graph why)
  else
    return []

/-- The rows for a query, or none if the connection is lost. -/
def askOrNone (q : Query) : Job σ (List Row) :=
  recover (ask q.text q.params) fun _ => return []

def consult (c : ModelCall) : Job σ ModelReply := do
  trace fun t => { t with consultations := t.consultations ++ [.call c] }
  let w ← get
  let (r, outside) := Outside.model c w.outside
  set { w with outside }
  match r with
  | .failed why => throw (.model why)
  | .interrupted => throw .interrupted
  | r => return r

def consultText (c : ModelCall) : Job σ Value := do
  match ← consult c with
  | .content v => return v
  | _ => return .text ""

/-- A model's reply in the shape that was asked for, if it gave one. -/
def consultShaped (c : ModelCall) (decode : Value → Except Failure α) : Job σ (Option α) := do
  match ← consult c with
  | .object v => return some (← decode v)
  | _ => return none

def fetch (r : WebRequest) : Job σ WebResponse := do
  trace fun t => { t with requests := t.requests ++ [r] }
  let w ← get
  let (reply, outside) := Outside.web r w.outside
  set { w with outside }
  match reply with
  | .response r => return r
  | .failed why => throw (.web why none)

def draw : Job σ Int := do
  let w ← get
  let (n, outside) := Outside.draw w.outside
  set { w with outside }
  return n

def drawBetween (low high : Int) : Job σ Int := do
  return low + (← draw).emod (high - low + 1)

def prompt (text : String) : Job σ String := do
  say text
  let w ← get
  let (a, outside) := Outside.answer w.outside
  set { w with outside }
  match a with
  | some s => return s
  | none => throw .endOfInput

end

def shownPath (path : String) : Job σ String := do
  return s!"{(← get).root}/{path}"

def fileExists (path : String) : Job σ Bool := do
  return (← get).files.has path

def contentOf (path : String) : Job σ Content := do
  match (← get).files.place path with
  | .file content => return content
  | .directory => throw (.isDirectory (← shownPath path))
  | .blocked => throw (.notDirectory (← shownPath path))
  | .nothing => throw (.noFile (← shownPath path))

def readText (path : String) : Job σ String := do
  let cs ← (← contentOf path).decode
  return String.ofList (Text.unifyLineEnds cs)

/-- The text of a file in which bytes that are not text are replaced. -/
def readLenient (path : String) : Job σ String := do
  return String.ofList (Text.unifyLineEnds (← contentOf path).decodeLenient)

def readJson (path : String) : Job σ Value := do
  let s ← readText path
  match Json.read s with
  | .ok v => return v
  | .error e => throw (e.toFailure s)

def writeText (path text : String) : Job σ Unit := do
  let w ← get
  let write := set { w with files := w.files.put path (.text text) }
  match w.files.place path with
  | .file _ => write
  | .directory => throw (.isDirectory (← shownPath path))
  | .blocked => throw (.notDirectory (← shownPath path))
  | .nothing => if w.files.canHold path then write else throw (.noFile (← shownPath path))

/-- Writes a document into a file that is emptied first, so that of one that cannot be encoded the beginning
is left. -/
def writeJson (path : String) (step : Nat) (v : Value) : Job σ Unit := do
  let pieces := Json.pieces step v
  writeText path (Json.begun pieces)
  match Json.fault? pieces with
  | some why => throw (.unencodable why)
  | none => return

def makeDirectory (path : String) : Job σ Unit := do
  let w ← get
  match w.files.place path with
  | .file _ => throw (.fileExists (← shownPath path))
  | .directory => return
  | .blocked => throw (.notDirectory (← shownPath path))
  | .nothing => set { w with files := w.files.makeDirectory path }

def removeFile (path : String) : Job σ Unit := do
  let w ← get
  match w.files.place path with
  | .file _ => set { w with files := w.files.remove path }
  | .directory => throw (.isDirectory (← shownPath path))
  | .blocked => throw (.notDirectory (← shownPath path))
  | .nothing => throw (.noFile (← shownPath path))

def connection (c : Connection) : Job σ Unit :=
  trace fun t => { t with connections := t.connections ++ [c] }

def openConnection : Job σ Unit := do
  let s ← settings
  connection (.opened s.graphUri s.graphUser s.graphPassword)
  if let some why := (← get).openError then throw (.graph why)

def verifyConnection : Job σ Unit := do
  connection .verified
  if let some why := (← get).verifyError then throw (.graph why)

end Job

end ThreatAtlas
