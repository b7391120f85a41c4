import ThreatAtlas.Console.Menu
import ThreatAtlas.Diagnostics.Connectivity
import ThreatAtlas.Diagnostics.Models
import ThreatAtlas.Feed.Loading
import ThreatAtlas.Incident.Generator
import ThreatAtlas.Incident.Ingestion

/-!
# The command line

The first argument names a program. Programs work on the files below the current directory. The graph,
models and the web are out of reach from here, and programs that ask them are told so.

A program is run with the answers that the user has given so far. When it asks for one more, it is run
again with that answer, and only what it prints beyond the run before is shown.
-/

namespace ThreatAtlas.Main

/-- A machine on its own: nothing outside answers but the user. -/
structure Alone where
  answers : List String
  seed : Nat

instance : Outside Alone where
  query _ s := (.failed "the graph is out of reach", s)
  model _ s := (.failed "the model is out of reach", s)
  web _ s := (.failed "the web is out of reach", s)
  draw s := (s.seed, { s with seed := (s.seed * 1103515245 + 12345) % 2147483648 })
  answer s :=
    match s.answers with
    | [] => (none, s)
    | a :: rest => (some a, { s with answers := rest })

/-- The program of a name, for at most so many rounds at the console. -/
def program? (name : String) (args : List String) (rounds : Nat) : Option (Job Alone Unit) :=
  match name with
  | "console" => some (Console.run .classic rounds)
  | "agent-console" => some (Console.run .reasoning rounds)
  | "vulnerabilities" => some Feed.Vulnerabilities.process
  | "urls" => some Feed.Urls.process
  | "attack" => some Feed.AttackBundle.process
  | "fill" => some Feed.Loading.fillGraph
  | "generate" => some (Incident.generatorProgram args)
  | "import" => some Incident.importProgram
  | "diagnose" => some Diagnostics.diagnoseModel
  | "connectivity" => some Diagnostics.diagnoseConnectivity
  | _ => none

def usage : String :=
  "usage: console | agent-console | vulnerabilities | urls | attack | fill | generate | import | diagnose | connectivity"

def knownFiles : List String :=
  [Feed.Vulnerabilities.source, Feed.Vulnerabilities.target, Feed.Urls.source, Feed.Urls.target,
    Feed.AttackBundle.source, Feed.AttackBundle.nodeTarget, Feed.AttackBundle.linkTarget,
    Incident.victimFile, Incident.storeFile, Incident.logFile]

def environmentNames : List String :=
  ["PROJECT_NAME", "NEO4J_URI", "NEO4J_USER", "NEO4J_PASSWORD", "NEO4J_DATABASE", "LLM_PROVIDER",
    "OLLAMA_BASE_URL", "OLLAMA_MODEL", "OLLAMA_NUM_CTX", "OPENAI_API_KEY", "OPENAI_MODEL",
    "LLM_TEMPERATURE"]

def environment : IO (List (String × String)) :=
  environmentNames.filterMapM fun name => do return (← IO.getEnv name).map ((name, ·))

def loadFiles : IO Files :=
  knownFiles.foldlM (fun files (path : String) => do
    try return files.put path (.bytes (← IO.FS.readBinFile path))
    catch _ => return files) (Files.empty.makeDirectory Incident.logDirectory)

def storeFiles (before after : Files) : IO Unit := do
  for directory in after.directories do
    IO.FS.createDirAll directory
  for (path, content) in after.entries do
    match content with
    | .text s => IO.FS.writeFile path s
    | .bytes _ => pure ()
  for (path, _) in before.entries do
    if (after.get? path).isNone then IO.FS.removeFile path

partial def converse (job : Nat → Job Alone Unit) (world : World Alone) (answers : List String)
    (shown : Nat) : IO (Except Failure Unit × World Alone) := do
  let (result, after) := (job (answers.length + 1)).run
    { world with outside := { world.outside with answers } }
  let printed := after.trace.printed
  IO.print (String.ofList (printed.toList.drop shown))
  (← IO.getStdout).flush
  match result with
  | .error .endOfInput =>
    let line ← (← IO.getStdin).getLine
    if line.isEmpty then return (result, after)
    converse job world (answers ++ [Text.trimEnd '\n' line]) printed.length
  | result => return (result, after)

def exitCode : Except Failure Unit → IO UInt32
  | .ok _ => return 0
  | .error (.exit n) => return n.toUInt32
  | .error e => do
    IO.eprintln e.message
    return 1

end ThreatAtlas.Main

open ThreatAtlas Main in
def main (args : List String) : IO UInt32 := do
  let name := args.headD "console"
  match program? name args.tail 0, Settings.ofEnvironment (← environment) with
  | none, _ =>
    IO.eprintln usage
    return 2
  | _, .error e => exitCode (.error e)
  | some idle, .ok settings =>
    let files ← loadFiles
    let world : World Alone :=
      { outside := ⟨[], ← IO.rand 0 2147483647⟩, settings, startSettings := settings
        connected := false, root := "."
        openError := some "the graph is out of reach", files }
    let job (rounds : Nat) := (program? name args.tail rounds).getD idle
    let (result, after) ← converse job world [] 0
    storeFiles files after.files
    exitCode result
