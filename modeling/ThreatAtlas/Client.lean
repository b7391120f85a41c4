import ThreatAtlas.Job

/-!
# The shared client

Opens the connection that queries of all jobs go over. When it cannot be opened the client works without
one and answers nothing; when it cannot be verified it is kept all the same.
-/

namespace ThreatAtlas.Client

variable {σ : Type} [Outside σ]

def verify : Job σ Unit := do
  Job.recover
    (do
      Job.verifyConnection
      Job.say s!"[*] Connected to Neo4j at {(← Job.settings).graphUri.display}")
    fun e => Job.say s!"[!] Could not connect to Neo4j: {e.message}"

def connect : Job σ Bool := do
  let connected ← Job.recover
    (do
      Job.openConnection
      verify
      return true)
    fun e => do
      Job.say s!"[!] Neo4j Connection Error: {e.message}"
      return false
  modify fun w => { w with connected }
  return connected

def askOnce (text : String) (params : Fields) : Job σ (Bool × List Row) := do
  let connected ← connect
  let rows ← Job.ask text params
  if connected then Job.connection .closed
  return (connected, rows)

end ThreatAtlas.Client
