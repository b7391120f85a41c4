import ThreatAtlas.Job

/-!
# The store of incidents

Incidents are added to one file. An incident without a proper id gets one by chance; an incident whose id
the file has already is left out.
-/

namespace ThreatAtlas.Incident

def storeDirectory : String := "data/generated"

def storeFile : String := "data/generated/incidents.json"

def idStart : String := "incident--"

def idOf (incident : Value) : Except Failure Value := do
  (← incident.item "id").hashable

def idsOf (incidents : Value) : Except Failure (List Value) := do
  (← incidents.elements).mapM idOf

def hasProperId (incident : Value) : Except Failure Bool := do
  if ← incident.holds "id" then
    return Text.startsWith idStart (← incident.item "id").display
  else return false

def setId (incident : Value) (id : String) : Except Failure Value :=
  match incident with
  | .record fs => .ok (.record (Fields.set fs "id" (.text id)))
  | .list _ => Value.fail (.listIndex .text)
  | v => Value.fail (.notAssignable v.kind)

def append (stored item : Value) : Except Failure Value :=
  match stored with
  | .list xs => .ok (.list (xs ++ [item]))
  | v => .error (.noMember v.kind.word "append")

def ruler : String := Text.repeated '=' 60

variable {σ : Type} [Outside σ]

def withId (incident : Value) : Job σ Value := do
  if ← hasProperId incident then return incident
  let n ← Job.drawBetween 10000 99999
  setId incident s!"incident--gen-{n}"

def announce (incident : Value) : Job σ Unit := do
  Job.say ("\n" ++ ruler)
  let title ← incident.get "title"
  Job.say s!"🚨 [New Incident] {title.display}"
  let victim ← incident.item "victim"
  let organization ← victim.get "organization"
  let system ← victim.get "system"
  Job.say s!"   🏢 Target: {organization.display} - {system.display}"
  let actor ← (← incident.item "attribution").get "group_name"
  Job.say s!"   ☠️ Actor:  {actor.display}"
  let steps ← (← incident.getD "attack_flow" (.list [])).length
  Job.say s!"   📝 Flow:   {steps} Steps"
  Job.say (ruler ++ "\n")

structure Batch where
  stored : Value
  added : Nat := 0

def addOne (known : List Value) (batch : Batch) (incident : Value) : Job σ Batch := do
  let incident ← withId incident
  let id ← idOf incident
  if known.any (· == id) then return batch
  let stored ← append batch.stored incident
  announce incident
  return ⟨stored, batch.added + 1⟩

/-- What the store holds; a file that is not JSON counts as empty. -/
def readStore : Job σ Value := do
  if ← Job.fileExists storeFile then
    tryCatch (Job.readJson storeFile) fun
      | .notJson _ => return .list []
      | e => throw e
  else return .list []

def writeBatch (batch : Batch) : Job σ Unit := do
  if 0 < batch.added then
    Job.writeJson storeFile 2 batch.stored
    Job.say s!"[+] Saved {batch.added} incidents. Total: {← batch.stored.length}"

/-- Adds incidents to the file, whose directory is there. -/
def saveInto (incidents : Value) : Job σ Unit := do
  let stored ← readStore
  let known ← idsOf stored
  writeBatch (← (← incidents.elements).foldlM (addOne known) ⟨stored, 0⟩)

def save (incidents : Value) : Job σ Unit := do
  if !(← Job.fileExists storeDirectory) then Job.makeDirectory storeDirectory
  saveInto incidents

end ThreatAtlas.Incident
