import ThreatAtlas.Incident.Arguments
import ThreatAtlas.Incident.Generation
import ThreatAtlas.Incident.Store

/-!
# The generator of incidents

Invents a number of incidents, one at a time, and stores each.
-/

namespace ThreatAtlas.Incident

variable {σ : Type} [Outside σ]

def generateOne (limit : Int) (place : Nat) : Job σ Unit := do
  Job.say s!"\n[+] Generating scenario {place + 1}/{limit}..."
  let found ← scenarios
  if found.truthy then
    save found
    Job.say s!"   ✅ Saved scenario {place + 1}."
  if (place : Int) < limit - 1 then Job.say "💤 Waiting 2s for rate limit..."

def generateFrom (limit : Int) (place : Nat) : Nat → Job σ Unit
  | 0 => return
  | left + 1 => do
    generateOne limit place
    generateFrom limit (place + 1) left

def generateAll (count : Value) : Job σ Unit := do
  match count.asInt? with
  | some limit => generateFrom limit 0 limit.toNat
  | none => throw (.mismatch (.notInteger count.kind))

/-- Runs the generator with its arguments. An error ends the run with code one, an interruption with
zero. -/
def generatorProgram (args : List String) : Job σ Unit := do
  match Arguments.parse args with
  | .wrong => throw (.exit 2)
  | .help =>
    Job.say Arguments.helpText
    throw (.exit 0)
  | .run count =>
    Job.say "🚀 Incident Generator Started"
    Job.say s!"[*] Target Count: {count.display}"
    Job.say s!"[*] Reading victims from: {← Job.shownPath victimFile}"
    Job.recoverAll (generateAll count) fun
      | .interrupted => do
        Job.say "\n🛑 Stopped by user."
        throw (.exit 0)
      | e => do
        if !e.isError then throw e
        Job.say s!"\n❌ Error occurred: {e.message}"
        throw (.exit 1)
    Job.say "\n🎉 Generation Complete."

end ThreatAtlas.Incident
