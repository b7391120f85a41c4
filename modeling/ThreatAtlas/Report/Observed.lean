import ThreatAtlas.Report.Basic
import ThreatAtlas.Indicator.Clean

/-!
# Indicators a report left out

Indicators found in the text that no step of the report mentions go into a step of their own.
-/

namespace ThreatAtlas.Report

/-- The entities, each the first with its cleaned value, whose cleaned value is not in `known`. -/
def unmentioned (known : List String) : List Entity → List Entity
  | [] => []
  | e :: es =>
    let value := Indicator.clean e.value
    if known.contains value then unmentioned known es
    else e :: unmentioned (value :: known) es

def observedStep (number : Int) (entities : List Entity) : Step :=
  { number
    phase := "Observed Indicators"
    description := "Technical indicators (IoCs) extracted via automated pattern matching."
    entities }

/-- Adds a last step with the indicators that the report does not mention, if there are any. -/
def addObserved (r : Report) (indicators : List Entity) : Report :=
  let missing := unmentioned (r.entities.map (Indicator.clean ·.value)) indicators
  if missing.isEmpty then r
  else { r with steps := r.steps ++ [observedStep (r.steps.length + 1) missing] }

end ThreatAtlas.Report
