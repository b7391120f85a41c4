import ThreatAtlas.Report.Basic
import ThreatAtlas.Indicator.Clean

/-!
# Which values are worth keeping

Models fill gaps with placeholders and stock words; those are no entities.
-/

namespace ThreatAtlas.Indicator

def stockWords : List String :=
  ["unknown", "none", "n/a", "example.com", "localhost", "127.0.0.1"]

/-- A text between braces or angle brackets, or one that names a hole in a form. -/
def isPlaceholder (s : String) : Bool :=
  (Text.startsWith "\x7b" s && Text.endsWith "\x7d" s) ||
  (Text.startsWith "<" s && Text.endsWith ">" s) ||
  Text.contains "IP Address" s || Text.contains "Target" s

def isValid (value : String) : Bool :=
  let s := Text.strip value
  3 ≤ s.length && !isPlaceholder s && !stockWords.contains (Text.lower s)

end ThreatAtlas.Indicator

namespace ThreatAtlas.Entity

def isValid (e : Entity) : Bool :=
  Indicator.isValid e.value

/-- The entity with its value cleaned; an address loses the ports written after it. -/
def cleaned (e : Entity) : Entity :=
  let value := Indicator.clean e.value
  match e.kind, Indicator.splitPorts? value with
  | .ip, some (address, _) => { e with value := address }
  | _, _ => { e with value }

end ThreatAtlas.Entity
