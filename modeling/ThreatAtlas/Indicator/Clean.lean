import ThreatAtlas.Indicator.Patterns
import ThreatAtlas.Text.Basic
import ThreatAtlas.Text.Case

/-!
# Cleaning indicators

Brackets around dots and colons are taken away and the scheme is made whole again. Patterns cannot
hold more than one of these forms at the same place, but a replacement can make a new one, so the
order of the steps counts.
-/

namespace ThreatAtlas.Indicator

def clean (s : String) : String :=
  Text.replace "hxxp" "http" (Text.replace "[:]" ":" (Text.replace "(.)" "." (Text.replace "[.]" "." s)))

/-- Only the small Latin letters and ASCII digits, after lowering case. -/
def skeleton (s : String) : String :=
  String.ofList ((Text.lower (Text.strip s)).toList.filter fun c =>
    ('a' ≤ c && c ≤ 'z') || c.isDigit)

def splitPorts? (s : String) : Option (String × String) :=
  if addressWithPorts.matchesStart s then
    (Text.cut? ":" s).map fun (address, ports) =>
      (address, String.ofList (Text.trimEndChars (· == '\n') ports.toList))
  else none

end ThreatAtlas.Indicator
