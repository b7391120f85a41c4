import ThreatAtlas.Indicator.Clean
import ThreatAtlas.Report.Basic

/-!
# Finding indicators in a text
-/

namespace ThreatAtlas.Indicator

def startsWithYear (s : String) : Bool :=
  (Pattern.span Text.isDecimal 4 (some 4)).matchesStart s

def isAddressLike (s : String) : Bool :=
  s.toList.any Text.isDigitLike

def isAllDigits (s : String) : Bool :=
  !s.isEmpty && s.toList.all Text.isDigitLike

def vendors : List String :=
  ["ahnlab", "microsoft", "google", "facebook", "twitter", "github"]

def namesAny (words : List String) (s : String) : Bool :=
  words.any fun w => Text.contains w (Text.lower s)

def extract (text : String) : List Entity :=
  let of (kind : EntityKind) (values : List String) : List Entity :=
    values.map fun v => { kind, value := v }
  of .ip ((address.findAll text).filter fun m => !startsWithYear m && isAddressLike m) ++
  of .url (link.findAll text) ++
  of .domain ((host.findAll text).filter fun m => !namesAny vendors m) ++
  of .vulnerability (vulnerability.findAll text) ++
  of .hash ((hash.findAll text).filter fun h => !isAllDigits h) ++
  of .cryptocurrency (wallet.findAll text)

end ThreatAtlas.Indicator
