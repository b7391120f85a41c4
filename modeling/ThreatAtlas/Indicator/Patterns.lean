import ThreatAtlas.Pattern

/-!
# The forms of indicators

Addresses, links, host names, vulnerability ids, hashes and wallets as they stand in reports, also
with their dots and colons put in brackets so that nobody follows them by accident.
-/

namespace ThreatAtlas.Indicator

open Pattern

def upToThreeDigits : Pattern :=
  .span Text.isDecimal 1 (some 3)

/-- A dot, with a bracket before or after it, or in parentheses. -/
def dot : Pattern :=
  firstOf [sequence [Pattern.optional '[', char '.', Pattern.optional ']'],
    sequence [char '(', char '.', char ')']]

def address : Pattern :=
  sequence [.boundary, upToThreeDigits, dot, upToThreeDigits, dot, upToThreeDigits, dot,
    upToThreeDigits, .boundary]

def scheme : Pattern :=
  firstOf [word "hxxp", word "http", word "https"]

def colon : Pattern :=
  firstOf [sequence [Pattern.optional '[', char ':', .span Text.isBlank 0 none, Pattern.optional ']'],
    char ':']

def slashes : Pattern :=
  firstOf [.span (· == '/') 2 (some 2), .span (· == '\\') 2 (some 2)]

def isHostChar (c : Char) : Bool :=
  isLetterAnyCase c || c.isDigit || c == '-'

def bracketedDot : Pattern :=
  sequence [Pattern.optional '[', char '.', Pattern.optional ']']

/-- A scheme, a host with a dot in it, and everything up to the next blank. -/
def link : Pattern :=
  sequence [scheme, colon, slashes, .span (fun c => isHostChar c || c == '.') 1 none, bracketedDot,
    .span isLetterAnyCase 2 none, .span (fun c => !Text.isBlank c) 0 none]

/-- One label of a host name and the dot after it, once or more. -/
def labels : Pattern :=
  .many (.seq (.span isHostChar 1 none) (char '.'))

def topDomains : List String :=
  ["com", "net", "org", "io", "kr", "ru", "cn", "eu", "co", "biz", "info"]

def host : Pattern :=
  sequence [.boundary, labels, firstOf (topDomains.map word), .boundary]

/-- A host name that ends in letters, the last dot perhaps in brackets. -/
def looseHost : Pattern :=
  sequence [.boundary, labels, bracketedDot, .span isLetterAnyCase 2 none, .boundary]

def vulnerability : Pattern :=
  sequence [word "cve", char '-', .span Text.isDecimal 4 (some 4), char '-',
    .span Text.isDecimal 4 (some 7)]

def hexWord (n : Nat) : Pattern :=
  sequence [.boundary, .span Text.isHex n (some n), .boundary]

def hash : Pattern :=
  firstOf [hexWord 32, hexWord 40, hexWord 64]

def wallet : Pattern :=
  sequence [.boundary, char '0', char 'x', .span Text.isHex 40 (some 40), .boundary]

def plainAddress : Pattern :=
  sequence [upToThreeDigits, char '.', upToThreeDigits, char '.', upToThreeDigits, char '.',
    upToThreeDigits]

def addressWithPorts : Pattern :=
  sequence [plainAddress, char ':', .span (fun c => Text.isDecimal c || c == ',') 1 none, .finish]

end ThreatAtlas.Indicator
