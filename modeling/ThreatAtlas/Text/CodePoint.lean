/-!
# Code points

A document may spell half of a surrogate pair without the other half. Such a half is no character, and a
text that has one cannot be encoded.
-/

namespace ThreatAtlas

inductive CodePoint where
  | char (c : Char)
  /-- Half of a surrogate pair that stands alone. -/
  | half (unit : Nat)
deriving DecidableEq

namespace CodePoint

/-- What a unit of sixteen bits stands for by itself. -/
def ofUnit (unit : Nat) : CodePoint :=
  if 0xD800 ≤ unit && unit < 0xE000 then .half unit else .char (Char.ofNat unit)

def unit? : CodePoint → Option Nat
  | .char _ => none
  | .half unit => some unit

def isHalf : CodePoint → Bool
  | .char _ => false
  | .half _ => true

def shown : CodePoint → Char
  | .char c => c
  | .half _ => '\ufffd'

/-- The text of code points, with the replacement character for a half. -/
def text (points : List CodePoint) : String :=
  String.ofList (points.map shown)

end CodePoint

/-- A text that cannot be encoded. -/
structure Unpaired where
  points : List CodePoint
  half : points.any CodePoint.isHalf = true
deriving DecidableEq

def Unpaired.shown (u : Unpaired) : String :=
  CodePoint.text u.points

end ThreatAtlas
