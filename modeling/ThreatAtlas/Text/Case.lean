import ThreatAtlas.Text.CaseTable
import ThreatAtlas.Text.Ranges

/-!
# Upper and lower case

Full Unicode case mapping of texts. Two rules are not per character: a capital sigma that ends a
word becomes a final sigma, and some characters map to several.
-/

namespace ThreatAtlas.Text

/-- Moves `c` by the run that covers it, if any. -/
def shiftBy (runs : Array CaseRun) (c : Char) : Char :=
  let x := c.toNat
  match runs[rank runs.size (fun i => (runs[i]?.map (·.lo)).getD 0) x - 1]? with
  | none => c
  | some r =>
    if r.lo ≤ x && x ≤ r.hi && (x - r.lo) % r.step == 0 then
      Char.ofNat (Int.toNat (x + r.shift))
    else c

def lowerChar (c : Char) : Char :=
  if c.toNat < 128 then c.toLower else shiftBy lowerRuns c

/-- A sigma is final when a cased character precedes it and none follows, characters that carry no
case of their own being passed over on both sides. -/
def endsWord (before after : List Char) : Bool :=
  let nearest (cs : List Char) :=
    ((cs.dropWhile (inRanges caseIgnorableBounds)).head?.map (inRanges casedBounds)).getD false
  nearest before && !nearest after

/-- Lower case of `cs`, where `before` holds the preceding characters, nearest first. -/
def lowerAfter (before : List Char) : List Char → List Char
  | [] => []
  | c :: cs =>
    let low :=
      if c == '\u03a3' then [if endsWord before cs then '\u03c2' else '\u03c3']
      else if c == '\u0130' then ['i', '\u0307']
      else [lowerChar c]
    low ++ lowerAfter (c :: before) cs

def lower (s : String) : String :=
  String.ofList (lowerAfter [] s.toList)

def upperChars (c : Char) : List Char :=
  if c.toNat < 128 then [c.toUpper]
  else
    match upperExpansions.lookup c.toNat with
    | some codes => codes.map Char.ofNat
    | none => [shiftBy upperRuns c]

def upper (s : String) : String :=
  String.ofList (s.toList.flatMap upperChars)

end ThreatAtlas.Text
