import ThreatAtlas.Text.Class

/-!
# Operations on texts

Searching, replacing, splitting and cutting. Positions and lengths count code points.
-/

namespace ThreatAtlas.Text

def hasBlock (part : List Char) : List Char → Bool
  | [] => part.isEmpty
  | c :: cs => part.isPrefixOf (c :: cs) || hasBlock part cs

def contains (part s : String) : Bool :=
  hasBlock part.toList s.toList

/-- Replaces every occurrence of `old`, found from the left without overlap. `old` is not empty. -/
def replaceChars (old new : List Char) : List Char → List Char
  | [] => []
  | c :: cs =>
    if old.isPrefixOf (c :: cs) then
      new ++ replaceChars old new (cs.drop (old.length - 1))
    else c :: replaceChars old new cs
termination_by s => s.length
decreasing_by
  · simp only [List.length_drop, List.length_cons]; omega
  · simp only [List.length_cons]; omega

def replace (old new s : String) : String :=
  String.ofList (replaceChars old.toList new.toList s.toList)

def cutChars (sep : List Char) : List Char → Option (List Char × List Char)
  | [] => if sep.isEmpty then some ([], []) else none
  | c :: cs =>
    if sep.isPrefixOf (c :: cs) then some ([], (c :: cs).drop sep.length)
    else (cutChars sep cs).map fun (a, b) => (c :: a, b)

def cut? (sep s : String) : Option (String × String) :=
  (cutChars sep.toList s.toList).map fun (a, b) => (String.ofList a, String.ofList b)

def splitChars (sep : Char) : List Char → List (List Char)
  | [] => [[]]
  | c :: cs =>
    if c == sep then [] :: splitChars sep cs
    else
      match splitChars sep cs with
      | [] => [[c]]
      | piece :: rest => (c :: piece) :: rest

def split (sep : Char) (s : String) : List String :=
  (splitChars sep s.toList).map String.ofList

def join (sep : String) (parts : List String) : String :=
  sep.intercalate parts

def trimEndChars (p : Char → Bool) (cs : List Char) : List Char :=
  (cs.reverse.dropWhile p).reverse

def stripChars (cs : List Char) : List Char :=
  trimEndChars isBlank (cs.dropWhile isBlank)

/-- Without blank characters of any script at both ends. -/
def strip (s : String) : String :=
  String.ofList (stripChars s.toList)

def trimEnd (c : Char) (s : String) : String :=
  String.ofList (trimEndChars (· == c) s.toList)

def startsWith (head s : String) : Bool :=
  head.toList.isPrefixOf s.toList

def endsWith (tail s : String) : Bool :=
  tail.toList.isSuffixOf s.toList

def take (n : Nat) (s : String) : String :=
  String.ofList (s.toList.take n)

def padRight (width : Nat) (s : String) : String :=
  s ++ String.ofList (List.replicate (width - s.length) ' ')

def repeated (c : Char) (n : Nat) : String :=
  String.ofList (List.replicate n c)

/-- Every line end, of whichever convention, becomes a line feed. -/
def unifyLineEnds : List Char → List Char
  | '\r' :: '\n' :: cs => '\n' :: unifyLineEnds cs
  | '\r' :: cs => '\n' :: unifyLineEnds cs
  | c :: cs => c :: unifyLineEnds cs
  | [] => []

end ThreatAtlas.Text
