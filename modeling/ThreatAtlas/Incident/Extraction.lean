import ThreatAtlas.Json.Reader

/-!
# Finding JSON in prose

A model may wrap its JSON in words. An array of objects is looked for first, then an object, then the
whole text is taken. What is found must be JSON from end to end.
-/

namespace ThreatAtlas.Incident

/-- The text up to the last place at which `closing` ends it. -/
def upToLast (closing : List Char → Option (List Char)) : List Char → Option (List Char)
  | [] => none
  | c :: cs =>
    match upToLast closing cs with
    | some rest => some (c :: rest)
    | none => closing (c :: cs)

def closeArray : List Char → Option (List Char)
  | '}' :: cs =>
    match cs.dropWhile Text.isBlank with
    | ']' :: _ => some ('}' :: cs.takeWhile Text.isBlank ++ [']'])
    | _ => none
  | _ => none

def closeObject : List Char → Option (List Char)
  | '}' :: _ => some ['}']
  | _ => none

/-- From a bracket and a brace to the last brace and bracket, the brackets with blanks inside. -/
def findArray : List Char → Option (List Char)
  | [] => none
  | '[' :: cs =>
    match cs.dropWhile Text.isBlank with
    | '{' :: rest =>
      match upToLast closeArray rest with
      | some found => some ('[' :: cs.takeWhile Text.isBlank ++ '{' :: found)
      | none => findArray cs
    | _ => findArray cs
  | _ :: cs => findArray cs

def findObject : List Char → Option (List Char)
  | [] => none
  | '{' :: cs =>
    match upToLast closeObject cs with
    | some found => some ('{' :: found)
    | none => findObject cs
  | _ :: cs => findObject cs

def parse? (cs : List Char) : Option Value :=
  (Json.read (String.ofList cs)).toOption

def extract (text : String) : Option Value :=
  match findArray text.toList with
  | some found => parse? found
  | none =>
    match findObject text.toList with
    | some found => (parse? found).map fun v => .list [v]
    | none => parse? text.toList

end ThreatAtlas.Incident
