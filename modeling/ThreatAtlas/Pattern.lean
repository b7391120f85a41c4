import ThreatAtlas.Text.Class

/-!
# Patterns

Texts are searched for patterns built from character classes, repetition, choice and word
boundaries. A match is the first in priority order: repetition takes as much as it can, choice
prefers its left side, and both give way when what follows does not match.
-/

namespace ThreatAtlas

inductive Pattern where
  /-- From `least` up to `most` characters of a class. -/
  | span (inClass : Char → Bool) (least : Nat) (most : Option Nat)
  /-- The place between a word character and another, or an end of the text. -/
  | boundary
  /-- The end of the text, or its last line feed. -/
  | finish
  | seq (a b : Pattern)
  | choice (a b : Pattern)
  /-- One or more times, as often as possible. -/
  | many (p : Pattern)

namespace Pattern

/-- A place in a text: the character before it and the characters after it. -/
structure Place where
  before : Option Char
  rest : List Char

def Place.isEdge (place : Place) : Bool :=
  (place.before.map Text.isWord).getD false != (place.rest.head?.map Text.isWord).getD false

def Place.isFinish (place : Place) : Bool :=
  place.rest.isEmpty || place.rest == ['\n']

/-- Matches a span of a class and goes on, trying the longest span first. -/
def runSpan (inClass : Char → Bool) (go : Place → Option β) :
    Nat → Option Nat → Option Char → List Char → Option β
  | least, _, before, [] => if least == 0 then go ⟨before, []⟩ else none
  | least, most, before, c :: cs =>
    let longer :=
      if inClass c && most != some 0 then
        runSpan inClass go (least - 1) (most.map (· - 1)) (some c) cs
      else none
    match longer with
    | some r => some r
    | none => if least == 0 then go ⟨before, c :: cs⟩ else none

/-- Matches one step or more and goes on. Each step takes a character at least, so the characters
of `fuel` bound their number. -/
def runMany (step : Place → (Place → Option β) → Option β) (go : Place → Option β) :
    List Char → Place → Option β
  | [], _ => none
  | _ :: fuel, place =>
    step place fun next =>
      match runMany step go fuel next with
      | some r => some r
      | none => go next

/-- Matches the pattern at a place and goes on from each place where a match may end. -/
def run : Pattern → Place → (Place → Option β) → Option β
  | .span inClass least most, place, go => runSpan inClass go least most place.before place.rest
  | .boundary, place, go => if place.isEdge then go place else none
  | .finish, place, go => if place.isFinish then go place else none
  | .seq a b, place, go => run a place fun next => run b next go
  | .choice a b, place, go =>
    match run a place go with
    | some r => some r
    | none => run b place go
  | .many p, place, go => runMany (run p) go place.rest place

def match? (p : Pattern) (place : Place) : Option Place :=
  p.run place some

def Place.upTo (start stop : Place) : List Char :=
  start.rest.take (start.rest.length - stop.rest.length)

/-- All matches from the left, none overlapping another. A match of no characters does not count. -/
def findFrom (p : Pattern) (before : Option Char) : List Char → List (List Char)
  | [] => []
  | c :: cs =>
    match p.match? ⟨before, c :: cs⟩ with
    | some stop =>
      if stop.rest.length ≤ cs.length then
        Place.upTo ⟨before, c :: cs⟩ stop :: findFrom p stop.before stop.rest
      else findFrom p (some c) cs
    | none => findFrom p (some c) cs
termination_by cs => cs.length

def findAll (p : Pattern) (s : String) : List String :=
  (p.findFrom none s.toList).map String.ofList

def matchesStart (p : Pattern) (s : String) : Bool :=
  (p.match? ⟨none, s.toList⟩).isSome

def one (inClass : Char → Bool) : Pattern :=
  .span inClass 1 (some 1)

def char (c : Char) : Pattern :=
  one (· == c)

def optional (c : Char) : Pattern :=
  .span (· == c) 0 (some 1)

/-- The characters that stand for a small letter when case is ignored. Besides the two cases of the
letter these are the long s, the Kelvin sign and the i with and without its dot. -/
def anyCase (letter c : Char) : Bool :=
  c.toLower == letter || (letter == 's' && c == '\u017f') || (letter == 'k' && c == '\u212a') ||
    (letter == 'i' && (c == '\u0130' || c == '\u0131'))

/-- An ASCII letter, or a character that stands for one when case is ignored. -/
def isLetterAnyCase (c : Char) : Bool :=
  c.isAlpha || c == '\u017f' || c == '\u212a' || c == '\u0130' || c == '\u0131'

def sequence : List Pattern → Pattern
  | [] => .span (fun _ => false) 0 none
  | [p] => p
  | p :: ps => .seq p (sequence ps)

def firstOf : List Pattern → Pattern
  | [] => .span (fun _ => false) 1 none
  | [p] => p
  | p :: ps => .choice p (firstOf ps)

def word (s : String) : Pattern :=
  sequence (s.toList.map fun c => one (anyCase c))

end Pattern

end ThreatAtlas
