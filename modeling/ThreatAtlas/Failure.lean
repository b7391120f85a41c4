import ThreatAtlas.Value.Display

/-!
# Failures

Why a piece of work stopped, with the words in which it is reported.
-/

namespace ThreatAtlas

open Value (Kind)

inductive Mismatch where
  | notIndexable (found : Kind)
  | listIndex (found : Kind)
  | textIndex (found : Kind)
  | notIterable (found : Kind)
  | notSearchable (found : Kind)
  | searchedFor (found : Kind)
  | noLength (found : Kind)
  | unhashable (word : String)
  | joinItem (place : Nat) (found : Kind)
  | incomparable (sign : String) (left right : Kind)
  | operands (sign : String) (left right : Kind)
  | onlyTexts (found : Kind)
  | onlyLists (found : Kind)
  | notJoinable
  | notAssignable (found : Kind)
  | notPair (place : Nat)
  | notNumeric (found : Kind)
  | notInteger (found : Kind)
  /-- A list is cut at something that is not a place. -/
  | sliceBound
  /-- A value that cannot be set to a width. -/
  | notFormattable (found : Kind)
  /-- An operation is called with arguments it does not take, or without some it needs. -/
  | arguments
deriving Repr, DecidableEq

def Mismatch.message : Mismatch → String
  | .notIndexable k => s!"'{k.word}' object is not subscriptable"
  | .listIndex k => s!"list indices must be integers or slices, not {k.word}"
  | .textIndex k => s!"string indices must be integers, not '{k.word}'"
  | .notIterable k => s!"'{k.word}' object is not iterable"
  | .notSearchable k => s!"argument of type '{k.word}' is not iterable"
  | .searchedFor k => s!"'in <string>' requires string as left operand, not {k.word}"
  | .noLength k => s!"object of type '{k.word}' has no len()"
  | .unhashable word => s!"unhashable type: '{word}'"
  | .joinItem i k => s!"sequence item {i}: expected str instance, {k.word} found"
  | .incomparable sign a b =>
    s!"'{sign}' not supported between instances of '{a.word}' and '{b.word}'"
  | .operands sign a b =>
    s!"unsupported operand type(s) for {sign}: '{a.word}' and '{b.word}'"
  | .onlyTexts k => s!"can only concatenate str (not \"{k.word}\") to str"
  | .onlyLists k => s!"can only concatenate list (not \"{k.word}\") to list"
  | .notAssignable k => s!"'{k.word}' object does not support item assignment"
  | .notJoinable => "can only join an iterable"
  | .notPair i => s!"cannot convert dictionary update sequence element #{i} to a sequence"
  | .notNumeric k =>
    s!"int() argument must be a string, a bytes-like object or a real number, not '{k.word}'"
  | .notInteger k => s!"'{k.word}' object cannot be interpreted as an integer"
  | .sliceBound => "slice indices must be integers or None or have an __index__ method"
  | .notFormattable k => s!"unsupported format string passed to {k.word}.__format__"
  | .arguments => "wrong arguments"

structure Undecodable where
  byte : Nat
  offset : Nat
  reason : String
  span : Nat
deriving Repr, DecidableEq

def Undecodable.message (e : Undecodable) : String :=
  let reason := e.reason
  if e.span == 1 then
    let hex := String.ofList (Text.hexDigits 2 e.byte)
    s!"'utf-8' codec can't decode byte 0x{hex} in position {e.offset}: {reason}"
  else
    s!"'utf-8' codec can't decode bytes in position {e.offset}-{e.offset + e.span - 1}: {reason}"

/-- A text in which halves of surrogate pairs stand alone: the first of them, its place and how many there
are in a row. -/
structure Unencodable where
  unit : Nat
  offset : Nat
  span : Nat
deriving Repr, DecidableEq

def Unencodable.message (e : Unencodable) : String :=
  if e.span == 1 then
    let hex := String.ofList (Text.hexDigits 4 e.unit)
    s!"'utf-8' codec can't encode character '\\u{hex}' in position {e.offset}: surrogates not allowed"
  else
    s!"'utf-8' codec can't encode characters in position {e.offset}-{e.offset + e.span - 1}: surrogates not allowed"

/-- Why a text cannot be encoded when each of its characters is written as `spell` says. -/
def Unpaired.refusal (u : Unpaired) (spell : Char → List Char := fun c => [c]) : Unencodable :=
  let before := u.points.takeWhile (!·.isHalf)
  let halves := (u.points.drop before.length).takeWhile CodePoint.isHalf
  { unit := (halves.findSome? CodePoint.unit?).getD 0
    offset := (before.flatMap (spell ·.shown)).length
    span := halves.length }

inductive Failure where
  /-- The graph refused a query, or was lost. -/
  | graph (text : String)
  | model (text : String)
  /-- A web request failed; the body of the reply, when one came. -/
  | web (text : String) (body : Option String)
  | missingKey (key : Value)
  | malformed (text : String)
  | notJson (text : String)
  | mismatch (why : Mismatch)
  /-- A value of this kind has nothing of this name. -/
  | noMember (owner name : String)
  | noPart (owner name : String)
  | outOfRange (what : String)
  | divisionByZero
  /-- A number is too large for what is done with it. -/
  | overflow (text : String)
  | tooDeep (part : String)
  | unset (name : String)
  | unknownName (name : String)
  | invalid
  | noFile (path : String)
  | fileExists (path : String)
  | isDirectory (path : String)
  | notDirectory (path : String)
  | undecodable (why : Undecodable)
  | unencodable (why : Unencodable)
  /-- A field of a table is longer than a reader takes. -/
  | longField
  | drawing (text : String)
  | endOfInput
  | exit (code : Nat)
  | interrupted
  /-- A page asked to be run again from the top. -/
  | rerun

namespace Failure

def message : Failure → String
  | .graph text => text
  | .model text => text
  | .web text _ => text
  | .missingKey key => key.inner
  | .malformed text => text
  | .notJson text => text
  | .mismatch why => why.message
  | .noMember owner name => s!"'{owner}' object has no attribute '{name}'"
  | .noPart owner name => s!"{owner} has no attribute '{name}'"
  | .outOfRange what => s!"{what} index out of range"
  | .divisionByZero => "float division by zero"
  | .overflow text => text
  | .tooDeep part =>
    s!"maximum recursion depth exceeded while decoding a JSON {part} from a unicode string"
  | .unset name => s!"cannot access local variable '{name}' where it is not associated with a value"
  | .unknownName name => s!"name '{name}' is not defined"
  | .invalid => ""
  | .noFile path => s!"[Errno 2] No such file or directory: {Text.quoted path}"
  | .fileExists path => s!"[Errno 17] File exists: {Text.quoted path}"
  | .isDirectory path => s!"[Errno 21] Is a directory: {Text.quoted path}"
  | .notDirectory path => s!"[Errno 20] Not a directory: {Text.quoted path}"
  | .undecodable why => why.message
  | .unencodable why => why.message
  | .longField => "field larger than field limit (131072)"
  | .drawing text => text
  | .endOfInput => ""
  | .exit code => toString code
  | .interrupted => ""
  | .rerun => ""

/-- Ending the run, interrupting it or running a page again is not an error that work recovers
from. -/
def isError : Failure → Bool
  | .exit _ => false
  | .interrupted => false
  | .rerun => false
  | _ => true

end Failure

/-- What may fail without touching a state may be done where one is kept. -/
instance : MonadLift (Except Failure) (ExceptT Failure (StateM τ)) where
  monadLift e := ExceptT.mk (pure e)

end ThreatAtlas
