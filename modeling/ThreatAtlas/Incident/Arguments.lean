import ThreatAtlas.Number.Read
import ThreatAtlas.Value.Basic

/-!
# Arguments of the generator

`--count` takes a whole number, and `--help` is the only other option. Long options may be shortened, and
a value may follow an equals sign. Everything is classified first and read afterwards.
-/

namespace ThreatAtlas.Incident.Arguments

inductive Known where
  | help
  | count
deriving Repr, DecidableEq

/-- What an argument is: an option with a value attached to it, an unknown option, a plain value or the
mark after which all arguments are plain. -/
inductive Word where
  | known (option : Known) (attached : Option String)
  /-- The short help option with letters behind it. -/
  | letters (rest : String)
  | unknown
  | plain (s : String)
  | mark

/-- What the arguments ask for. The count is a whole number, or an empty list when a mark stood in its
place. -/
inductive Outcome where
  | run (count : Value)
  | help
  | wrong

def candidates (start : String) : List Known :=
  (if Text.startsWith start "--help" then [.help] else []) ++
    if Text.startsWith start "--count" then [.count] else []

/-- A minus sign and digits, perhaps with a point among them. One line end may follow. -/
def isNegativeNumber (s : String) : Bool :=
  match s.toList with
  | '-' :: cs =>
    let whole := cs.takeWhile Text.isDecimal
    match cs.dropWhile Text.isDecimal with
    | [] | ['\n'] => !whole.isEmpty
    | '.' :: rest =>
      let places := rest.takeWhile Text.isDecimal
      let behind := rest.dropWhile Text.isDecimal
      !places.isEmpty && (behind.isEmpty || behind == ['\n'])
    | _ => false
  | _ => false

/-- The class of an argument, or nothing when it could be two options. -/
def classify (s : String) : Option Word :=
  let (head, value) := match Text.cut? "=" s with
    | some (head, value) => (head, some value)
    | none => (s, none)
  if !Text.startsWith "-" s || s == "-" then some (.plain s)
  else if s == "--help" || s == "-h" then some (.known .help none)
  else if s == "--count" then some (.known .count none)
  else if head == "-h" then some (.letters (value.getD ""))
  else if Text.startsWith "--" s then
    match candidates head with
    | [o] => some (.known o value)
    | [] => some (if s.toList.contains ' ' then .plain s else .unknown)
    | _ => none
  else if Text.startsWith "-h" s then some (.letters (String.ofList (s.toList.drop 2)))
  else if isNegativeNumber s || s.toList.contains ' ' then some (.plain s)
  else some .unknown

def classifyAll : List String → Option (List Word)
  | [] => some []
  | "--" :: rest => some (.mark :: rest.map .plain)
  | s :: rest => do return (← classify s) :: (← classifyAll rest)

def countOf? (s : String) : Option Value :=
  if s == "--" then some (.list [])
  else
    match Number.readInt s with
    | .ok n => some (.int n)
    | .error _ => none

/-- Reads the words in order. Help ends the reading at once; what belongs to no option is kept in mind
as `extra`. -/
def read (count : Value) (extra : Bool) : List Word → Outcome
  | [] => if extra then .wrong else .run count
  | .known .help none :: _ => .help
  | .known .help (some _) :: _ => .wrong
  | .letters rest :: _ =>
    if !rest.isEmpty && rest.toList.all (· == 'h') then .help else .wrong
  | .known .count (some s) :: rest | .known .count none :: .plain s :: rest =>
    match countOf? s with
    | some n => read n extra rest
    | none => .wrong
  | .known .count none :: _ => .wrong
  | .unknown :: rest | .plain _ :: rest | .mark :: rest => read count true rest

def parse (args : List String) : Outcome :=
  match classifyAll args with
  | some words => read (.int 1) false words
  | none => .wrong

def helpText : String :=
  "usage: generate_incidents.py [-h] [--count COUNT]\n\n" ++
  "Generate synthetic cyber incidents using LLM.\n\n" ++
  "options:\n" ++
  "  -h, --help     show this help message and exit\n" ++
  "  --count COUNT  Number of incidents to generate"

end ThreatAtlas.Incident.Arguments
