import ThreatAtlas.Value.Basic
import ThreatAtlas.Number.Shortest
import ThreatAtlas.Text.Class

/-!
# Values in running text

`Value.display` is the form a value takes inside a sentence: a text stands for itself. Inside a list
or record texts are quoted, with single quotes unless the text has a single quote and no double one;
line ends, backslashes and unprintable characters are escaped.
-/

namespace ThreatAtlas

namespace Text

def hexDigits (width n : Nat) : List Char :=
  let ds := Nat.toDigits 16 n
  List.replicate (width - ds.length) '0' ++ ds

def escapeIn (quote c : Char) : List Char :=
  if c == quote || c == '\\' then ['\\', c]
  else if c == '\n' then ['\\', 'n']
  else if c == '\r' then ['\\', 'r']
  else if c == '\t' then ['\\', 't']
  else if isPrintable c then [c]
  else if c.toNat < 0x100 then '\\' :: 'x' :: hexDigits 2 c.toNat
  else if c.toNat < 0x10000 then '\\' :: 'u' :: hexDigits 4 c.toNat
  else '\\' :: 'U' :: hexDigits 8 c.toNat

def quoteFor (cs : List Char) : Char :=
  if cs.contains '\'' && !cs.contains '"' then '"' else '\''

def quoted (s : String) : String :=
  let quote := quoteFor s.toList
  String.ofList (quote :: s.toList.flatMap (escapeIn quote) ++ [quote])

def escapePoint (quote : Char) : CodePoint → List Char
  | .char c => escapeIn quote c
  | .half unit => '\\' :: 'u' :: hexDigits 4 unit

def quotedPoints (points : List CodePoint) : String :=
  let quote := quoteFor (points.map CodePoint.shown)
  String.ofList (quote :: points.flatMap (escapePoint quote) ++ [quote])

end Text

namespace Value

def innerName (name : String) : Value → String
  | .under n _ => Text.quotedPoints n.points
  | _ => Text.quoted name

mutual

def inner : Value → String
  | .null => "None"
  | .bool true => "True"
  | .bool false => "False"
  | .int n => toString n
  | .real x => Number.write x
  | .text s => Text.quoted s
  | .unpaired u => Text.quotedPoints u.points
  | .list items => "[" ++ ", ".intercalate (innerAll items) ++ "]"
  | .record fields => "\x7b" ++ ", ".intercalate (innerFields fields) ++ "\x7d"
  | .under _ v => inner v

def innerAll : List Value → List String
  | [] => []
  | v :: rest => inner v :: innerAll rest

def innerFields : List (String × Value) → List String
  | [] => []
  | (name, v) :: rest => (innerName name v ++ ": " ++ inner v) :: innerFields rest

end

def display : Value → String
  | .text s => s
  | .unpaired u => u.shown
  | v => v.inner

end Value

end ThreatAtlas
