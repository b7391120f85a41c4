import ThreatAtlas.Failure

/-!
# Writing JSON

On one line, with a blank after commas and colons, or over several lines with a given indentation.
Characters outside ASCII are written as they are. Into a file a document goes piece by piece, and ends
before the first piece that cannot be encoded.
-/

namespace ThreatAtlas.Json

def escape (c : Char) : List Char :=
  match c with
  | '"' => ['\\', '"']
  | '\\' => ['\\', '\\']
  | '\n' => ['\\', 'n']
  | '\r' => ['\\', 'r']
  | '\t' => ['\\', 't']
  | '\x08' => ['\\', 'b']
  | '\x0c' => ['\\', 'f']
  | c => if c.toNat < 0x20 then '\\' :: 'u' :: Text.hexDigits 4 c.toNat else [c]

def quote (s : String) : String :=
  String.ofList ('"' :: s.toList.flatMap escape ++ ['"'])

def writeReal (x : Float) : String :=
  match Number.exact x with
  | .nan => "NaN"
  | .infinite negative => if negative then "-Infinity" else "Infinity"
  | _ => Number.write x

/-- The text between items `level` deep when each level is indented by `step` blanks. -/
def lineBreak (step level : Nat) : String :=
  "\n" ++ String.ofList (List.replicate (step * level) ' ')

def bracket (step : Option Nat) (level : Nat) (left right : String) (items : List String) : String :=
  match items, step with
  | [], _ => left ++ right
  | _, none => left ++ ", ".intercalate items ++ right
  | _, some k =>
    left ++ lineBreak k (level + 1) ++ ("," ++ lineBreak k (level + 1)).intercalate items ++
      lineBreak k level ++ right

mutual

def writeAt (step : Option Nat) (level : Nat) : Value → String
  | .null => "null"
  | .bool b => if b then "true" else "false"
  | .int n => toString n
  | .real x => writeReal x
  | .text s => quote s
  | .unpaired u => quote u.shown
  | .list items => bracket step level "[" "]" (writeAll step (level + 1) items)
  | .record fields => bracket step level "\x7b" "\x7d" (writeFields step (level + 1) fields)
  | .under _ v => writeAt step level v

def writeAll (step : Option Nat) (level : Nat) : List Value → List String
  | [] => []
  | v :: rest => writeAt step level v :: writeAll step level rest

def writeFields (step : Option Nat) (level : Nat) : List (String × Value) → List String
  | [] => []
  | (name, v) :: rest =>
    (quote name ++ ": " ++ writeAt step level v) :: writeFields step level rest

end

def write (v : Value) : String :=
  writeAt none 0 v

def writeIndented (step : Nat) (v : Value) : String :=
  writeAt (some step) 0 v

/-- What is written at once, unless it cannot be encoded. -/
abbrev Piece := Except Unencodable String

/-- Refuses a text that is written together with what stands `before` it. -/
def refuse (before : String) (u : Unpaired) : Piece :=
  let why := u.refusal escape
  .error { why with offset := before.length + 1 + why.offset }

def namePiece (name : String) : Value → Piece
  | .under n _ => refuse "" n
  | _ => .ok (quote name)

mutual

/-- The pieces of a value. An item of a list that is no list or record is written together with what
stands `before` it. -/
def piecesAt (step level : Nat) (before : String) : Value → List Piece
  | .unpaired u => [refuse before u]
  | .list items =>
    if items.isEmpty then [.ok (before ++ "[]")]
    else
      .ok before :: piecesAll step (level + 1) ("[" ++ lineBreak step (level + 1)) items ++
        [.ok (lineBreak step level ++ "]")]
  | .record fields =>
    if fields.isEmpty then [.ok (before ++ "\x7b\x7d")]
    else
      .ok before :: piecesFields step (level + 1) ("\x7b" ++ lineBreak step (level + 1)) fields ++
        [.ok (lineBreak step level ++ "\x7d")]
  | .under name _ => [refuse before name]
  | v => [.ok (before ++ writeAt (some step) level v)]

def piecesAll (step level : Nat) (before : String) : List Value → List Piece
  | [] => []
  | v :: rest =>
    piecesAt step level before v ++ piecesAll step level ("," ++ lineBreak step level) rest

def piecesFields (step level : Nat) (before : String) : List (String × Value) → List Piece
  | [] => []
  | (name, v) :: rest =>
    .ok before :: namePiece name v :: .ok ": " :: piecesAt step level "" v ++
      piecesFields step level ("," ++ lineBreak step level) rest

end

def pieces (step : Nat) (v : Value) : List Piece :=
  piecesAt step 0 "" v

/-- The pieces that can be written, up to the first that cannot. -/
def begun : List Piece → String
  | .ok s :: rest => s ++ begun rest
  | _ => ""

def fault? : List Piece → Option Unencodable
  | [] => none
  | .ok _ :: rest => fault? rest
  | .error why :: _ => some why

end ThreatAtlas.Json
