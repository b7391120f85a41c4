import ThreatAtlas.Value.Access

/-!
# Comma separated values

Records are lines of fields divided by commas. A field that holds a comma, a quote or a line end
stands in quotes, and a quote inside it is written twice. A reader also takes what no writer
produces: a quote inside an unquoted field stands for itself, and what follows a closing quote is
added to the field.
-/

namespace ThreatAtlas.Csv

abbrev Record := List String

def fieldLimit : Nat := 131072

inductive Place where
  | recordStart
  | fieldStart
  | plain
  | quoted
  /-- After a quote in a quoted field: it ends the field, or is the first of two. -/
  | afterQuote
deriving Repr, DecidableEq

/-- How far a text has been read. Characters, fields and records are kept newest first. -/
structure Scan where
  place : Place := .recordStart
  chars : List Char := []
  size : Nat := 0
  fields : List String := []
  records : List Record := []
  /-- A field was too long; nothing after it is read. -/
  overflow : Bool := false

namespace Scan

def add (s : Scan) (c : Char) (place : Place) : Scan :=
  if s.size < fieldLimit then { s with place, chars := c :: s.chars, size := s.size + 1 }
  else { s with overflow := true }

def endField (s : Scan) : Scan :=
  { s with
    place := .fieldStart
    chars := []
    size := 0
    fields := String.ofList s.chars.reverse :: s.fields }

def endRecord (s : Scan) : Scan :=
  { s with place := .recordStart, fields := [], records := s.fields.reverse :: s.records }

/-- Outside quotes a comma ends the field and a line end the record. -/
def outside (s : Scan) (c : Char) : Scan :=
  if c == '\n' then s.endField.endRecord
  else if c == ',' then s.endField
  else s.add c .plain

def step (s : Scan) (c : Char) : Scan :=
  if s.overflow then s
  else
    match s.place with
    | .recordStart =>
      if c == '\n' then s.endRecord
      else if c == '"' then { s with place := .quoted }
      else s.outside c
    | .fieldStart => if c == '"' then { s with place := .quoted } else s.outside c
    | .plain => s.outside c
    | .quoted => if c == '"' then { s with place := .afterQuote } else s.add c .quoted
    | .afterQuote => if c == '"' then s.add c .quoted else s.outside c

def finish (s : Scan) : Scan :=
  if s.overflow || s.place == .recordStart then s else s.endField.endRecord

end Scan

/-- The records of a text, and whether a field that is too long stands after them. Line ends are line
feeds, and an empty line is a record without fields. -/
def read (text : String) : List Record × Bool :=
  let s := (text.toList.foldl Scan.step {}).finish
  (s.records.reverse, s.overflow)

/-- A record under the names of a header. Of a repeated name the last field counts; missing fields are
null, and surplus ones come last, together. -/
def named (header record : Record) : Fields :=
  let cells := record.map Value.text ++ List.replicate (header.length - record.length) .null
  let fields := Fields.ofPairs (header.zip cells)
  let surplus := record.drop header.length
  if surplus.isEmpty then fields else fields.set "null" (.texts surplus)

/-- The records after the first under the names in it. Empty lines are left out. -/
def rows : List Record → List Fields
  | [] => []
  | header :: records => (records.filter (!·.isEmpty)).map (named header)

/-- The rows of a text with a header, which must be readable to its end. -/
def readRows (text : String) : Except Failure (List Fields) :=
  match read text with
  | (records, false) => .ok (rows records)
  | (_, true) => .error .longField

def needsQuotes (field : String) : Bool :=
  field.toList.any fun c => c == ',' || c == '"' || c == '\r' || c == '\n'

def writeField (field : String) : String :=
  if needsQuotes field then
    String.ofList ('"' :: field.toList.flatMap (fun c => if c == '"' then ['"', '"'] else [c]) ++ ['"'])
  else field

/-- A line for a record. A single empty field is quoted, to be told from an empty line. -/
def writeRecord (record : Record) : String :=
  (if record == [""] then "\"\"" else ",".intercalate (record.map writeField)) ++ "\r\n"

def write (records : List Record) : String :=
  String.join (records.map writeRecord)

def cell : Value → String
  | .null => ""
  | v => v.display

end ThreatAtlas.Csv
