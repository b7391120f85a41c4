import ThreatAtlas.Text.Utf8
import ThreatAtlas.Text.Basic

/-!
# Files

A tree of files below one root. Paths are relative to the root and name no parent directory. Text is
read with every line end turned into a line feed.
-/

namespace ThreatAtlas

inductive Content where
  | text (s : String)
  | bytes (b : ByteArray)

namespace Content

def decode : Content → Except Failure (List Char)
  | .text s => .ok s.toList
  | .bytes b => Text.Utf8.decode b

def decodeLenient : Content → List Char
  | .text s => s.toList
  | .bytes b => Text.Utf8.decodeLenient b

end Content

structure Files where
  /-- Each path occurs once. -/
  entries : List (String × Content)
  directories : List String

namespace Files

def empty : Files := ⟨[], []⟩

def parents (path : String) : List String :=
  let parts := Text.split '/' path
  (List.range parts.length).reverse.filterMap fun n =>
    if n == 0 then none else some ("/".intercalate (parts.take n))

def get? (files : Files) (path : String) : Option Content :=
  files.entries.lookup path

def isDirectory (files : Files) (path : String) : Bool :=
  path == "" || files.directories.contains path ||
    files.entries.any fun (p, _) => (parents p).contains path

def has (files : Files) (path : String) : Bool :=
  (files.get? path).isSome || files.isDirectory path

inductive Place where
  | file (content : Content)
  | directory
  | blocked
  | nothing

def place (files : Files) (path : String) : Place :=
  if (parents path).any fun p => (files.get? p).isSome then .blocked
  else
    match files.get? path with
    | some content => .file content
    | none => if files.isDirectory path then .directory else .nothing

def put (files : Files) (path : String) (content : Content) : Files :=
  let rec go : List (String × Content) → List (String × Content)
    | [] => [(path, content)]
    | (p, c) :: rest => if p == path then (p, content) :: rest else (p, c) :: go rest
  { files with entries := go files.entries }

def remove (files : Files) (path : String) : Files :=
  { entries := files.entries.filter (·.1 != path)
    directories := files.directories ++ (parents path).filter (!files.directories.contains ·) }

def makeDirectory (files : Files) (path : String) : Files :=
  { files with
    directories := files.directories ++
      (path :: parents path).filter (!files.directories.contains ·) }

def canHold (files : Files) (path : String) : Bool :=
  match parents path with
  | [] => true
  | directory :: _ => files.isDirectory directory

end Files

end ThreatAtlas
