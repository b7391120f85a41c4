import ThreatAtlas.Csv
import ThreatAtlas.Job

/-!
# The feed of malicious URLs

Records of nine fields or more are kept, their tags without spaces; comments are dropped.
-/

namespace ThreatAtlas.Feed.Urls

def source : String := "data/raw/urlhaus_online.csv"

def target : String := "data/processed/urlhaus_indicators.csv"

def header : Csv.Record :=
  ["id", "date_added", "url", "url_status", "last_online", "threat", "tags", "urlhaus_link",
    "reporter"]

def isEntry : Csv.Record → Bool
  | [] => false
  | first :: rest => !Text.startsWith "#" first && header.length ≤ rest.length + 1

def withoutTagSpaces (record : Csv.Record) : Csv.Record :=
  record.modify 6 fun tags => String.ofList (tags.toList.filter (· != ' '))

def clean (records : List Csv.Record) : List Csv.Record :=
  (records.filter isEntry).map withoutTagSpaces

variable {σ : Type}

def process : Job σ Unit := do
  if !(← Job.fileExists source) then
    Job.say s!"[Error] Input file not found: {← Job.shownPath source}"
    throw (.exit 1)
  Job.say s!"[*] Processing URLHaus data from: {← Job.shownPath source}"
  let (raw, overflow) := Csv.read (← Job.readLenient source)
  let entries := clean raw
  Job.writeText target (Csv.write (header :: entries))
  if overflow then throw .longField
  Job.say "[+] URLHaus processing done."
  Job.say "    - Input lines skipped (comments/headers)"
  Job.say s!"    - Saved {entries.length} valid indicators to {← Job.shownPath target}"

end ThreatAtlas.Feed.Urls
