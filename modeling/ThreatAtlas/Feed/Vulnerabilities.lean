import ThreatAtlas.Csv
import ThreatAtlas.Job

/-!
# The feed of exploited vulnerabilities

Nine columns of the published catalogue are kept under names of their own, without blanks around
their values.
-/

namespace ThreatAtlas.Feed.Vulnerabilities

def source : String := "data/raw/cisa_kev.csv"

def target : String := "data/processed/cisa_kev_clean.csv"

def columns : List (String × String) :=
  [("cveID", "cve_id"),
    ("vendorProject", "vendor"),
    ("product", "product"),
    ("vulnerabilityName", "name"),
    ("dateAdded", "date_added"),
    ("shortDescription", "description"),
    ("requiredAction", "required_action"),
    ("dueDate", "due_date"),
    ("knownRansomwareCampaignUse", "ransomware_use")]

/-- A column the header does not name is empty; one that the record is too short for is a failure. -/
def cleanField (row : Fields) (column : String) : Except Failure String :=
  match row.lookup column with
  | none => .ok ""
  | some v => do return Text.strip (← v.asText "strip")

def cleanRow (row : Fields) : Except Failure Csv.Record :=
  columns.mapM fun (column, _) => cleanField row column

/-- The clean rows up to the first that cannot be cleaned, and why it cannot. -/
def cleanRows : List Fields → List Csv.Record × Option Failure
  | [] => ([], none)
  | row :: rest =>
    match cleanRow row with
    | .error e => ([], some e)
    | .ok record =>
      let (records, e) := cleanRows rest
      (record :: records, e)

def convert (text : String) : List Csv.Record × Option Failure :=
  let (raw, overflow) := Csv.read text
  let (records, e) := cleanRows (Csv.rows raw)
  (columns.map (·.2) :: records, e <|> if overflow then some .longField else none)

variable {σ : Type}

def process : Job σ Unit := do
  if !(← Job.fileExists source) then
    Job.say s!"[Error] Input file not found: {← Job.shownPath source}"
    throw (.exit 1)
  Job.say "[*] Processing CISA KEV data..."
  let (records, failure) := convert (← Job.readLenient source)
  Job.writeText target (Csv.write records)
  if let some e := failure then throw e
  Job.say s!"[+] Saved {records.length - 1} rows to {← Job.shownPath target}"

end ThreatAtlas.Feed.Vulnerabilities
