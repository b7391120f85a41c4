import ThreatAtlas.Proofs.Feed.AttackBundle
import ThreatAtlas.Proofs.Feed.Loading
import ThreatAtlas.Proofs.Text.Replace

/-!
# From the feeds to the graph

What the processing of a feed produces is written as a table, and what is read from the table is sent
to the graph. Both halves meet at `Table.Gives`: a table that was written gives the rows it was written
from, and the rows that a table gives are sent.
-/

namespace ThreatAtlas

namespace Feed

open Job (Returns Sends)
open Loading (Table)

variable {σ : Type}

/-- What a feed's file is read as: bytes that are not text are replaced, and line ends unified. -/
def lenientText (content : Content) : String :=
  String.ofList (Text.unifyLineEnds content.decodeLenient)

private theorem readLenient_returns {path text : String} {w w' : World σ}
    (h : Returns (Job.readLenient path) w text w') :
    w' = w ∧ ∃ content, w.files.place path = .file content ∧ text = lenientText content := by
  unfold Job.readLenient at h
  obtain ⟨content, w₁, hcontent, h⟩ := Job.returns_bind.mp h
  obtain ⟨hplace, rfl⟩ := Job.contentOf_returns_iff.mp hcontent
  obtain ⟨rfl, rfl⟩ := Job.returns_pure.mp h
  exact ⟨rfl, content, hplace, rfl⟩

private theorem fit_of_lenientText {content : Content} {record : Csv.Record}
    (hrecord : record ∈ (Csv.read (lenientText content)).1) {field : String} (hfield : field ∈ record) :
    Csv.Fit field := by
  refine Csv.fit_of_mem_read ?_ hrecord hfield
  rw [lenientText, String.toList_ofList]
  exact Text.return_notMem_unifyLineEnds _

private theorem gives_of_written (table : Table) {files : Files} {header : Csv.Record}
    {records : List Csv.Record} (hheader : Csv.IsHeader header)
    (hplace : files.place table.path = .file (.text (Csv.write (header :: records))))
    (hfit : ∀ r ∈ records, ∀ field ∈ r, Csv.Fit field)
    (hlength : ∀ r ∈ records, header.length ≤ r.length) :
    table.Gives files (records.map fun r =>
      header.zip (r.map Value.text) ++ Csv.surplus (r.drop header.length)) :=
  .inr ⟨_, hplace, Csv.readRows_write hheader hfit hlength⟩

private theorem eq_of_place {α : Type} {files : Files} {path : String} {make : Content → α} {a b : α}
    (ha : ∃ content, files.place path = .file content ∧ make content = a)
    (hb : ∃ content, files.place path = .file content ∧ make content = b) : a = b := by
  obtain ⟨content, hplace, rfl⟩ := ha
  obtain ⟨content', hplace', rfl⟩ := hb
  cases hplace.symm.trans hplace'
  rfl

namespace Vulnerabilities

def header : Csv.Record :=
  columns.map (·.2)

def Produces (files : Files) (records : List Csv.Record) : Prop :=
  ∃ content, files.place source = .file content ∧
    (cleanRows (Csv.rows (Csv.read (lenientText content)).1)).1 = records

def rows (records : List Csv.Record) : List Fields :=
  records.map fun r => header.zip (r.map Value.text)

variable {records : List Csv.Record} {files : Files} {record : Csv.Record}

theorem cleanRow_length {row : Fields} (h : cleanRow row = .ok record) : record.length = header.length := by
  rw [header, List.length_map]
  exact (mapM_eq_ok.mp h).length_eq.symm

private theorem fit_of_cleanRow {headings raw : Csv.Record} (hraw : ∀ field ∈ raw, Csv.Fit field)
    (h : cleanRow (Csv.named headings raw) = .ok record) : ∀ field ∈ record, Csv.Fit field := by
  intro field hfield
  obtain ⟨⟨column, _⟩, _, hclean⟩ := exists_left_of_forall₂ (mapM_eq_ok.mp h) hfield
  dsimp only at hclean
  unfold cleanField at hclean
  split at hclean
  · cases hclean
    decide
  case h_2 v hlookup =>
    obtain ⟨s, hs, hclean⟩ := bind_eq_ok.mp hclean
    cases hclean
    obtain rfl := Value.asText_eq_ok hs
    obtain ⟨before, after, hsplit, _⟩ := List.lookup_eq_some_iff.mp hlookup
    have hentry : (column, Value.text s) ∈ Csv.named headings raw := by
      rw [hsplit]
      simp
    apply (hraw s (Csv.mem_of_mem_named hentry)).of_sublist
    exact Text.strip_sublist s

private theorem exists_row_of_cleanRows {rows : List Fields} (h : record ∈ (cleanRows rows).1) :
    ∃ row ∈ rows, cleanRow row = .ok record := by
  induction rows with
  | nil => cases h
  | cons row rows ih =>
    unfold cleanRows at h
    cases hrow : cleanRow row with
    | error e =>
      rw [hrow] at h
      cases h
    | ok first =>
      rw [hrow] at h
      rcases List.mem_cons.mp h with rfl | h
      · exact ⟨row, by simp, hrow⟩
      · obtain ⟨row', hmem, hclean⟩ := ih h
        exact ⟨row', by simp [hmem], hclean⟩

private theorem exists_record_of_mem_rows {row : Fields} (h : row ∈ Csv.rows records) :
    ∃ headings, ∃ raw ∈ records, row = Csv.named headings raw := by
  cases records with
  | nil => cases h
  | cons headings records =>
    obtain ⟨raw, hraw, rfl⟩ := List.mem_map.mp h
    exact ⟨headings, raw, List.mem_cons_of_mem _ (List.mem_of_mem_filter hraw), rfl⟩

private theorem Produces.fit (h : Produces files records) :
    ∀ r ∈ records, r.length = header.length ∧ ∀ field ∈ r, Csv.Fit field := by
  obtain ⟨content, _, rfl⟩ := h
  intro record hrecord
  obtain ⟨row, hrow, hclean⟩ := exists_row_of_cleanRows hrecord
  obtain ⟨headings, raw, hraw, rfl⟩ := exists_record_of_mem_rows hrow
  exact ⟨cleanRow_length hclean, fit_of_cleanRow (fun _ => fit_of_lenientText hraw) hclean⟩

private theorem process_returns {w w' : World σ} (h : Returns process w () w') :
    ∃ records, Produces w.files records ∧
      w'.files = w.files.put target (.text (Csv.write (header :: records))) ∧
      w'.files.place target = .file (.text (Csv.write (header :: records))) := by
  unfold process at h
  rw [Job.returns_bind_of_returns (Job.outcome_fileExists source w)] at h
  dsimp only at h
  split at h
  · rw [Job.returns_bind_of_returns (Job.outcome_shownPath source w), Job.returns_say_bind] at h
    exact absurd h Job.returns_throw
  · rw [Job.returns_say_bind] at h
    obtain ⟨text, w₁, hread, h⟩ := Job.returns_bind.mp h
    obtain ⟨rfl, content, hplace, rfl⟩ := readLenient_returns hread
    obtain ⟨_, w₂, hwrite, h⟩ := Job.returns_bind.mp h
    have hput := (Job.writeText_returns hwrite).1
    have hwritten := Job.place_of_writeText hwrite (by decide +kernel)
    refine ⟨_, ⟨content, hplace, rfl⟩, ?_⟩
    split at h
    · exact absurd h Job.returns_throw
    · rw [Job.returns_bind_of_returns (Job.outcome_shownPath target w₂)] at h
      obtain rfl := Job.returns_say.mp h
      exact ⟨hput, hwritten⟩

private theorem isHeader : Csv.IsHeader header :=
  ⟨by decide, by decide, by decide, by decide⟩

/-- No table is there and nothing was produced, or the table is what a run that ended has left of these
records. -/
def Supplies (σ : Type) (files : Files) (records : List Csv.Record) : Prop :=
  files.has target = false ∧ records = [] ∨
    ∃ w w' : World σ, Returns process w () w' ∧ Produces w.files records ∧
      files.place target = w'.files.place target

private theorem Supplies.gives (h : Supplies σ files records) :
    Loading.vulnerabilities.Gives files (rows records) := by
  rcases h with ⟨habsent, rfl⟩ | ⟨w, w', hrun, hproduces, hplace⟩
  · exact .inl ⟨habsent, rfl⟩
  · obtain ⟨records', hproduces', -, hwritten⟩ := process_returns hrun
    obtain rfl := eq_of_place hproduces hproduces'
    have hgives := gives_of_written Loading.vulnerabilities isHeader (hplace.trans hwritten)
      (fun r hr => (hproduces.fit r hr).2) (fun r hr => (hproduces.fit r hr).1.ge)
    rwa [List.map_congr_left] at hgives
    intro r hr
    rw [List.drop_of_length_le (hproduces.fit r hr).1.le]
    exact List.append_nil _

end Vulnerabilities

namespace Urls

def Produces (files : Files) (records : List Csv.Record) : Prop :=
  ∃ content, files.place source = .file content ∧
    clean (Csv.read (lenientText content)).1 = records

/-- The produced records as rows: nine fields under their names, and the surplus ones together. -/
def rows (records : List Csv.Record) : List Fields :=
  records.map fun r => header.zip (r.map Value.text) ++ Csv.surplus (r.drop header.length)

variable {records : List Csv.Record} {files : Files}

private theorem fit_of_withoutTagSpaces {record : Csv.Record} (h : ∀ field ∈ record, Csv.Fit field) :
    ∀ field ∈ withoutTagSpaces record, Csv.Fit field := by
  intro field hfield
  obtain ⟨i, hi, rfl⟩ := List.mem_iff_getElem.mp hfield
  unfold withoutTagSpaces at hi ⊢
  rw [List.length_modify] at hi
  rw [List.getElem_modify]
  have hfit := h record[i] (List.getElem_mem hi)
  split
  · apply hfit.of_sublist
    rw [String.toList_ofList]
    exact List.filter_sublist
  · exact hfit

private theorem Produces.fit (h : Produces files records) :
    ∀ r ∈ records, header.length ≤ r.length ∧ ∀ field ∈ r, Csv.Fit field := by
  obtain ⟨content, _, rfl⟩ := h
  intro record hrecord
  obtain ⟨raw, hraw, rfl⟩ := List.mem_map.mp hrecord
  obtain ⟨hraw, hentry⟩ := List.mem_filter.mp hraw
  constructor
  · rw [withoutTagSpaces, List.length_modify]
    cases raw with
    | nil => cases hentry
    | cons first rest => exact of_decide_eq_true (Bool.and_eq_true_iff.mp hentry).2
  · exact fit_of_withoutTagSpaces fun _ => fit_of_lenientText hraw

private theorem process_returns {w w' : World σ} (h : Returns process w () w') :
    ∃ records, Produces w.files records ∧
      w'.files = w.files.put target (.text (Csv.write (header :: records))) ∧
      w'.files.place target = .file (.text (Csv.write (header :: records))) := by
  unfold process at h
  rw [Job.returns_bind_of_returns (Job.outcome_fileExists source w)] at h
  dsimp only at h
  split at h
  · rw [Job.returns_bind_of_returns (Job.outcome_shownPath source w), Job.returns_say_bind] at h
    exact absurd h Job.returns_throw
  · rw [Job.returns_bind_of_returns (Job.outcome_shownPath source w), Job.returns_say_bind] at h
    obtain ⟨text, w₁, hread, h⟩ := Job.returns_bind.mp h
    obtain ⟨rfl, content, hplace, rfl⟩ := readLenient_returns hread
    obtain ⟨_, w₂, hwrite, h⟩ := Job.returns_bind.mp h
    have hput := (Job.writeText_returns hwrite).1
    have hwritten := Job.place_of_writeText hwrite (by decide +kernel)
    refine ⟨_, ⟨content, hplace, rfl⟩, ?_⟩
    split at h
    · exact absurd h Job.returns_throw
    · rw [Job.returns_say_bind, Job.returns_say_bind,
        Job.returns_bind_of_returns (Job.outcome_shownPath target _)] at h
      obtain rfl := Job.returns_say.mp h
      exact ⟨hput, hwritten⟩

private theorem isHeader : Csv.IsHeader header :=
  ⟨by decide, by decide, by decide, by decide⟩

/-- No table is there and nothing was produced, or the table is what a run that ended has left of these
records. -/
def Supplies (σ : Type) (files : Files) (records : List Csv.Record) : Prop :=
  files.has target = false ∧ records = [] ∨
    ∃ w w' : World σ, Returns process w () w' ∧ Produces w.files records ∧
      files.place target = w'.files.place target

private theorem Supplies.gives (h : Supplies σ files records) : Loading.urls.Gives files (rows records) := by
  rcases h with ⟨habsent, rfl⟩ | ⟨w, w', hrun, hproduces, hplace⟩
  · exact .inl ⟨habsent, rfl⟩
  · obtain ⟨records', hproduces', -, hwritten⟩ := process_returns hrun
    obtain rfl := eq_of_place hproduces hproduces'
    exact gives_of_written Loading.urls isHeader (hplace.trans hwritten)
      (fun r hr => (hproduces.fit r hr).2) (fun r hr => (hproduces.fit r hr).1)

end Urls

namespace AttackBundle

def nodeFields (n : Node) : Fields :=
  [("stix_id", n.id), ("label", .text n.label), ("name", .text n.name), ("mitre_id", n.attackId),
    ("description", .text n.description)]

def linkFields (l : Link) : Fields :=
  [("source_id", l.source), ("target_id", l.target), ("type", .text l.type)]

/-- What a table can hold: null, or a text that is read back as it was written. -/
def IsWritable : Value → Prop
  | .null => True
  | .text s => Csv.Fit s
  | _ => False

instance : DecidablePred IsWritable
  | .null => isTrue trivial
  | .text s => inferInstanceAs (Decidable (Csv.Fit s))
  | .bool _ | .int _ | .real _ | .unpaired _ | .list _ | .record _ | .under _ _ => isFalse id

def Writable (fields : Fields) : Prop :=
  ∀ entry ∈ fields, IsWritable entry.2

instance (fields : Fields) : Decidable (Writable fields) :=
  inferInstanceAs (Decidable (∀ entry ∈ fields, IsWritable entry.2))

def readBack : Value → Value
  | .null => .text ""
  | v => v

def rowOf (fields : Fields) : Fields :=
  fields.map fun (name, v) => (name, readBack v)

private theorem cell_of_writable {v : Value} (h : IsWritable v) :
    Value.text (Csv.cell v) = readBack v ∧ Csv.Fit (Csv.cell v) := by
  cases v with
  | null => exact ⟨rfl, by decide⟩
  | text s => exact ⟨rfl, h⟩
  | _ => cases h

private theorem gives_of_fields (table : Table) {files : Files} {header : Csv.Record} {rows : List Fields}
    (hheader : Csv.IsHeader header) (hnames : ∀ row ∈ rows, row.map Prod.fst = header)
    (hwritable : ∀ row ∈ rows, Writable row)
    (hplace : files.place table.path =
      .file (.text (Csv.write (header :: rows.map fun row => row.map (Csv.cell ·.2))))) :
    table.Gives files (rows.map rowOf) := by
  have hlength : ∀ row ∈ rows, (row.map (Csv.cell ·.2)).length = header.length := by
    intro row hrow
    rw [← hnames row hrow, List.length_map, List.length_map]
  have hgives := gives_of_written table hheader hplace
    (by
      simp only [List.forall_mem_map]
      intro row hrow entry hentry
      exact (cell_of_writable (hwritable row hrow entry hentry)).2)
    (by
      simp only [List.forall_mem_map]
      intro row hrow
      exact (hlength row hrow).ge)
  rw [List.map_map, List.map_congr_left] at hgives
  · exact hgives
  · intro row hrow
    dsimp only [Function.comp]
    rw [List.drop_of_length_le (hlength row hrow).le, ← hnames row hrow, List.map_map, List.zip_map']
    refine (List.append_nil _).trans (List.map_congr_left ?_)
    intro entry hentry
    exact congrArg (entry.1, ·) (cell_of_writable (hwritable row hrow entry hentry)).1

def nodeRows (t : Tables) : List Fields :=
  t.nodes.map fun n => rowOf (nodeFields n)

def linkRows (t : Tables) : List Fields :=
  t.links.map fun l => rowOf (linkFields l)

private theorem isNodeHeader : Csv.IsHeader ["stix_id", "label", "name", "mitre_id", "description"] :=
  ⟨by decide, by decide, by decide, by decide⟩

private theorem isLinkHeader : Csv.IsHeader ["source_id", "target_id", "type"] :=
  ⟨by decide, by decide, by decide, by decide⟩

/-- No tables are there and nothing was produced, or they are what a run that ended has left of these. -/
def Supplies (σ : Type) (files : Files) (t : Tables) : Prop :=
  files.has nodeTarget = false ∧ files.has linkTarget = false ∧ t = {} ∨
    ∃ (w w' : World σ) (objects : List Value), Returns process w () w' ∧ Bundles w.files objects ∧
      tablesOf objects = .ok t ∧ files.place nodeTarget = w'.files.place nodeTarget ∧
      files.place linkTarget = w'.files.place linkTarget

private theorem Supplies.gives {files : Files} {t : Tables} (h : Supplies σ files t)
    (hnodes : ∀ n ∈ t.nodes, Writable (nodeFields n)) (hlinks : ∀ l ∈ t.links, Writable (linkFields l)) :
    Loading.nodes.Gives files (nodeRows t) ∧ Loading.links.Gives files (linkRows t) := by
  rcases h with ⟨hnoNodes, hnoLinks, rfl⟩ | ⟨w, w', objects, hrun, hbundle, htables, hnodePlace, hlinkPlace⟩
  · exact ⟨.inl ⟨hnoNodes, rfl⟩, .inl ⟨hnoLinks, rfl⟩⟩
  · obtain ⟨objects', w₁, t', hload, htables', hwritten⟩ := process_returns hrun
    obtain rfl := hbundle.unique (load_returns hload)
    obtain rfl : t = t' := Except.ok.inj (htables.symm.trans htables')
    unfold nodeRows linkRows
    rw [← Function.comp_def, ← Function.comp_def, ← List.map_map, ← List.map_map]
    constructor
    · refine gives_of_fields Loading.nodes isNodeHeader (by simp [nodeFields]) (by simpa using hnodes) ?_
      rw [List.map_map]
      exact hnodePlace.trans hwritten.1
    · refine gives_of_fields Loading.links isLinkHeader (by simp [linkFields]) (by simpa using hlinks) ?_
      rw [List.map_map]
      exact hlinkPlace.trans hwritten.2

end AttackBundle

/-- Once the schema is made, the graph is sent what the feeds produced: the rows of each table in their
order, each once, in batches that are neither empty nor larger than 500. -/
theorem fill_sends_produced [Outside σ] {w w₁ : World σ} (hopen : Returns Loading.opening w () w₁)
    {t : AttackBundle.Tables} (hbundle : AttackBundle.Supplies σ w.files t)
    (hnodes : ∀ n ∈ t.nodes, AttackBundle.Writable (AttackBundle.nodeFields n))
    (hlinks : ∀ l ∈ t.links, AttackBundle.Writable (AttackBundle.linkFields l))
    {exploited malicious : List Csv.Record} (hexploited : Vulnerabilities.Supplies σ w.files exploited)
    (hmalicious : Urls.Supplies σ w.files malicious) :
    ∃ n l v u, Loading.nodes.Carries (AttackBundle.nodeRows t) n ∧
      Loading.links.Carries (AttackBundle.linkRows t) l ∧
      Loading.vulnerabilities.Carries (Vulnerabilities.rows exploited) v ∧
      Loading.urls.Carries (Urls.rows malicious) u ∧
      Sends Loading.fill w
        (Loading.preparation ++ n ++ l ++ v ++ u ++ [⟨Loading.semanticLinking, []⟩]) := by
  obtain ⟨hnodeRows, hlinkRows⟩ := hbundle.gives hnodes hlinks
  exact Loading.sends_fill hopen hnodeRows hlinkRows hexploited.gives hmalicious.gives

/-- Fields with commas, quotes and line ends, a null, and a record with a tenth field. -/
theorem fill_sends_produced_quoted :
    let w : World Steady :=
      { outside := ⟨.rows [], .content .null⟩
        files := ⟨[(AttackBundle.source, .text "\x7b\"objects\":[\x7b\"id\":\"a\",\"type\":\"tool\"\x7d]\x7d"),
          (Vulnerabilities.source, .text "cveID,product\r\nC1,\"a, \"\"b\r\n\"\"\"\n"),
          (Urls.source, .text "#c\n1,d,u,o,l,t,\"a, b\",k,r,x\n")], [AttackBundle.targetDirectory]⟩ }
    ∃ w' t n l v u, Returns (do AttackBundle.process; Vulnerabilities.process; Urls.process) w () w' ∧
      t.nodes.length = 1 ∧
      Loading.nodes.Carries (AttackBundle.nodeRows t) n ∧ Loading.links.Carries [] l ∧
      Loading.vulnerabilities.Carries
        (Vulnerabilities.rows [["C1", "", "a, \"b\n\"", "", "", "", "", "", ""]]) v ∧
      Loading.urls.Carries
        (Urls.rows [["1", "d", "u", "o", "l", "t", "a,b", "k", "r", "x"]]) u ∧
      Sends Loading.fill w'
        (Loading.preparation ++ n ++ l ++ v ++ u ++ [⟨Loading.semanticLinking, []⟩]) := by
  intro w
  obtain ⟨hok, htable, hclean, hentries⟩ : (Job.outcome (do
        AttackBundle.process
        Vulnerabilities.process
        Urls.process
        Loading.opening) w).1.isOk = true ∧
      (Job.outcome AttackBundle.load w).1.toOption.map (fun objects =>
        (AttackBundle.tablesOf objects).toOption.map fun t => (t.nodes.length, t.links.isEmpty,
          decide (∀ n ∈ t.nodes, AttackBundle.Writable (AttackBundle.nodeFields n)))) =
        some (some (1, true, true)) ∧
      ((Job.outcome AttackBundle.process w).2.files.get? Vulnerabilities.source).map (fun content =>
        (Vulnerabilities.cleanRows (Csv.rows (Csv.read (lenientText content)).1)).1) =
        some [["C1", "", "a, \"b\n\"", "", "", "", "", "", ""]] ∧
      ((Job.outcome AttackBundle.process w).2.files.get? Urls.source).map (fun content =>
        Urls.clean (Csv.read (lenientText content)).1) =
        some [["1", "d", "u", "o", "l", "t", "a,b", "k", "r", "x"]] := by decide +kernel
  obtain ⟨_, _, hrun⟩ := Job.exists_returns_iff.mpr hok
  obtain ⟨_, w₁, hbundle, hrun⟩ := Job.returns_bind.mp hrun
  obtain ⟨_, w₂, hexploited, hrun⟩ := Job.returns_bind.mp hrun
  obtain ⟨_, w', hmalicious, hopen⟩ := Job.returns_bind.mp hrun
  rw [show Job.outcome _ _ = _ from hbundle] at hclean hentries
  obtain ⟨objects, _, t, hload, htables, hwritten⟩ := AttackBundle.process_returns hbundle
  obtain ⟨exploited, hproduced, hput₁, hplace₁⟩ := Vulnerabilities.process_returns hexploited
  obtain ⟨malicious, hproduced', hput₂, _⟩ := Urls.process_returns hmalicious
  rw [show Job.outcome _ _ = _ from hload] at htable
  simp only [Except.toOption, Option.map_some, htables, Option.some.injEq, Prod.mk.injEq,
    List.isEmpty_iff, decide_eq_true_eq] at htable
  obtain ⟨hlength, hnoLinks, hwritable⟩ := htable
  obtain rfl : exploited = [["C1", "", "a, \"b\n\"", "", "", "", "", "", ""]] := by
    obtain ⟨content, hplace, rfl⟩ := hproduced
    rwa [(Files.place_eq_file_iff.mp hplace).2, Option.map_some, Option.some.injEq] at hclean
  obtain rfl : malicious = [["1", "d", "u", "o", "l", "t", "a,b", "k", "r", "x"]] := by
    obtain ⟨content, hplace, rfl⟩ := hproduced'
    have hget := (Files.place_eq_file_iff.mp hplace).2
    rw [hput₁, Files.get?_put, if_neg (by decide)] at hget
    rwa [hget, Option.map_some, Option.some.injEq] at hentries
  have hkept {path : String} {content : Content} (h : w₁.files.place path = .file content)
      (hne : path ≠ Vulnerabilities.target) (hne' : path ≠ Urls.target)
      (hbelow : Vulnerabilities.target ∉ Files.parents path) (hbelow' : Urls.target ∉ Files.parents path) :
      w'.files.place path = w₁.files.place path := by
    rw [h, hput₂, hput₁]
    exact Files.place_put_of_ne _ (Files.place_put_of_ne _ h hne hbelow) hne' hbelow'
  obtain ⟨n, l, v, u, hn, hl, hv, hu, hsends⟩ := fill_sends_produced hopen
    (.inr ⟨w, w₁, objects, hbundle, AttackBundle.load_returns hload, htables,
      hkept hwritten.1 (by decide) (by decide) (by decide +kernel) (by decide +kernel),
      hkept hwritten.2 (by decide) (by decide) (by decide +kernel) (by decide +kernel)⟩)
    hwritable (by simp [hnoLinks])
    (.inr ⟨w₁, w₂, hexploited, hproduced, by
      rw [hplace₁, hput₂]
      exact Files.place_put_of_ne _ hplace₁ (by decide) (by decide +kernel)⟩)
    (.inr ⟨w₂, w', hmalicious, hproduced', rfl⟩)
  refine ⟨w', t, n, l, v, u, ?_, hlength, hn, ?_, hv, hu, hsends⟩
  · exact Job.returns_bind.mpr ⟨_, w₁, hbundle, Job.returns_bind.mpr ⟨_, w₂, hexploited, hmalicious⟩⟩
  · rwa [AttackBundle.linkRows, hnoLinks] at hl

end Feed

end ThreatAtlas
