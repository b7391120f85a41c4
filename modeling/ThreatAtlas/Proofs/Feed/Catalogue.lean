import ThreatAtlas.Proofs.Feed.Handover

/-!
# The conversion of the catalogue

Each record of the catalogue becomes a row of nine cells. A record that does not reach the last column
under one of the nine names ends the run, and the table is left with the rows of the records before it;
without such a record the table has a row for every record that is not blank.
-/

namespace ThreatAtlas.Feed.Vulnerabilities

open Job (Returns Fails)

variable {σ : Type}

def headings (table : List Csv.Record) : Csv.Record :=
  table.headD []

def entries (table : List Csv.Record) : List Csv.Record :=
  table.tail.filter (!·.isEmpty)

private theorem rows_eq (table : List Csv.Record) :
    Csv.rows table = (entries table).map (Csv.named (headings table)) := by
  cases table <;> rfl

/-- The cell for a column is the field in its last place, without blanks around it. It is empty if no
column has the name. -/
def IsCell (names record : Csv.Record) (column cell : String) : Prop :=
  column ∉ names ∧ cell = "" ∨
    ∃ i field, Csv.LastColumn names column i ∧ record[i]? = some field ∧ cell = Text.strip field

def IsRow (names record row : Csv.Record) : Prop :=
  List.Forall₂ (fun column cell => IsCell names record column.1 cell) columns row

/-- The record ends before the last place of one of the columns. -/
def TooShort (names record : Csv.Record) : Prop :=
  ∃ column ∈ columns, ∃ i, Csv.LastColumn names column.1 i ∧ record.length ≤ i

private theorem not_tooShort_of_le {names record : Csv.Record} (h : names.length ≤ record.length) :
    ¬ TooShort names record := by
  rintro ⟨column, -, i, hlast, hshort⟩
  have := hlast.lt_length
  omega

def noText : Failure :=
  .noMember Value.Kind.null.word "strip"

private theorem column_ne_null {column : String × String} (h : column ∈ columns) : column.1 ≠ "null" := by
  revert column
  decide

variable {names record : Csv.Record} {column : String × String}

private theorem cleanField_of_short (hcolumn : column ∈ columns) {i : ℕ}
    (hlast : Csv.LastColumn names column.1 i) (hshort : record.length ≤ i) :
    cleanField (Csv.named names record) column.1 = .error noText := by
  unfold cleanField
  rw [hlast.lookup_named (column_ne_null hcolumn), List.getElem?_eq_none hshort]
  rfl

private theorem exists_cleanField (hcolumn : column ∈ columns)
    (hlong : ∀ i, Csv.LastColumn names column.1 i → i < record.length) :
    ∃ cell, cleanField (Csv.named names record) column.1 = .ok cell ∧
      IsCell names record column.1 cell := by
  unfold cleanField
  by_cases hmem : column.1 ∈ names
  · obtain ⟨i, hlast⟩ := Csv.exists_lastColumn hmem
    have hfield := List.getElem?_eq_getElem (hlong i hlast)
    refine ⟨_, ?_, .inr ⟨i, _, hlast, hfield, rfl⟩⟩
    rw [hlast.lookup_named (column_ne_null hcolumn), hfield]
    rfl
  · refine ⟨"", ?_, .inl ⟨hmem, rfl⟩⟩
    rw [Csv.lookup_named_of_notMem hmem (column_ne_null hcolumn)]

private theorem exists_cleanRow (h : ¬ TooShort names record) :
    ∃ row, cleanRow (Csv.named names record) = .ok row ∧ IsRow names record row := by
  refine exists_mapM fun column hcolumn => exists_cleanField hcolumn fun i hlast => ?_
  by_contra hshort
  exact h ⟨column, hcolumn, i, hlast, not_lt.mp hshort⟩

private theorem cleanRow_of_tooShort (h : TooShort names record) :
    cleanRow (Csv.named names record) = .error noText := by
  obtain ⟨column, hcolumn, i, hlast, hshort⟩ := h
  refine mapM_eq_error ?_ ⟨column, hcolumn, noText, cleanField_of_short hcolumn hlast hshort⟩
  intro other hother e he
  dsimp only at he
  by_cases hlong : ∀ j, Csv.LastColumn names other.1 j → j < record.length
  · obtain ⟨cell, hcell, -⟩ := exists_cleanField hother hlong
    cases hcell.symm.trans he
  · push Not at hlong
    obtain ⟨j, hlast, hshort⟩ := hlong
    cases (cleanField_of_short hother hlast hshort).symm.trans he
    rfl

private theorem cleanRows_append {raws : List Fields} {rows : List Csv.Record}
    (h : List.Forall₂ (fun raw row => cleanRow raw = .ok row) raws rows) (rest : List Fields) :
    cleanRows (raws ++ rest) = (rows ++ (cleanRows rest).1, (cleanRows rest).2) := by
  induction h with
  | nil => rfl
  | cons hrow _ ih =>
    rw [List.cons_append, cleanRows, hrow]
    dsimp only
    rw [ih]
    rfl

theorem exists_cleanRows {records : List Csv.Record} (h : ∀ record ∈ records, ¬ TooShort names record) :
    ∃ rows, List.Forall₂ (IsRow names) records rows ∧
      ∀ rest, cleanRows (records.map (Csv.named names) ++ rest) =
        (rows ++ (cleanRows rest).1, (cleanRows rest).2) := by
  obtain ⟨rows, hrows, hall⟩ := exists_mapM fun record hrecord => exists_cleanRow (h record hrecord)
  refine ⟨rows, hall, cleanRows_append ?_⟩
  rw [List.forall₂_map_left_iff]
  exact mapM_eq_ok.mp hrows

private theorem convert_of_split {text : String} {before after : List Csv.Record}
    (hentries : entries (Csv.read text).1 = before ++ record :: after)
    (hbefore : ∀ r ∈ before, ¬ TooShort (headings (Csv.read text).1) r)
    (hshort : TooShort (headings (Csv.read text).1) record) :
    ∃ rows, List.Forall₂ (IsRow (headings (Csv.read text).1)) before rows ∧
      convert text = (header :: rows, some noText) := by
  obtain ⟨rows, hrows, hclean⟩ := exists_cleanRows hbefore
  refine ⟨rows, hrows, ?_⟩
  unfold convert
  dsimp only
  rw [rows_eq, hentries, List.map_append, hclean, List.map_cons, cleanRows, cleanRow_of_tooShort hshort,
    List.append_nil]
  rfl

private theorem convert_of_long {text : String} (hlimit : (Csv.read text).2 = false)
    (hlong : ∀ r ∈ entries (Csv.read text).1, ¬ TooShort (headings (Csv.read text).1) r) :
    ∃ rows, List.Forall₂ (IsRow (headings (Csv.read text).1)) (entries (Csv.read text).1) rows ∧
      convert text = (header :: rows, none) := by
  obtain ⟨rows, hrows, hclean⟩ := exists_cleanRows hlong
  refine ⟨rows, hrows, ?_⟩
  have hall := hclean []
  rw [List.append_nil, ← rows_eq] at hall
  unfold convert
  dsimp only
  rw [hall, hlimit, cleanRows, List.append_nil]
  rfl

structure Ready (content : Content) (w : World σ) : Prop where
  input : w.files.place source = .file content
  output : (∃ old, w.files.place target = .file old) ∨
    w.files.place target = .nothing ∧ w.files.canHold target = true

def leaving (rows : List Csv.Record) (w : World σ) : World σ :=
  { w.printing "[*] Processing CISA KEV data...\n" with
    files := w.files.put target (.text (Csv.write (header :: rows))) }

private theorem Ready.outcome_process {content : Content} {w : World σ} (h : Ready content w)
    {rows : List Csv.Record} {failure : Option Failure}
    (hconvert : convert (lenientText content) = (header :: rows, failure)) :
    Job.outcome process w = failure.elim
      (.ok (), (leaving rows w).printing s!"[+] Saved {rows.length} rows to {w.root}/{target}\n")
      fun e => (.error e, leaving rows w) := by
  let v := w.printing ("[*] Processing CISA KEV data..." ++ "\n")
  have hready : Ready content v := ⟨h.input, h.output⟩
  have hread : Returns (Job.readLenient source) v (lenientText content) v :=
    Job.returns_bind.mpr ⟨content, v, Job.contentOf_returns_iff.mpr ⟨hready.input, rfl⟩, rfl⟩
  unfold process
  rw [Job.outcome_bind_of_returns (Job.outcome_fileExists source w), Files.has_of_place h.input]
  change Job.outcome (Job.say "[*] Processing CISA KEV data..." >>= _) w = _
  rw [Job.outcome_bind_of_returns (Job.outcome_say _ w), Job.outcome_bind_of_returns hread, hconvert]
  dsimp only
  rw [Job.outcome_bind_of_returns (Job.writeText_of_place _ hready.output)]
  cases failure with
  | some e => rfl
  | none =>
    change (Except.ok (), (leaving rows w).printing
      ("[+] Saved " ++ toString rows.length ++ " rows to " ++ (w.root ++ "/" ++ target) ++ "\n")) = (_, _)
    simp only [String.append_assoc, toString]

/-- A run fails exactly if one of the records that are not blank is too short. It then leaves the rows of
those before the first such record. Otherwise there is a row for each record, and the run tells how many
they are. -/
theorem process_fails_iff {content : Content} {w : World σ} (hready : Ready content w)
    (hlimit : (Csv.read (lenientText content)).2 = false) :
    let table := (Csv.read (lenientText content)).1
    ((∃ e w', Fails process w e w') ↔ ∃ record ∈ entries table, TooShort (headings table) record) ∧
      (∀ before record after, entries table = before ++ record :: after →
        (∀ r ∈ before, ¬ TooShort (headings table) r) → TooShort (headings table) record →
        ∃ rows, List.Forall₂ (IsRow (headings table)) before rows ∧
          Fails process w noText (leaving rows w)) ∧
      ((∀ record ∈ entries table, ¬ TooShort (headings table) record) →
        ∃ rows, List.Forall₂ (IsRow (headings table)) (entries table) rows ∧
          Returns process w () ((leaving rows w).printing
            s!"[+] Saved {(entries table).length} rows to {w.root}/{target}\n")) := by
  intro table
  have hfails (before : List Csv.Record) (record : Csv.Record) (after : List Csv.Record)
      (hentries : entries table = before ++ record :: after)
      (hbefore : ∀ r ∈ before, ¬ TooShort (headings table) r)
      (hshort : TooShort (headings table) record) :
      ∃ rows, List.Forall₂ (IsRow (headings table)) before rows ∧
        Fails process w noText (leaving rows w) := by
    obtain ⟨rows, hrows, hconvert⟩ := convert_of_split hentries hbefore hshort
    exact ⟨rows, hrows, hready.outcome_process hconvert⟩
  have hreturns (hlong : ∀ record ∈ entries table, ¬ TooShort (headings table) record) :
      ∃ rows, List.Forall₂ (IsRow (headings table)) (entries table) rows ∧
        Returns process w () ((leaving rows w).printing
          s!"[+] Saved {(entries table).length} rows to {w.root}/{target}\n") := by
    obtain ⟨rows, hrows, hconvert⟩ := convert_of_long hlimit hlong
    refine ⟨rows, hrows, ?_⟩
    rw [hrows.length_eq]
    exact hready.outcome_process hconvert
  refine ⟨⟨fun hrun => ?_, fun hsome => ?_⟩, hfails, hreturns⟩
  · by_contra hnone
    push Not at hnone
    obtain ⟨rows, -, hreturn⟩ := hreturns hnone
    exact Job.exists_fails_iff.mp hrun ⟨_, _, hreturn⟩
  · classical
    obtain ⟨record, hrecord, hshort⟩ := hsome
    obtain ⟨first, before, after, hbefore, hfirst, hentries, -⟩ :=
      List.exists_of_eraseP (p := fun r => decide (TooShort (headings table) r)) hrecord
        (decide_eq_true hshort)
    obtain ⟨rows, -, hfail⟩ := hfails before first after hentries
      (fun r hr hr' => hbefore r hr (decide_eq_true hr')) (of_decide_eq_true hfirst)
    exact ⟨_, _, hfail⟩

/-- The name of a column stands twice. Of two records with a blank one between them, the second has a field
under the first of both names but none under the second. -/
theorem process_fails_repeated_name :
    let w : World Steady :=
      { outside := ⟨.rows [], .content .null⟩
        files := ⟨[(source, .text "cveID,product,cveID\nA,\"p\n\",C1 \n\nB,q\n"), (target, .text "")], []⟩ }
    Ready (.text "cveID,product,cveID\nA,\"p\n\",C1 \n\nB,q\n") w ∧
      ∃ rows, List.Forall₂ (IsRow ["cveID", "product", "cveID"]) [["A", "p\n", "C1 "]] rows ∧
        Fails process w noText (leaving rows w) := by
  intro w
  have hready : Ready (.text "cveID,product,cveID\nA,\"p\n\",C1 \n\nB,q\n") w :=
    ⟨Files.place_eq_file_iff.mpr ⟨by decide +kernel, rfl⟩,
      .inl ⟨.text "", Files.place_eq_file_iff.mpr ⟨by decide +kernel, rfl⟩⟩⟩
  have hread : Csv.read (lenientText (.text "cveID,product,cveID\nA,\"p\n\",C1 \n\nB,q\n")) =
      ([["cveID", "product", "cveID"], ["A", "p\n", "C1 "], [], ["B", "q"]], false) := by
    decide +kernel
  obtain ⟨-, hfails, -⟩ := process_fails_iff hready (congrArg Prod.snd hread)
  rw [hread] at hfails
  refine ⟨hready, hfails [["A", "p\n", "C1 "]] ["B", "q"] [] rfl ?_ ?_⟩
  · intro r hr
    cases List.mem_singleton.mp hr
    exact not_tooShort_of_le le_rfl
  · exact ⟨("cveID", "cve_id"), List.mem_cons_self, 2, ⟨["cveID", "product"], [], rfl, rfl, List.not_mem_nil⟩,
      le_rfl⟩

end ThreatAtlas.Feed.Vulnerabilities
