import ThreatAtlas.Csv
import ThreatAtlas.Proofs.Value

/-!
# Reading back what was written

Records are written with line ends of two characters, which are unified when the text is read. The
reader then gives back the records that were written, if their fields are fit: a carriage return in a
field would become a line feed, and a field that is too long would end the reading.
-/

namespace ThreatAtlas

namespace Text

theorem unifyLineEnds_append {before : List Char} (hbefore : '\r' ∉ before) (rest : List Char) :
    unifyLineEnds (before ++ rest) = before ++ unifyLineEnds rest := by
  induction before with
  | nil => rfl
  | cons c cs ih =>
    rw [List.mem_cons, not_or] at hbefore
    rw [List.cons_append, List.cons_append, ← ih hbefore.2, unifyLineEnds]
    · rintro _ rfl
      exact absurd rfl hbefore.1
    · rintro rfl
      exact absurd rfl hbefore.1

theorem return_notMem_unifyLineEnds (cs : List Char) : '\r' ∉ unifyLineEnds cs := by
  fun_induction unifyLineEnds cs with
  | case1 cs ih => simpa using ih
  | case2 cs _ ih => simpa using ih
  | case3 c cs _ hc ih =>
    rw [List.mem_cons, not_or]
    exact ⟨fun h => hc h.symm, ih⟩
  | case4 => exact List.not_mem_nil

end Text

namespace Csv

/-- A field that is read back as it was written. -/
structure Fit (field : String) : Prop where
  noReturn : '\r' ∉ field.toList
  short : field.length ≤ fieldLimit

instance (field : String) : Decidable (Fit field) :=
  decidable_of_iff ('\r' ∉ field.toList ∧ field.length ≤ fieldLimit)
    ⟨fun h => ⟨h.1, h.2⟩, fun h => ⟨h.noReturn, h.short⟩⟩

variable {field name : String} {record header : Record} {records : List Record}
  {pairs : List (String × Value)} {i : ℕ}

theorem Fit.of_sublist {part : String} (h : Fit field) (hpart : part.toList.Sublist field.toList) :
    Fit part := by
  refine ⟨fun hmem => h.noReturn (hpart.subset hmem), ?_⟩
  have hlength := hpart.length_le
  rw [String.length_toList, String.length_toList] at hlength
  exact hlength.trans h.short

namespace Scan

structure Fresh (s : Scan) : Prop where
  place : s.place = .recordStart ∨ s.place = .fieldStart
  chars : s.chars = []
  size : s.size = 0
  overflow : s.overflow = false

def filled (s : Scan) (field : String) (place : Place) : Scan :=
  { s with place, chars := field.toList.reverse, size := field.length }

variable {s : Scan}

theorem add_of_lt (c : Char) (place : Place) (h : s.size < fieldLimit) :
    s.add c place = { s with place, chars := c :: s.chars, size := s.size + 1 } :=
  if_pos h

/-- The characters that stand for themselves outside quotes. -/
def IsPlain (c : Char) : Prop :=
  c ≠ '\n' ∧ c ≠ ',' ∧ c ≠ '"'

theorem outside_of_isPlain {c : Char} (hc : IsPlain c) : s.outside c = s.add c .plain := by
  unfold outside
  rw [if_neg (by simpa using hc.1), if_neg (by simpa using hc.2.1)]

theorem step_of_isPlain {c : Char} (hc : IsPlain c) (hover : s.overflow = false)
    (hplace : s.place = .recordStart ∨ s.place = .fieldStart ∨ s.place = .plain) :
    s.step c = s.add c .plain := by
  have hquote : ¬ (c == '"') = true := by simpa using hc.2.2
  have hfeed : ¬ (c == '\n') = true := by simpa using hc.1
  unfold step
  rw [hover, if_neg Bool.false_ne_true]
  rcases hplace with h | h | h
  · rw [h]
    dsimp only
    rw [if_neg hfeed, if_neg hquote, outside_of_isPlain hc]
  · rw [h]
    dsimp only
    rw [if_neg hquote, outside_of_isPlain hc]
  · rw [h]
    exact outside_of_isPlain hc

theorem foldl_step_plain {cs : List Char} (hcs : ∀ c ∈ cs, IsPlain c) (hplace : s.place = .plain)
    (hover : s.overflow = false) (hroom : s.size + cs.length ≤ fieldLimit) :
    cs.foldl step s = { s with chars := cs.reverse ++ s.chars, size := s.size + cs.length } := by
  induction cs generalizing s with
  | nil => rfl
  | cons c cs ih =>
    rw [List.length_cons] at hroom
    rw [List.foldl_cons, step_of_isPlain (hcs c (by simp)) hover (.inr (.inr hplace)),
      add_of_lt c _ (by omega), ← hplace]
    rw [ih (s := { s with chars := c :: s.chars, size := s.size + 1 })
      (fun d hd => hcs d (by simp [hd])) hplace hover (by dsimp only; omega)]
    simp only [List.reverse_cons, List.append_assoc, List.singleton_append, List.length_cons,
      Nat.add_assoc, Nat.add_comm 1]

def doubled (cs : List Char) : List Char :=
  cs.flatMap fun c => if c == '"' then ['"', '"'] else [c]

theorem foldl_step_doubled (cs : List Char) (hplace : s.place = .quoted) (hover : s.overflow = false)
    (hroom : s.size + cs.length ≤ fieldLimit) :
    (doubled cs).foldl step s = { s with chars := cs.reverse ++ s.chars, size := s.size + cs.length } := by
  induction cs generalizing s with
  | nil => rfl
  | cons c cs ih =>
    rw [List.length_cons] at hroom
    have hone : (if c == '"' then ['"', '"'] else [c]).foldl step s =
        { s with chars := c :: s.chars, size := s.size + 1 } := by
      have hlt : s.size < fieldLimit := by omega
      by_cases hc : c = '"'
      · simp [step, hplace, hover, hc, add_of_lt, hlt]
      · simp [step, hplace, hover, hc, add_of_lt, hlt]
    rw [doubled, List.flatMap_cons, List.foldl_append, hone,
      show cs.flatMap _ = doubled cs from rfl]
    rw [ih (s := { s with chars := c :: s.chars, size := s.size + 1 }) hplace hover
      (by dsimp only; omega)]
    simp only [List.reverse_cons, List.append_assoc, List.singleton_append, List.length_cons,
      Nat.add_assoc, Nat.add_comm 1]

/-- A written field is read as it was, and is not ended by anything of its own. -/
theorem foldl_step_writeField (hs : s.Fresh) {field : String} (hshort : field.length ≤ fieldLimit) :
    ∃ place, (writeField field).toList.foldl step s = s.filled field place ∧ place ≠ .quoted ∧
      (place = .recordStart → field = "" ∧ s.place = .recordStart) := by
  rw [← String.length_toList] at hshort
  obtain ⟨place, chars, size, fields, records, overflow⟩ := s
  obtain ⟨hplace, rfl, rfl, rfl⟩ := hs
  unfold writeField
  split
  · refine ⟨.afterQuote, ?_, nofun, nofun⟩
    have hopen : step ⟨place, [], 0, fields, records, false⟩ '"' =
        ⟨.quoted, [], 0, fields, records, false⟩ := by
      rcases hplace with h | h <;> simp only at h <;> subst h <;> rfl
    rw [String.toList_ofList, List.cons_append, List.foldl_cons, hopen, List.foldl_append,
      show field.toList.flatMap _ = doubled field.toList from rfl,
      foldl_step_doubled _ rfl rfl (by simpa using hshort)]
    simp [step, filled, String.length_toList]
  case isFalse hquotes =>
    have hplain : ∀ c ∈ field.toList, IsPlain c := by
      intro c hc
      simp only [needsQuotes, List.any_eq_true, not_exists, not_and, Bool.or_eq_true, beq_iff_eq,
        not_or] at hquotes
      obtain ⟨⟨⟨hcomma, hquote⟩, _⟩, hfeed⟩ := hquotes c hc
      exact ⟨hfeed, hcomma, hquote⟩
    cases hchars : field.toList with
    | nil =>
      obtain rfl : field = "" := String.toList_eq_nil_iff.mp hchars
      refine ⟨place, rfl, ?_, fun h => ⟨rfl, h⟩⟩
      rcases hplace with h | h <;> simp only at h <;> subst h <;> nofun
    | cons c cs =>
      refine ⟨.plain, ?_, nofun, nofun⟩
      rw [hchars] at hplain hshort
      rw [List.length_cons] at hshort
      rw [List.foldl_cons, step_of_isPlain (hplain c (by simp)) rfl (by tauto),
        add_of_lt c _ (by simp only; omega),
        foldl_step_plain (fun d hd => hplain d (by simp [hd])) rfl rfl (by simp only; omega)]
      simp only [filled, hchars, ← String.length_toList, List.length_cons, List.reverse_cons,
        Nat.zero_add, Nat.add_comm]

theorem step_filled_comma (s : Scan) (field : String) {place : Place} (hover : s.overflow = false)
    (hplace : place ≠ .quoted) :
    (s.filled field place).step ',' =
      { s with place := .fieldStart, chars := [], size := 0, fields := field :: s.fields } := by
  cases place with
  | quoted => exact absurd rfl hplace
  | _ => simp [step, filled, hover, outside, endField]

theorem step_filled_feed (s : Scan) (field : String) {place : Place} (hover : s.overflow = false)
    (hplace : place ≠ .quoted) (hstart : place ≠ .recordStart) :
    (s.filled field place).step '\n' = { records := (s.fields.reverse ++ [field]) :: s.records } := by
  cases place with
  | quoted => exact absurd rfl hplace
  | recordStart => exact absurd rfl hstart
  | _ => simp [step, filled, hover, outside, endField, endRecord]

end Scan

def line (record : Record) : List Char :=
  if record = [""] then ['"', '"'] else [','].intercalate (record.map fun field => (writeField field).toList)

theorem toList_writeRecord (record : Record) : (writeRecord record).toList = line record ++ ['\r', '\n'] := by
  unfold writeRecord line
  rw [String.toList_append]
  by_cases h : record = [""]
  · rw [if_pos h, if_pos (beq_iff_eq.mpr h)]
    rfl
  · rw [if_neg h, if_neg (by simpa using h), String.toList_intercalate, List.map_map]
    rfl

theorem foldl_step_fields {first : String} {fields : List String} {s : Scan} (hs : s.Fresh)
    (hshort : ∀ field ∈ first :: fields, field.length ≤ fieldLimit)
    (hstart : s.place = .recordStart → first :: fields ≠ [""]) :
    ([','].intercalate ((first :: fields).map fun field => (writeField field).toList) ++ ['\n']).foldl
      Scan.step s = { records := (s.fields.reverse ++ first :: fields) :: s.records } := by
  induction fields generalizing first s with
  | nil =>
    obtain ⟨place, hread, hquoted, hempty⟩ := Scan.foldl_step_writeField hs (hshort first (by simp))
    have hplace : place ≠ .recordStart := by
      intro h
      obtain ⟨rfl, hrecord⟩ := hempty h
      exact hstart hrecord rfl
    rw [List.map_singleton, List.intercalate_singleton, List.foldl_append, hread, List.foldl_cons,
      List.foldl_nil, Scan.step_filled_feed s first hs.overflow hquoted hplace]
  | cons second fields ih =>
    obtain ⟨place, hread, hquoted, _⟩ := Scan.foldl_step_writeField hs (hshort first (by simp))
    rw [List.map_cons, List.map_cons, List.intercalate_cons_cons, List.append_assoc,
      List.append_assoc, List.foldl_append, hread, List.foldl_append, List.foldl_cons, List.foldl_nil,
      Scan.step_filled_comma s first hs.overflow hquoted]
    have hfresh : Scan.Fresh
        { s with place := .fieldStart, chars := [], size := 0, fields := first :: s.fields } :=
      ⟨.inr rfl, rfl, rfl, hs.overflow⟩
    have hrest := ih hfresh (fun field h => hshort field (List.mem_cons_of_mem first h)) nofun
    rw [List.map_cons] at hrest
    rw [hrest]
    simp only [List.reverse_cons, List.append_assoc, List.singleton_append]

theorem foldl_step_line (hshort : ∀ field ∈ record, field.length ≤ fieldLimit) (records : List Record) :
    (line record ++ ['\n']).foldl Scan.step { records } = { records := record :: records } := by
  unfold line
  by_cases h : record = [""]
  · rw [if_pos h, h]
    rfl
  · rw [if_neg h]
    cases record with
    | nil => rfl
    | cons first fields => exact foldl_step_fields ⟨.inl rfl, rfl, rfl, rfl⟩ hshort fun _ => h

theorem return_notMem_writeField (h : '\r' ∉ field.toList) : '\r' ∉ (writeField field).toList := by
  unfold writeField
  split
  · rw [String.toList_ofList]
    simp only [List.cons_append, List.mem_cons, List.mem_append, List.mem_flatMap, not_or]
    refine ⟨by decide, ?_, by decide⟩
    rintro ⟨c, hc, hmem⟩
    split at hmem
    · revert hmem
      decide
    · rw [List.mem_singleton] at hmem
      exact h (hmem ▸ hc)
  · exact h

theorem return_notMem_intercalate {parts : List (List Char)} (h : ∀ part ∈ parts, '\r' ∉ part) :
    '\r' ∉ [','].intercalate parts := by
  induction parts with
  | nil => exact List.not_mem_nil
  | cons part parts ih =>
    cases parts with
    | nil =>
      rw [List.intercalate_singleton]
      exact h part (by simp)
    | cons next parts =>
      rw [List.intercalate_cons_cons, List.mem_append, List.mem_append, not_or, not_or]
      exact ⟨⟨h part (by simp), by decide⟩, ih fun p hp => h p (by simp [hp])⟩

theorem return_notMem_line (h : ∀ field ∈ record, '\r' ∉ field.toList) : '\r' ∉ line record := by
  unfold line
  split
  · decide
  · apply return_notMem_intercalate
    intro part hpart
    obtain ⟨field, hfield, rfl⟩ := List.mem_map.mp hpart
    exact return_notMem_writeField (h field hfield)

theorem foldl_step_write (hfit : ∀ r ∈ records, ∀ field ∈ r, Fit field) (before : List Record) :
    (Text.unifyLineEnds (write records).toList).foldl Scan.step { records := before } =
      { records := records.reverse ++ before } := by
  induction records generalizing before with
  | nil => rfl
  | cons record records ih =>
    have hrecord := hfit record (by simp)
    have htext : (write (record :: records)).toList =
        line record ++ '\r' :: '\n' :: (write records).toList := by
      rw [write, String.toList_join, List.map_cons, List.flatMap_cons, toList_writeRecord,
        ← String.toList_join, ← write, List.append_assoc]
      rfl
    rw [htext, Text.unifyLineEnds_append (return_notMem_line fun f hf => (hrecord f hf).noReturn),
      Text.unifyLineEnds, ← List.singleton_append, ← List.append_assoc, List.foldl_append,
      foldl_step_line (fun f hf => (hrecord f hf).short),
      ih (fun r hr => hfit r (by simp [hr])), List.reverse_cons, List.append_assoc, List.singleton_append]

/-- What is written of fit fields is read back, to its end. -/
theorem read_write (hfit : ∀ r ∈ records, ∀ field ∈ r, Fit field) :
    read (String.ofList (Text.unifyLineEnds (write records).toList)) = (records, false) := by
  unfold read
  rw [String.toList_ofList, foldl_step_write hfit]
  simp [Scan.finish]

/-! Rows under the names of a header -/

theorem set_of_notMem {fields : Fields} (h : name ∉ fields.map Prod.fst) (v : Value) :
    fields.set name v = fields ++ [(name, v)] := by
  induction fields with
  | nil => rfl
  | cons field fields ih =>
    rw [List.map_cons, List.mem_cons, not_or] at h
    rw [Fields.set, if_neg (by simpa using Ne.symm h.1), ih h.2, List.cons_append]

theorem foldl_set (before : Fields) (h : ((before ++ pairs).map Prod.fst).Nodup) :
    pairs.foldl (fun (fields : Fields) (name, v) => fields.set name v) before = before ++ pairs := by
  induction pairs generalizing before with
  | nil => exact (List.append_nil before).symm
  | cons pair pairs ih =>
    obtain ⟨name, v⟩ := pair
    have hnew : name ∉ before.map Prod.fst := by
      intro hmem
      rw [List.map_append, List.nodup_append] at h
      exact h.2.2 _ hmem _ (by simp) rfl
    rw [List.foldl_cons]
    dsimp only
    rw [set_of_notMem hnew, ih _ (by simpa using h), List.append_assoc, List.singleton_append]

theorem ofPairs_of_nodup (h : (pairs.map Prod.fst).Nodup) : Fields.ofPairs pairs = pairs :=
  foldl_set [] h

def surplus (fields : List String) : Fields :=
  if fields.isEmpty then [] else [("null", .texts fields)]

theorem named_eq (hnodup : header.Nodup) (hnull : "null" ∉ header) (hlength : header.length ≤ record.length) :
    named header record =
      header.zip (record.map Value.text) ++ surplus (record.drop header.length) := by
  have hnames : (header.zip (record.map Value.text)).map Prod.fst = header :=
    List.map_fst_zip (by simpa using hlength)
  unfold named surplus
  rw [Nat.sub_eq_zero_of_le hlength, List.replicate_zero, List.append_nil]
  dsimp only
  rw [ofPairs_of_nodup (by rwa [hnames])]
  split
  · exact (List.append_nil _).symm
  · exact set_of_notMem (by rwa [hnames]) _

theorem value_of_mem_set {fields : Fields} {v : Value} {entry : String × Value}
    (h : entry ∈ fields.set name v) : entry.2 = v ∨ entry ∈ fields := by
  induction fields with
  | nil =>
    rw [Fields.set, List.mem_singleton] at h
    exact .inl (congrArg Prod.snd h)
  | cons field fields ih =>
    rw [Fields.set] at h
    split at h
    · rcases List.mem_cons.mp h with rfl | h
      · exact .inl rfl
      · exact .inr (List.mem_cons_of_mem _ h)
    · rcases List.mem_cons.mp h with rfl | h
      · exact .inr List.mem_cons_self
      · exact (ih h).imp_right (List.mem_cons_of_mem _)

theorem value_of_mem_foldl_set {before : Fields} {entry : String × Value}
    (h : entry ∈ pairs.foldl (fun (fields : Fields) (name, v) => fields.set name v) before) :
    entry ∈ before ∨ ∃ pair ∈ pairs, entry.2 = pair.2 := by
  induction pairs generalizing before with
  | nil => exact .inl h
  | cons pair pairs ih =>
    rcases ih h with hset | ⟨pair', hpair', hvalue⟩
    · rcases value_of_mem_set hset with hvalue | hbefore
      · exact .inr ⟨pair, List.mem_cons_self, hvalue⟩
      · exact .inl hbefore
    · exact .inr ⟨pair', List.mem_cons_of_mem _ hpair', hvalue⟩

theorem mem_of_mem_named {s : String} (h : (name, Value.text s) ∈ named header record) : s ∈ record := by
  have hcells : (name, Value.text s) ∈ Fields.ofPairs (header.zip
      (record.map Value.text ++ List.replicate (header.length - record.length) .null)) := by
    unfold named at h
    dsimp only at h
    split at h
    · exact h
    · exact (value_of_mem_set h).resolve_left nofun
  rcases value_of_mem_foldl_set hcells with hnone | ⟨pair, hpair, hvalue⟩
  · cases hnone
  · have hcell := (List.of_mem_zip hpair).2
    rw [← hvalue, List.mem_append] at hcell
    rcases hcell with hcell | hcell
    · obtain ⟨field, hfield, heq⟩ := List.mem_map.mp hcell
      cases heq
      exact hfield
    · cases List.eq_of_mem_replicate hcell

def LastColumn (header : Record) (name : String) (i : ℕ) : Prop :=
  ∃ before after, header = before ++ name :: after ∧ before.length = i ∧ name ∉ after

theorem LastColumn.lt_length (h : LastColumn header name i) : i < header.length := by
  obtain ⟨before, after, rfl, rfl, -⟩ := h
  rw [List.length_append, List.length_cons]
  omega

theorem exists_lastColumn (h : name ∈ header) : ∃ i, LastColumn header name i := by
  obtain ⟨after, before, hsplit, hlast⟩ := List.eq_append_cons_of_mem (List.mem_reverse.mpr h)
  refine ⟨before.length, before.reverse, after.reverse, ?_, List.length_reverse, by simpa using hlast⟩
  rw [← List.reverse_reverse header, hsplit]
  simp

theorem lookup_ofPairs (pairs : List (String × Value)) (name : String) :
    (Fields.ofPairs pairs).lookup name = pairs.reverse.lookup name := by
  induction pairs using List.reverseRecOn with
  | nil => rfl
  | append_singleton pairs pair ih =>
    rw [Fields.ofPairs, List.foldl_append, List.reverse_append]
    change (Fields.set (Fields.ofPairs pairs) pair.1 pair.2).lookup name =
      (pair :: pairs.reverse).lookup name
    by_cases hname : name = pair.1
    · rw [hname, Fields.lookup_set_self, List.lookup_cons, beq_self_eq_true]
    · rw [Fields.lookup_set_of_ne _ _ hname, ih, List.lookup_cons, beq_false_of_ne hname]

/-- The cells under the names of a header: a record that is too short is filled up with nulls. -/
def cells (header record : Record) : List Value :=
  record.map Value.text ++ List.replicate (header.length - record.length) .null

theorem length_le_cells (header record : Record) : header.length ≤ (cells header record).length := by
  rw [cells, List.length_append, List.length_map, List.length_replicate]
  omega

theorem getElem?_cells (h : i < header.length) (record : Record) :
    (cells header record)[i]? = some (record[i]?.elim .null .text) := by
  unfold cells
  by_cases hi : i < record.length
  · rw [List.getElem?_append_left (by simpa using hi), List.getElem?_map, List.getElem?_eq_getElem hi]
    rfl
  · rw [List.getElem?_append_right (by simpa using hi), List.getElem?_eq_none (not_lt.mp hi),
      List.getElem?_replicate, if_pos (by simp; omega)]
    rfl

theorem lookup_named (hnull : name ≠ "null") (header record : Record) :
    (named header record).lookup name = (header.zip (cells header record)).reverse.lookup name := by
  rw [← lookup_ofPairs]
  unfold named
  dsimp only
  split
  · rfl
  · exact Fields.lookup_set_of_ne _ _ hnull

theorem lookup_reverse_zip {names : Record} (h : name ∉ names) (vs : List Value) :
    (names.zip vs).reverse.lookup name = none := by
  rw [List.lookup_eq_none_iff]
  intro pair hpair
  rw [bne_iff_ne]
  intro hname
  exact h (hname ▸ (List.of_mem_zip (List.mem_reverse.mp hpair)).1)

theorem lookup_named_of_notMem (h : name ∉ header) (hnull : name ≠ "null") (record : Record) :
    (named header record).lookup name = none := by
  rw [lookup_named hnull, lookup_reverse_zip h]

/-- Under a name stands the field of its last column, or null if the record does not reach that. -/
theorem LastColumn.lookup_named (h : LastColumn header name i) (hnull : name ≠ "null") (record : Record) :
    (named header record).lookup name = some (record[i]?.elim .null .text) := by
  have hlt := h.lt_length
  obtain ⟨before, after, hheader, hi, hlast⟩ := h
  have hlong := hlt.trans_le (length_le_cells header record)
  have hcell := getElem?_cells hlt record
  rw [List.getElem?_eq_getElem hlong, Option.some.injEq] at hcell
  have hcells : cells header record = (cells header record).take i ++
      record[i]?.elim .null .text :: (cells header record).drop (i + 1) := by
    rw [← hcell, ← List.drop_eq_getElem_cons hlong, List.take_append_drop]
  rw [Csv.lookup_named hnull, hcells]
  nth_rewrite 1 [hheader]
  rw [List.zip_append (by rw [hi, List.length_take, min_eq_left hlong.le]), List.zip_cons_cons,
    List.reverse_append, List.reverse_cons, List.append_assoc, List.lookup_append,
    lookup_reverse_zip hlast, List.singleton_append, List.lookup_cons, beq_self_eq_true]
  rfl

/-- Names for the fields of a record, which are read back and told apart. -/
structure IsHeader (header : Record) : Prop where
  nonempty : header ≠ []
  nodup : header.Nodup
  noNull : "null" ∉ header
  fit : ∀ field ∈ header, Fit field

/-- The rows of a written table are read back under the names of its header. -/
theorem readRows_write (hheader : IsHeader header) (hfit : ∀ r ∈ records, ∀ field ∈ r, Fit field)
    (hlength : ∀ r ∈ records, header.length ≤ r.length) :
    readRows (String.ofList (Text.unifyLineEnds (write (header :: records)).toList)) =
      .ok (records.map fun r =>
        header.zip (r.map Value.text) ++ surplus (r.drop header.length)) := by
  have hall : ∀ r ∈ header :: records, ∀ field ∈ r, Fit field := by
    intro r hr
    rcases List.mem_cons.mp hr with rfl | hr
    · exact hheader.fit
    · exact hfit r hr
  have hkept : records.filter (!·.isEmpty) = records := by
    rw [List.filter_eq_self]
    intro r hr
    have hpos := (List.length_pos_iff.mpr hheader.nonempty).trans_le (hlength r hr)
    simpa using List.length_pos_iff.mp hpos
  unfold readRows
  rw [read_write hall]
  dsimp only [rows]
  rw [hkept, List.map_congr_left]
  intro r hr
  exact named_eq hheader.nodup hheader.noNull (hlength r hr)

/-! What the reader gives is fit to be written -/

namespace Scan

structure Tidy (s : Scan) : Prop where
  chars : '\r' ∉ s.chars
  size : s.chars.length = s.size
  room : s.size ≤ fieldLimit
  fields : ∀ field ∈ s.fields, Fit field
  records : ∀ record ∈ s.records, ∀ field ∈ record, Fit field

variable {s : Scan} {c : Char}

theorem Tidy.place (hs : s.Tidy) (place : Place) : Tidy { s with place } :=
  ⟨hs.chars, hs.size, hs.room, hs.fields, hs.records⟩

theorem Tidy.add (hs : s.Tidy) (hc : c ≠ '\r') (place : Place) : (s.add c place).Tidy := by
  unfold Scan.add
  split
  case isTrue hroom =>
    refine ⟨?_, congrArg (· + 1) hs.size, hroom, hs.fields, hs.records⟩
    rw [List.mem_cons, not_or]
    exact ⟨hc.symm, hs.chars⟩
  case isFalse => exact ⟨hs.chars, hs.size, hs.room, hs.fields, hs.records⟩

theorem Tidy.endField (hs : s.Tidy) : s.endField.Tidy := by
  refine ⟨List.not_mem_nil, rfl, Nat.zero_le _, ?_, hs.records⟩
  intro field hfield
  rcases List.mem_cons.mp hfield with rfl | hfield
  · constructor
    · rw [String.toList_ofList, List.mem_reverse]
      exact hs.chars
    · rw [← String.length_toList, String.toList_ofList, List.length_reverse, hs.size]
      exact hs.room
  · exact hs.fields field hfield

theorem Tidy.endRecord (hs : s.Tidy) : s.endRecord.Tidy := by
  refine ⟨hs.chars, hs.size, hs.room, by simp [Scan.endRecord], ?_⟩
  intro record hrecord
  rcases List.mem_cons.mp hrecord with rfl | hrecord
  · intro field hfield
    exact hs.fields field (List.mem_reverse.mp hfield)
  · exact hs.records record hrecord

theorem Tidy.outside (hs : s.Tidy) (hc : c ≠ '\r') : (s.outside c).Tidy := by
  unfold Scan.outside
  split
  · exact hs.endField.endRecord
  · split
    · exact hs.endField
    · exact hs.add hc .plain

theorem Tidy.step (hs : s.Tidy) (hc : c ≠ '\r') : (s.step c).Tidy := by
  unfold Scan.step
  split
  · exact hs
  · split
    · split
      · exact hs.endRecord
      · split
        · exact hs.place .quoted
        · exact hs.outside hc
    · split
      · exact hs.place .quoted
      · exact hs.outside hc
    · exact hs.outside hc
    · split
      · exact hs.place .afterQuote
      · exact hs.add hc .quoted
    · split
      · exact hs.add hc .quoted
      · exact hs.outside hc

theorem Tidy.foldl_step (hs : s.Tidy) {cs : List Char} (hcs : '\r' ∉ cs) : (cs.foldl Scan.step s).Tidy := by
  induction cs generalizing s with
  | nil => exact hs
  | cons c cs ih =>
    rw [List.mem_cons, not_or] at hcs
    exact ih (hs.step (Ne.symm hcs.1)) hcs.2

theorem Tidy.finish (hs : s.Tidy) : s.finish.Tidy := by
  unfold Scan.finish
  split
  · exact hs
  · exact hs.endField.endRecord

end Scan

theorem fit_of_mem_read {text : String} (htext : '\r' ∉ text.toList) (hrecord : record ∈ (read text).1)
    (hfield : field ∈ record) : Fit field := by
  have hstart : Scan.Tidy {} := ⟨by simp, rfl, Nat.zero_le _, by simp, by simp⟩
  exact (hstart.foldl_step htext).finish.records record (List.mem_reverse.mp hrecord) field hfield

theorem length_write_cons (record : Record) (records : List Record) :
    (write (record :: records)).length = (writeRecord record).length + (write records).length := by
  rw [write, List.map_cons, String.join_cons, String.length_append]
  rfl

theorem two_le_length_writeRecord (record : Record) : 2 ≤ (writeRecord record).length := by
  rw [writeRecord, String.length_append]
  exact Nat.le_add_left 2 _

/-- A table from which records are left out is written shorter. -/
theorem eq_of_write_eq {records' : List Record} (h : records.Sublist records')
    (hwrite : write records = write records') : records = records' := by
  have hlength {some all : List Record} (hsub : some.Sublist all) :
      (write some).length + all.length ≤ (write all).length + some.length := by
    induction hsub with
    | slnil => exact le_rfl
    | cons record _ ih =>
      have := two_le_length_writeRecord record
      rw [length_write_cons, List.length_cons]
      omega
    | cons_cons record _ ih =>
      rw [length_write_cons, length_write_cons, List.length_cons, List.length_cons]
      omega
  refine h.eq_of_length_le ?_
  have := hlength h
  rw [hwrite] at this
  omega

end Csv

end ThreatAtlas
