import ThreatAtlas.Proofs.Toolbox.FailedQueries
import ThreatAtlas.Proofs.Toolbox.Guard

/-!
# Labels as names in a query

Two tools put a label between back quotes. The query language reads such a name with every doubled
quote standing for one, and it ends at the first quote that is not doubled. The tools double none, so a
label is read as itself exactly if there is no back quote in it; and behind a back quote a label may hold
any clauses, which are sent without asking whether they only read.
-/

namespace ThreatAtlas.Toolbox

open Job (outcome Sends)

/-- Reads a name from behind its opening quote: the name, in which a doubled quote stands for one, and
the text behind its closing quote. -/
def readName : List Char → Option (List Char × List Char)
  | [] => none
  | '\x60' :: '\x60' :: rest => (readName rest).map (Prod.map ('\x60' :: ·) id)
  | '\x60' :: rest => some ([], rest)
  | c :: rest => (readName rest).map (Prod.map (c :: ·) id)

def firstName (query : String) : Option (List Char × List Char) :=
  readName (query.toList.dropWhile (· ≠ '\x60')).tail

/-- A name as the query language wants it between quotes: with its own quotes doubled. -/
def doubled (name : List Char) : List Char :=
  name.flatMap fun c => if c = '\x60' then ['\x60', '\x60'] else [c]

variable {name rest text : List Char}

private theorem readName_close (h : rest.head? ≠ some '\x60') :
    readName ('\x60' :: rest) = some ([], rest) := by
  rw [readName]
  rintro more rfl
  exact h rfl

private theorem readName_cons {c : Char} (h : c ≠ '\x60') :
    readName (c :: rest) = (readName rest).map (Prod.map (c :: ·) id) := by
  rw [readName]
  · exact fun _ hc _ => h hc
  · exact h

private theorem doubled_cons_quote : doubled ('\x60' :: name) = '\x60' :: '\x60' :: doubled name :=
  rfl

private theorem doubled_cons {c : Char} (h : c ≠ '\x60') : doubled (c :: name) = c :: doubled name := by
  rw [doubled, List.flatMap_cons, if_neg h]
  rfl

private theorem readName_doubled (h : rest.head? ≠ some '\x60') :
    readName (doubled name ++ '\x60' :: rest) = some (name, rest) := by
  induction name with
  | nil => exact readName_close h
  | cons c name ih =>
    by_cases hc : c = '\x60'
    · subst hc
      rw [doubled_cons_quote, List.cons_append, List.cons_append, readName, ih]
      rfl
    · rw [doubled_cons hc, List.cons_append, readName_cons hc, ih]
      rfl

private theorem eq_of_readName (h : readName text = some (name, rest)) :
    text = doubled name ++ '\x60' :: rest ∧ rest.head? ≠ some '\x60' := by
  fun_induction readName text generalizing name with
  | case1 => cases h
  | case2 text ih =>
    obtain ⟨name, hread, rfl⟩ := map_eq_some_read.mp h
    obtain ⟨rfl, hrest⟩ := ih hread
    exact ⟨rfl, hrest⟩
  | case3 text hsingle =>
    cases h
    refine ⟨rfl, fun hhead => ?_⟩
    obtain ⟨more, rfl⟩ := List.head?_eq_some_iff.mp hhead
    exact hsingle more rfl
  | case4 c text _ hc ih =>
    obtain ⟨name, hread, rfl⟩ := map_eq_some_read.mp h
    obtain ⟨rfl, hrest⟩ := ih hread
    exact ⟨by rw [doubled_cons hc, List.cons_append], hrest⟩

/-- A text between quotes is read as a name up to the second of them exactly if it is that name with its
quotes doubled. -/
theorem readName_append_iff (h : rest.head? ≠ some '\x60') :
    readName (text ++ '\x60' :: rest) = some (name, rest) ↔ text = doubled name := by
  constructor
  · intro hread
    exact List.append_cancel_right (eq_of_readName hread).1
  · rintro rfl
    exact readName_doubled h

theorem length_doubled (name : List Char) : (doubled name).length = name.length + name.count '\x60' := by
  induction name with
  | nil => rfl
  | cons c name ih =>
    by_cases hc : c = '\x60'
    · subst hc
      rw [doubled_cons_quote, List.length_cons, List.length_cons, ih, List.length_cons,
        List.count_cons_self]
      omega
    · rw [doubled_cons hc, List.length_cons, ih, List.length_cons, List.count_cons_of_ne hc]
      omega

private theorem eq_doubled_iff : name = doubled name ↔ '\x60' ∉ name := by
  rw [← List.count_eq_zero]
  constructor
  · intro h
    have hlength := length_doubled name
    rw [← h] at hlength
    omega
  · intro h
    induction name with
    | nil => rfl
    | cons c name ih =>
      have hc : c ≠ '\x60' := by
        rintro rfl
        simp at h
      rw [List.count_cons_of_ne hc] at h
      rw [doubled_cons hc, ← ih h]

/-- A query in which a label stands between back quotes. -/
structure LabelQuery where
  build : String → String
  after : String
  build_eq : ∀ label, build label = "MATCH (n:`" ++ label ++ "`" ++ after
  head_after : after.toList.head? ≠ some '\x60'

def propertiesQuery : LabelQuery where
  build := Queries.propertiesOf
  after := ") UNWIND keys(n) AS k RETURN k, count(*) AS cnt ORDER BY cnt DESC LIMIT 200"
  build_eq label := by
    simp [Queries.propertiesOf, Queries.quotedLabel, ← String.toList_inj]
  head_after := by simp

def sampleQuery : LabelQuery where
  build := Queries.sampleOf
  after := ") RETURN n LIMIT $limit"
  build_eq label := by
    simp [Queries.sampleOf, Queries.quotedLabel, ← String.toList_inj]
  head_after := by simp

private theorem LabelQuery.firstName_build (q : LabelQuery) (label : String) :
    firstName (q.build label) = readName (label.toList ++ '\x60' :: q.after.toList) := by
  rw [firstName, q.build_eq]
  simp [List.dropWhile]

variable {σ : Type} [Outside σ]

private theorem run_listProperties {label : String} (h : label ≠ "") :
    (Tool.run .listProperties [("label", .text label)] : Job σ String) =
      execute (propertiesQuery.build label) := by
  have htruthy : (Value.text label).truthy = true := by simpa [Value.truthy] using h
  change execute (if (Value.text label).truthy then Queries.propertiesOf label else _) = _
  rw [if_pos htruthy]
  rfl

private theorem run_sampleNodes (label : String) (limit : Value) :
    (Tool.run .sampleNodes [("label", .text label), ("limit", limit)] : Job σ String) =
      execute (sampleQuery.build label) [("limit", limit)] :=
  rfl

/-- Whatever the label, both tools send their query with it. In the query the name is read as the label,
with the fixed text behind it, exactly if there is no back quote in the label. It is read up to the quote
that was put behind the label exactly if the label is a name with its quotes doubled. Otherwise the label
closes the name itself, and all clauses it has behind its quote stand in the query, even those for which
the query as a whole would be refused. -/
theorem label_read_iff (label : String) (hlabel : label ≠ "") (limit : Value) (w : World σ) :
    Sends (Tool.run .listProperties [("label", .text label)]) w
      (if w.connected then [⟨propertiesQuery.build label, []⟩] else []) ∧
    Sends (Tool.run .sampleNodes [("label", .text label), ("limit", limit)]) w
      (if w.connected then [⟨sampleQuery.build label, [("limit", limit)]⟩] else []) ∧
    ∀ q ∈ [propertiesQuery, sampleQuery],
      (firstName (q.build label) = some (label.toList, q.after.toList) ↔ '\x60' ∉ label.toList) ∧
      (∀ name, firstName (q.build label) = some (name, q.after.toList) ↔
        label.toList = doubled name) ∧
      (∀ name c clauses, firstName (q.build label) =
          some (name, c :: clauses ++ '\x60' :: q.after.toList) ↔
        label.toList = doubled name ++ '\x60' :: c :: clauses ∧ c ≠ '\x60') ∧
      (mentions writingWords (q.build label) = true →
        outcome (Tool.run .runQuery [("query", .text (q.build label))]) w =
          (.ok "Error: Read-only only.", w)) := by
  rw [run_listProperties hlabel, run_sampleNodes]
  refine ⟨sends_execute ⟨_, _⟩ w, sends_execute ⟨_, _⟩ w, fun q _ => ?_⟩
  have hread := q.firstName_build label
  have hwhole (name : List Char) : firstName (q.build label) = some (name, q.after.toList) ↔
      label.toList = doubled name := by
    rw [hread, readName_append_iff q.head_after]
  refine ⟨(hwhole _).trans eq_doubled_iff, hwhole, fun name c clauses => ?_, fun hwriting => ?_⟩
  · rw [hread]
    constructor
    · intro h
      obtain ⟨htext, hhead⟩ := eq_of_readName h
      have hlabel : label.toList ++ '\x60' :: q.after.toList =
          (doubled name ++ '\x60' :: c :: clauses) ++ '\x60' :: q.after.toList := by
        simpa using htext
      exact ⟨List.append_cancel_right hlabel, by simpa using hhead⟩
    · rintro ⟨htext, hc⟩
      rw [htext, List.append_assoc]
      exact readName_doubled (by simpa using hc)
  · rw [run_runQuery]
    exact outcome_runQuery_of_mentions w hwriting

/-- A label that closes the name of the query and has all nodes deleted. -/
theorem label_deletes_nodes :
    let label := "X`) DETACH DELETE n //"
    let w : World Steady := { outside := ⟨.rows [], .content .null⟩ }
    Sends (Tool.run .sampleNodes [("label", .text label), ("limit", .int 5)]) w
      [⟨sampleQuery.build label, [("limit", .int 5)]⟩] ∧
    firstName (sampleQuery.build label) =
      some (['X'], ") DETACH DELETE n //`) RETURN n LIMIT $limit".toList) ∧
    outcome (Tool.run .runQuery [("query", .text (sampleQuery.build label))]) w =
      (.ok "Error: Read-only only.", w) := by
  intro label w
  obtain ⟨-, hsends, hread⟩ := label_read_iff label (by decide) (.int 5) w
  obtain ⟨-, -, hclauses, hguard⟩ := hread sampleQuery (by simp)
  refine ⟨hsends, ?_, hguard (by decide +kernel)⟩
  exact (hclauses ['X'] ')' " DETACH DELETE n //".toList).mpr ⟨by decide, by decide⟩

end ThreatAtlas.Toolbox
