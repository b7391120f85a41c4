import ThreatAtlas.Proofs.Correlation.Gathering

/-!
# The order of the rows

The rows found for the clues lead to findings. With a graph whose answers depend on the queries
alone, and group names that are told apart, the findings are the same in whatever order the rows came.
-/

namespace ThreatAtlas.Correlation

open Job (Returns Sees Settles)

/-- What a look-up may give as the name of a group. -/
inductive NamesGroup (f : Query → Answer) : Value → Prop
  | label (s : String) : NamesGroup f (.text s)
  | canonical {params : Fields} {rows : List Row} {row : Row} {v : Value} :
    f ⟨canonicalGroup, params⟩ = .rows rows → row ∈ rows → row.item "name" = .ok v → NamesGroup f v
  | behind {text : String} {params : Fields} {rows : List Row} {row : Row} :
    text = groupsOfIncident ∨ text = groupsOfNode → f ⟨text, params⟩ = .rows rows → row ∈ rows →
      NamesGroup f (row.get "tgname")

variable {row : Row} {connected : Bool} {f : Query → Answer}

private theorem rows_of_answered {q : Query} {rows : List Row} (h : answered f connected q = .ok rows)
    (hrow : row ∈ rows) : f q = .rows rows := by
  unfold answered at h
  split at h
  · split at h
    case h_1 hrows =>
      cases h
      exact hrows
    case h_2 =>
      cases h
      cases hrow
    case h_3 => cases h
  · cases h
    cases hrow

private theorem namesGroup_of_behind {label : Value} {kind : String} {names : List Value}
    (h : behind (answered f connected) label kind = .ok names) : ∀ name ∈ names, NamesGroup f name := by
  unfold behind at h
  cases hrows : answered f connected ⟨if kind == "Incident" then groupsOfIncident else groupsOfNode,
      [("val", label.orElse (.text ""))]⟩ with
  | error e =>
    rw [hrows] at h
    cases h
  | ok rows =>
    rw [hrows] at h
    cases h
    intro name hname
    obtain ⟨row, hrow, rfl⟩ := List.mem_map.mp (List.mem_filter.mp hname).1
    refine .behind ?_ (rows_of_answered hrows hrow) hrow
    split
    · exact .inl rfl
    · exact .inr rfl

private theorem namesGroup_of_leads (hrow : WellTyped row) {names : List Value}
    (h : leads (answered f connected) row = .ok names) :
    ∀ name ∈ names, name.truthy = true → NamesGroup f name := by
  obtain ⟨kind, -, h⟩ := bind_eq_ok.mp h
  intro name hname htruthy
  split at h
  · obtain ⟨rows, hrows, h⟩ := bind_eq_ok.mp h
    cases rows with
    | nil =>
      cases pure_eq_ok.mp h
      rw [List.mem_singleton.mp hname] at htruthy ⊢
      rcases hrow.label with hlabel | ⟨s, hlabel⟩
      · rw [hlabel] at htruthy
        cases htruthy
      · rw [hlabel]
        exact .label s
    | cons first rows =>
      obtain ⟨row, hmem, hitem⟩ := exists_left_of_forall₂ (mapM_eq_ok.mp h) hname
      exact .canonical (rows_of_answered hrows hmem) hmem hitem
  · exact namesGroup_of_behind h name hname

variable {σ : Type} [Outside σ]

/-- The findings that rows lead to, with nothing remembered from one row to the next. -/
def findingsOf (answer : Query → Except Failure (List Row)) (check : Value → Except Failure Unit)
    (clues : Clues) (count : Nat) (rows : List Row) : Except Failure (List Finding) := do
  (← gathered answer check clues [] rows).mapM (Finding.ofGroup count)

variable {f : Query → Answer} {connected : Bool} {check : Value → Except Failure Unit}
  {rows rows' : List Row}

private theorem settles_assess (clues : Clues) (count : Nat)
    (hcheck : ∀ name, Settles (σ := σ) f connected (checkAliases name) (check name))
    (hrows : ∀ row ∈ rows, WellTyped row)
    (hnames : ∀ v w, NamesGroup f v → NamesGroup f w → ((v == w) = true ↔ v = w)) :
    Settles (σ := σ) f connected (assess clues count rows)
      (findingsOf (answered f connected) check clues count rows) := by
  have hgather : Settles (σ := σ) f connected (gather clues rows [] []) _ :=
    settles_gather hcheck hnames (sound_nil _) nofun hrows
      fun row hrow _ hleads => namesGroup_of_leads (hrows row hrow) hleads
  exact Job.settles_bind hgather fun _ _ => Job.settles_lift _

private theorem tellsApart_flatten {found : List (List Sighting)} (hrows : ∀ row ∈ rows, WellTyped row)
    (hnames : ∀ v w, NamesGroup f v → NamesGroup f w → ((v == w) = true ↔ v = w))
    (hfound : rows.mapM (sightingsOf (answered f connected) check) = .ok found) :
    TellsApart found.flatten := by
  have hname : ∀ s ∈ found.flatten, NamesGroup f s.name := by
    intro s hs
    obtain ⟨sightings, hsightings, hs⟩ := List.mem_flatten.mp hs
    obtain ⟨row, hrow, hrowSightings⟩ := exists_left_of_forall₂ (mapM_eq_ok.mp hfound) hsightings
    obtain ⟨names, hleads, hrowSightings⟩ := bind_eq_ok.mp hrowSightings
    obtain ⟨name, hname, hsight⟩ := exists_left_of_forall₂ (mapM_eq_ok.mp hrowSightings) hs
    obtain ⟨hmem, htruthy⟩ := List.mem_filter.mp hname
    rw [(passed_of_sightingOf hsight).1]
    exact namesGroup_of_leads (hrows row hrow) hleads name hmem htruthy
  intro s hs t ht
  exact hnames s.name t.name (hname s hs) (hname t ht)

private theorem findingsOf_perm {clues : Clues} {count : Nat} {findings : List Finding}
    (hperm : rows.Perm rows') (hrows : ∀ row ∈ rows, WellTyped row)
    (hnames : ∀ v w, NamesGroup f v → NamesGroup f w → ((v == w) = true ↔ v = w))
    (h : findingsOf (answered f connected) check clues count rows = .ok findings) :
    ∃ findings', findingsOf (answered f connected) check clues count rows' = .ok findings' ∧
      (findings.map Finding.toFields).Perm (findings'.map Finding.toFields) := by
  obtain ⟨groups, hgroups, hfindings⟩ := bind_eq_ok.mp h
  obtain ⟨found, hfound, hgroups⟩ := bind_eq_ok.mp hgroups
  obtain rfl := pure_eq_ok.mp hgroups
  obtain ⟨found', hfound', hsame⟩ := mapM_perm hperm hfound
  have hrows' : ∀ row ∈ rows', WellTyped row := fun row hrow => hrows row (hperm.mem_iff.mpr hrow)
  have hrecords : Records clues found.flatten _ :=
    records_foldl (tellsApart_flatten hrows hnames hfound)
  have hrecords' : Records clues found'.flatten _ :=
    records_foldl (tellsApart_flatten hrows' hnames hfound')
  have hnormal := hrecords.perm_normal (fun s => hsame.flatten.mem_iff) hrecords'
  obtain ⟨findings', hfindings', hfields⟩ := findings_perm hnormal hfindings
  refine ⟨findings', ?_, hfields⟩
  rw [findingsOf, gathered, hfound']
  exact hfindings'

/-- A correlation assesses the rows that it collects, and the assessment does not depend on their
order: in any two orders it fails, or it gives findings with the same fields. Group names are to be
told apart, as texts are; the number one and the truth value would be met as one group. -/
theorem assess_order_free (clues : Clues) (count : Nat) {w w' : World σ} (hw : Sees f connected w)
    (hw' : Sees f connected w') (hperm : rows.Perm rows') (hrows : ∀ row ∈ rows, WellTyped row)
    (hnames : ∀ v w, NamesGroup f v → NamesGroup f w → ((v == w) = true ↔ v = w)) :
    (∀ artifacts o, run (σ := σ) artifacts o = runWith assess artifacts o) ∧
      ((∃ findings after findings' after', Returns (assess clues count rows) w findings after ∧
          Returns (assess clues count rows') w' findings' after' ∧
          (findings.map Finding.toFields).Perm (findings'.map Finding.toFields)) ∨
        ((¬ ∃ findings after, Returns (assess clues count rows) w findings after) ∧
          ¬ ∃ findings after, Returns (assess clues count rows') w' findings after)) := by
  refine ⟨fun _ _ => rfl, ?_⟩
  obtain ⟨check, hcheck⟩ := exists_settles_checkAliases (σ := σ) f connected
  have hrows' : ∀ row ∈ rows', WellTyped row := fun row hrow => hrows row (hperm.mem_iff.mpr hrow)
  have hsettles := settles_assess clues count hcheck hrows hnames
  have hsettles' := settles_assess clues count hcheck hrows' hnames
  cases hfindings : findingsOf (answered f connected) check clues count rows with
  | ok findings =>
    obtain ⟨findings', hfindings', hfields⟩ := findingsOf_perm hperm hrows hnames hfindings
    obtain ⟨after, hreturns⟩ := (hsettles.returns_iff hw).mpr hfindings
    obtain ⟨after', hreturns'⟩ := (hsettles'.returns_iff hw').mpr hfindings'
    exact .inl ⟨findings, after, findings', after', hreturns, hreturns', hfields⟩
  | error e =>
    refine .inr ⟨?_, ?_⟩
    · rintro ⟨findings, hreturns⟩
      rw [(hsettles.returns_iff hw).mp hreturns] at hfindings
      cases hfindings
    · rintro ⟨findings', hreturns'⟩
      have hfindings' := (hsettles'.returns_iff hw').mp hreturns'
      obtain ⟨findings, hok, -⟩ := findingsOf_perm hperm.symm hrows' hnames hfindings'
      rw [hok] at hfindings
      cases hfindings

def toolAnswers (q : Query) : Answer :=
  if q.params.get "val" == .text "Poison Ivy" then
    .rows [[("tgname", .text "menuPass")], [("tgname", .text "APT1")]]
  else .rows []

def groupRow : Row :=
  [("label", .text "APT1"), ("type", .text "ThreatGroup"), ("dist", .int 3),
    ("path_nodes",
      .list [.record [("name", .text "evil.com"), ("labels", .list [.text "Indicator"])]])]

def toolRow : Row :=
  [("label", .text "Poison Ivy"), ("type", .text "Malware"), ("dist", .int 1),
    ("path_nodes",
      .list [.record [("name", .text "Poison Ivy"), ("labels", .list [.text "Malware"])]])]

private theorem wellTyped_of_mem (h : row ∈ [groupRow, toolRow]) : WellTyped row := by
  rcases List.mem_pair.mp h with rfl | rfl
  · refine ⟨.inr ⟨"APT1", rfl⟩, ?_, .inr ⟨3, rfl⟩⟩
    rintro _ ⟨⟩
    decide
  · refine ⟨.inr ⟨"Poison Ivy", rfl⟩, ?_, .inr ⟨1, rfl⟩⟩
    rintro _ ⟨⟩
    decide

theorem mem_toolAnswers {q : Query} {rows : List Row} (h : toolAnswers q = .rows rows) (hrow : row ∈ rows) :
    ∃ s, row = [("tgname", .text s)] := by
  unfold toolAnswers at h
  split at h
  · cases h
    rcases List.mem_pair.mp hrow with rfl | rfl
    · exact ⟨_, rfl⟩
    · exact ⟨_, rfl⟩
  · cases h
    cases hrow

private theorem text_of_namesGroup {v : Value} (h : NamesGroup toolAnswers v) : ∃ s, v = .text s := by
  cases h with
  | label s => exact ⟨s, rfl⟩
  | canonical hrows hrow hitem =>
    obtain ⟨s, rfl⟩ := mem_toolAnswers hrows hrow
    cases hitem
  | behind _ hrows hrow =>
    obtain ⟨s, rfl⟩ := mem_toolAnswers hrows hrow
    exact ⟨s, rfl⟩

/-- A group met directly and through a tool, first the one and first the other. -/
theorem assess_order_free_tool :
    ∃ findings after findings' after',
      Returns (assess [("evil.com", "evil.com")] 1 [groupRow, toolRow])
        ({ outside := ⟨toolAnswers⟩ } : World Tabulated) findings after ∧
      Returns (assess [("evil.com", "evil.com")] 1 [toolRow, groupRow])
        ({ outside := ⟨toolAnswers⟩ } : World Tabulated) findings' after' ∧
      (findings.map Finding.toFields).Perm (findings'.map Finding.toFields) := by
  have hsees : Sees toolAnswers true ({ outside := ⟨toolAnswers⟩ } : World Tabulated) :=
    ⟨answering_tabulated toolAnswers, rfl⟩
  have hreturns : (Job.outcome (assess [("evil.com", "evil.com")] 1 [groupRow, toolRow])
      ({ outside := ⟨toolAnswers⟩ } : World Tabulated)).1.isOk = true := by
    decide +kernel
  have htold : ∀ v w, NamesGroup toolAnswers v → NamesGroup toolAnswers w →
      ((v == w) = true ↔ v = w) := by
    intro v w hv _
    obtain ⟨s, rfl⟩ := text_of_namesGroup hv
    rw [Value.text_beq_iff, eq_comm]
  have hfree := assess_order_free [("evil.com", "evil.com")] 1 hsees hsees
    (List.Perm.swap toolRow groupRow []) (fun _ => wellTyped_of_mem) htold
  exact hfree.2.resolve_right fun h => h.1 (Job.exists_returns_iff.mpr hreturns)

end ThreatAtlas.Correlation
