import ThreatAtlas.Feed.Loading
import ThreatAtlas.Proofs.Sending

/-!
# What is sent when the graph is filled

Once the graph has been emptied and its schema made, every table that is there is sent, batch by batch
and each batch through all steps, whatever the graph answers.
-/

namespace ThreatAtlas

private theorem flatten_pieces {α : Type} {size : Nat} (hsize : 0 < size) (xs : List α) :
    (pieces size xs).flatten = xs := by
  fun_induction pieces size xs with
  | case1 xs h =>
    have hempty : xs = [] := by simpa [Nat.pos_iff_ne_zero.mp hsize] using h
    rw [hempty, List.flatten_nil]
  | case2 xs _ ih => rw [List.flatten_cons, ih, List.take_append_drop]

theorem length_of_mem_pieces {α : Type} {size : Nat} {xs piece : List α} (h : piece ∈ pieces size xs) :
    1 ≤ piece.length ∧ piece.length ≤ size := by
  fun_induction pieces size xs with
  | case1 => cases h
  | case2 xs hmore ih =>
    rcases List.mem_cons.mp h with rfl | h
    · simp only [Bool.or_eq_true, decide_eq_true_eq, List.isEmpty_iff, not_or] at hmore
      have hpos := List.length_pos_iff.mpr hmore.2
      rw [List.length_take]
      omega
    · exact ih h

namespace Files

private theorem get?_remove (files : Files) (path other : String) :
    (files.remove path).get? other = if other = path then none else files.get? other := by
  unfold get? remove
  dsimp only
  induction files.entries with
  | nil => simp
  | cons entry rest ih =>
    obtain ⟨p, content⟩ := entry
    by_cases hp : p = path
    · rw [List.filter_cons_of_neg (by simpa using hp), ih, List.lookup_cons]
      by_cases hother : other = path
      · rw [if_pos hother, if_pos hother]
      · rw [if_neg hother, if_neg hother, hp, beq_false_of_ne hother]
    · rw [List.filter_cons_of_pos (by simpa using hp), List.lookup_cons, List.lookup_cons, ih]
      by_cases hother : other = p
      · subst hother
        rw [beq_self_eq_true]
        exact (if_neg hp).symm
      · rw [beq_false_of_ne hother]

private theorem place_remove_of_ne {files : Files} {path other : String} {content : Content}
    (h : files.place other = .file content) (hne : other ≠ path) :
    (files.remove path).place other = .file content := by
  rw [place_eq_file_iff] at h ⊢
  constructor
  · intro p hp
    rw [get?_remove, h.1 p hp, ite_self]
  · rw [get?_remove, if_neg hne, h.2]

private theorem has_remove_of_not {files : Files} {path other : String} (h : files.has other = false)
    (hparent : other ∉ parents path) : (files.remove path).has other = false := by
  simp only [has, Bool.or_eq_false_iff, isDirectory] at h ⊢
  obtain ⟨hget, ⟨hroot, hdirectory⟩, hbelow⟩ := h
  refine ⟨?_, ⟨hroot, ?_⟩, ?_⟩
  · rw [get?_remove]
    split
    · rfl
    · exact hget
  · simp only [List.contains_eq_mem, decide_eq_false_iff_not] at hdirectory ⊢
    intro hmem
    rcases List.mem_append.mp hmem with hmem | hmem
    · exact hdirectory hmem
    · exact hparent (List.mem_of_mem_filter hmem)
  · rw [List.any_eq_false] at hbelow ⊢
    intro entry hentry
    exact hbelow entry (List.mem_of_mem_filter hentry)

end Files

private theorem Job.returns_removeFile {σ : Type} {path : String} {u : Unit} {w w' : World σ}
    (h : Returns (removeFile path) w u w') : w' = { w with files := w.files.remove path } := by
  unfold removeFile at h
  rw [returns_bind_of_returns (outcome_get w)] at h
  cases hplace : w.files.place path with
  | file content =>
    rw [hplace] at h
    cases h
    rfl
  | _ =>
    rw [hplace] at h
    obtain ⟨_, _, _, hthrow⟩ := returns_bind.mp h
    exact absurd hthrow returns_throw

namespace Feed.Loading

open Job (Returns Sends Delivers outcome)

def batchQueries (steps : List Step) (batch : List Fields) : List Query :=
  steps.map fun step => ⟨step.query, [("rows", .list (batch.map .record))]⟩

/-- The queries send these rows, in this order and in batches, through all steps of the table. -/
def Table.Carries (table : Table) (rows : List Fields) (qs : List Query) : Prop :=
  ∃ batches : List (List Fields), batches.flatten = rows ∧
    (∀ batch ∈ batches, 1 ≤ batch.length ∧ batch.length ≤ 500) ∧
    qs = batches.flatMap (batchQueries table.steps)

/-- The file of the table holds these rows. No file counts as a table without rows. -/
def Table.Gives (table : Table) (files : Files) (rows : List Fields) : Prop :=
  files.has table.path = false ∧ rows = [] ∨
    ∃ text, files.place table.path = .file (.text text) ∧
      Csv.readRows (String.ofList (Text.unifyLineEnds text.toList)) = .ok rows

def preparation : List Query :=
  ⟨clearing, []⟩ :: (constraints ++ [textIndex]).map (⟨·, []⟩)

variable {σ : Type} [Outside σ]

private theorem outcome_run (title query : String) (params : Fields) (w : World σ) :
    ∃ r w', outcome (run title query params) w = (r, w') ∧
      (r = .ok () ∨ ∃ why, r = .error (.graph why)) ∧ w'.files = w.files ∧
      w'.trace.queries = w.trace.queries ++ [⟨query, params⟩] := by
  unfold run
  rw [Job.outcome_bind, Job.outcome_say]
  dsimp only
  rw [Job.outcome_bind, Job.outcome_send]
  dsimp only
  cases (Outside.query ⟨query, params⟩ (w.printing _).outside).1 with
  | rows rows => exact ⟨_, _, rfl, .inl rfl, rfl, rfl⟩
  | failed why => exact ⟨_, _, rfl, .inl rfl, rfl, rfl⟩
  | lost rows why => exact ⟨_, _, rfl, .inr ⟨why, rfl⟩, rfl, rfl⟩

private theorem sends_run (title query : String) (params : Fields) (w : World σ) :
    Sends (run title query params) w [⟨query, params⟩] := by
  obtain ⟨r, w', hrun, _, _, hqs⟩ := outcome_run title query params w
  rw [Sends, hrun, hqs]

private theorem delivers_recover_run (files : Files) (title query : String) (params : Fields) :
    Delivers files (Job.recover (run title query params : Job σ Unit) fun _ => pure ())
      [⟨query, params⟩] := by
  intro w hw
  obtain ⟨r, w', hrun, hr, hfiles, hqs⟩ := outcome_run title query params w
  refine ⟨(), w', ?_, hfiles.trans hw, hqs⟩
  rw [Job.Returns, Job.outcome_recover, hrun]
  rcases hr with rfl | ⟨why, rfl⟩
  · rfl
  · rfl

theorem delivers_loadBatch (files : Files) (steps : List Step) (number : Nat) (batch : List Fields) :
    Delivers files (loadBatch steps number batch : Job σ Unit) (batchQueries steps batch) := by
  unfold batchQueries
  rw [List.map_eq_flatMap]
  exact Job.delivers_forM fun step _ => delivers_recover_run files _ _ _

private theorem delivers_load {table : Table} {files : Files} {rows : List Fields}
    (h : table.Gives files rows) :
    ∃ qs, table.Carries rows qs ∧ Delivers files (load table : Job σ Unit) qs := by
  rcases h with ⟨habsent, rfl⟩ | ⟨text, hplace, hrows⟩
  · refine ⟨[], ⟨[], rfl, nofun, rfl⟩, ?_⟩
    intro w hw
    obtain ⟨shown, hshown⟩ : ∃ shown, Returns (Job.shownPath table.path) w shown w := ⟨_, rfl⟩
    obtain ⟨u, w', hsay, hafter⟩ := Job.delivers_say files
      s!"    [!] Error: {table.name} CSV not found at {shown}" w hw
    refine ⟨u, w', ?_, hafter⟩
    unfold load
    rwa [Job.returns_bind_of_returns (Job.outcome_fileExists table.path w), hw, habsent,
      if_neg Bool.false_ne_true, Job.returns_bind_of_returns hshown]
  · refine ⟨_, ⟨pieces batchSize rows, flatten_pieces (by decide) rows,
      fun _ => length_of_mem_pieces, rfl⟩, ?_⟩
    intro w hw
    have hhas : w.files.has table.path = true := by
      rw [hw, Files.has, (Files.place_eq_file_iff.mp hplace).2]
      rfl
    have hsend : Delivers files
        ((pieces batchSize rows).zipIdx.forM fun batch =>
          (loadBatch table.steps (batch.2 + 1) batch.1 : Job σ Unit)) _ :=
      Job.delivers_forM fun batch _ => delivers_loadBatch files table.steps (batch.2 + 1) batch.1
    obtain ⟨u, w', hrun, hfiles, hqs⟩ := hsend w hw
    refine ⟨u, w', ?_, hfiles, ?_⟩
    · unfold load
      rw [Job.returns_bind_of_returns (Job.outcome_fileExists table.path w), hhas, if_pos rfl]
      unfold Job.readText
      rw [bind_assoc, Job.returns_bind_of_returns
        (Job.contentOf_returns_iff.mpr ⟨hw ▸ hplace, rfl⟩)]
      simp only [bind_assoc, Job.returns_lift_bind, pure_bind]
      exact ⟨text.toList, rfl, rows, hrows, hrun⟩
    · rw [hqs]
      rw [← List.flatMap_map Prod.fst (batchQueries table.steps), List.zipIdx_map_fst]

/-- The work before the first table: the graph is emptied, the import log removed, the schema made. -/
def opening : Job σ Unit := do
  Job.say "\n=== [1/6] Resetting Database ==="
  run "Deleting all existing nodes" clearing
  if ← Job.fileExists importLog then
    Job.removeFile importLog
    Job.say s!"    -> Cleared incident import log: {← Job.shownPath importLog}"
  Job.say "\n=== [2/6] Creating Schema & Indexes ==="
  applySchema

def tables : Job σ Unit := do
  Job.say "    -> Constraints and Full-Text Indexes applied."
  Job.say "\n=== [3/6] Loading MITRE ATT&CK ==="
  load nodes
  load links
  Job.say "\n=== [4/6] Loading CISA KEV ==="
  load vulnerabilities
  Job.say "\n=== [5/6] Loading URLHaus & Fuzzy Linking ==="
  load urls

def closing : Job σ Unit := do
  Job.say "\n=== [6/6] Semantic Linking: KEV <-> MITRE ==="
  run "Linking CVEs to Techniques" semanticLinking
  Job.say "\n=== [+] Database Initialization Complete! ==="

theorem fill_eq : (fill : Job σ Unit) = opening >>= fun _ => tables >>= fun _ => closing := by
  unfold fill opening tables closing
  simp only [bind_assoc]
  congr 1
  funext _
  congr 1
  funext _
  congr 1
  funext found
  cases found
  · simp only [Bool.false_eq_true, if_false, bind_assoc]
  · simp only [if_true, bind_assoc]

variable {w w' : World σ}

theorem returns_run {title query : String} {params : Fields} (h : Returns (run title query params) w () w') :
    w'.files = w.files ∧ w'.trace.queries = w.trace.queries ++ [⟨query, params⟩] := by
  obtain ⟨r, w₁, hrun, _, hafter⟩ := outcome_run title query params w
  cases hrun.symm.trans h
  exact hafter

private theorem returns_applySchema (h : Returns applySchema w () w') : w'.files = w.files ∧
      w'.trace.queries = w.trace.queries ++ (constraints ++ [textIndex]).map (⟨·, []⟩) := by
  have hfold {keep : Option String → Answer → Job σ (Option String)}
      (hkeep : ∀ lost answer, Delivers w.files (keep lost answer) []) (queries : List String)
      (lost : Option String) :
      Delivers w.files (queries.foldlM (fun lost query => Job.send ⟨query, []⟩ >>= keep lost) lost)
        (queries.map (⟨·, []⟩)) := by
    induction queries generalizing lost with
    | nil => exact Job.delivers_pure _ lost
    | cons query queries ih =>
      have hone := Job.delivers_bind (Job.delivers_send w.files ⟨query, []⟩) (hkeep lost)
      rw [List.foldlM_cons]
      exact Job.delivers_bind hone ih
  unfold applySchema at h
  obtain ⟨lost, w₁, hrun, h⟩ := Job.returns_bind.mp h
  have hafter : w₁.files = w.files ∧
      w₁.trace.queries = w.trace.queries ++ (constraints ++ [textIndex]).map (⟨·, []⟩) := by
    refine (hfold (fun lost answer => ?_) _ _).of_returns hrun
    cases answer <;> exact Job.delivers_pure _ _
  cases lost with
  | none =>
    obtain ⟨_, rfl⟩ := Job.returns_pure.mp h
    exact hafter
  | some why => exact absurd h Job.returns_throw

/-- The work before the tables sends what prepares the graph, and removes at most the import log. -/
theorem returns_opening (h : Returns opening w () w') : w'.trace.queries = w.trace.queries ++ preparation ∧
      (w'.files = w.files ∨ w'.files = w.files.remove importLog) := by
  unfold opening at h
  rw [Job.returns_say_bind] at h
  obtain ⟨_, w₁, hclear, h⟩ := Job.returns_bind.mp h
  obtain ⟨hfiles₁, hqs₁⟩ := returns_run hclear
  rw [Job.returns_bind_of_returns (Job.outcome_fileExists importLog w₁)] at h
  have hschema {v : World σ} (hqs : v.trace.queries = w₁.trace.queries)
      (h : Returns (do
        Job.say "\n=== [2/6] Creating Schema & Indexes ==="
        applySchema) v () w') :
      w'.trace.queries = w.trace.queries ++ preparation ∧ w'.files = v.files := by
    rw [Job.returns_say_bind] at h
    obtain ⟨hfiles, hqs'⟩ := returns_applySchema h
    refine ⟨?_, hfiles⟩
    rw [hqs', show (v.printing _).trace.queries = v.trace.queries from rfl, hqs, hqs₁,
      List.append_assoc]
    rfl
  dsimp only at h
  split at h
  · obtain ⟨_, w₂, hremove, h⟩ := Job.returns_bind.mp h
    rw [Job.returns_bind_of_returns (Job.outcome_shownPath importLog w₂), Job.returns_say_bind] at h
    have hremoved := Job.returns_removeFile hremove
    obtain ⟨hqs, hfiles⟩ := hschema (v := w₂.printing _) (by rw [hremoved]; rfl) h
    refine ⟨hqs, .inr ?_⟩
    rw [hfiles, hremoved]
    exact congrArg (Files.remove · importLog) hfiles₁
  · obtain ⟨hqs, hfiles⟩ := hschema rfl h
    exact ⟨hqs, .inl (hfiles.trans hfiles₁)⟩

private theorem Table.Gives.after_opening {table : Table} {rows : List Fields} (h : table.Gives w.files rows)
    (hpath : table.path ≠ importLog) (hparent : table.path ∉ Files.parents importLog)
    (hopen : Returns opening w () w') : table.Gives w'.files rows := by
  rcases (returns_opening hopen).2 with hfiles | hfiles
  · rwa [hfiles]
  · rw [hfiles]
    rcases h with ⟨habsent, hrows⟩ | ⟨text, hplace, hrows⟩
    · exact .inl ⟨Files.has_remove_of_not habsent hparent, hrows⟩
    · exact .inr ⟨text, Files.place_remove_of_ne hplace hpath, hrows⟩

private theorem sends_closing (w : World σ) : Sends closing w [⟨semanticLinking, []⟩] := by
  refine Job.sends_say_bind (Job.sends_bind_of_silent (sends_run _ _ _ _) fun _ _ => ?_)
  exact (List.append_nil _).symm

theorem sends_fill {w₁ : World σ} (hopen : Returns opening w () w₁)
    {nodeRows linkRows vulnerabilityRows urlRows : List Fields} (hnodes : nodes.Gives w.files nodeRows)
    (hlinks : links.Gives w.files linkRows)
    (hvulnerabilities : vulnerabilities.Gives w.files vulnerabilityRows) (hurls : urls.Gives w.files urlRows) :
    ∃ n l v u, nodes.Carries nodeRows n ∧ links.Carries linkRows l ∧
      vulnerabilities.Carries vulnerabilityRows v ∧ urls.Carries urlRows u ∧
      Sends fill w (preparation ++ n ++ l ++ v ++ u ++ [⟨semanticLinking, []⟩]) := by
  obtain ⟨n, hn, hloadNodes⟩ := delivers_load (σ := σ)
    (hnodes.after_opening (by decide) (by decide +kernel) hopen)
  obtain ⟨l, hl, hloadLinks⟩ := delivers_load (σ := σ)
    (hlinks.after_opening (by decide) (by decide +kernel) hopen)
  obtain ⟨v, hv, hloadVulnerabilities⟩ := delivers_load (σ := σ)
    (hvulnerabilities.after_opening (by decide) (by decide +kernel) hopen)
  obtain ⟨u, hu, hloadUrls⟩ := delivers_load (σ := σ)
    (hurls.after_opening (by decide) (by decide +kernel) hopen)
  have htables : Delivers w₁.files (tables : Job σ Unit) (n ++ (l ++ (v ++ u))) := by
    refine Job.delivers_say_bind (Job.delivers_say_bind ?_)
    refine Job.delivers_bind hloadNodes fun _ => Job.delivers_bind hloadLinks fun _ => ?_
    refine Job.delivers_say_bind (Job.delivers_bind hloadVulnerabilities fun _ => ?_)
    exact Job.delivers_say_bind hloadUrls
  refine ⟨n, l, v, u, hn, hl, hv, hu, ?_⟩
  obtain ⟨_, w₂, htables, _, hqs⟩ := htables w₁ rfl
  have hrest : Sends (tables >>= fun _ => closing) w₁ _ :=
    Job.sends_bind_of_returns htables hqs (sends_closing w₂)
  have hall : Sends (opening >>= fun _ => tables >>= fun _ => closing) w _ :=
    Job.sends_bind_of_returns hopen (returns_opening hopen).1 hrest
  simpa only [fill_eq, List.append_assoc] using hall

end Feed.Loading

end ThreatAtlas
