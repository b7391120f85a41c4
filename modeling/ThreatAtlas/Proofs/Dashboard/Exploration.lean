import ThreatAtlas.Dashboard.Exploration
import ThreatAtlas.Proofs.Dashboard.Sketch
import ThreatAtlas.Proofs.Job

/-!
# The canvas of the graph page

What the page draws holds together after any sequence of its actions, also when an action fails half-way.
-/

namespace ThreatAtlas.Dashboard.Exploration

open Job (outcome Reads)

variable {σ α β : Type}

def canvasOf (w : World σ) : Canvas :=
  w.session.canvas.getD {}

/-- From a world whose canvas holds together and shows the `known` ids, the job goes to one whose canvas
holds together, even if it fails. -/
def Upholds (known : Set Value) (job : Job σ α) : Prop :=
  ∀ w, (canvasOf w).Kept → known ⊆ (canvasOf w).shown → (canvasOf (outcome job w).2).Kept

variable {known : Set Value}

private theorem upholds_pure (a : α) : Upholds known (pure a : Job σ α) :=
  fun _ hkept _ => hkept

private theorem upholds_write (function text : String) : Upholds known (write function text : Job σ Unit) :=
  fun _ hkept _ => hkept

private theorem reads_remembered (name : String) : Reads (fun _ => True) (remembered name : Job σ Value) :=
  fun _ => ⟨rfl, fun _ _ => trivial⟩

private theorem upholds_reads_bind {P : α → Prop} {x : Job σ α} {f : α → Job σ β} (hx : Reads P x)
    (hf : ∀ a, P a → Upholds known (f a)) : Upholds known (x >>= f) := by
  intro w hkept hknown
  obtain ⟨hsession, hresult⟩ := hx w
  rw [Job.outcome_bind]
  rcases hrun : outcome x w with ⟨r, w₁⟩
  rw [hrun] at hsession hresult
  have hcanvas : canvasOf w₁ = canvasOf w := by rw [canvasOf, hsession, canvasOf]
  rw [← hcanvas] at hkept hknown
  cases r with
  | ok a => exact hf a (hresult a rfl) w₁ hkept hknown
  | error e => exact hkept

private theorem upholds_bind {x : Job σ α} {f : α → Job σ β} (hx : Upholds known x)
    (hf : ∀ a, Upholds ∅ (f a)) : Upholds known (x >>= f) := by
  intro w hkept hknown
  have hkept₁ := hx w hkept hknown
  rw [Job.outcome_bind]
  rcases hrun : outcome x w with ⟨r, w₁⟩
  rw [hrun] at hkept₁
  cases r with
  | ok a => exact hf a w₁ hkept₁ (Set.empty_subset _)
  | error e => exact hkept₁

private theorem upholds_remember (name : String) (v : Value) :
    Upholds known (remember name v : Job σ Unit) :=
  fun _ hkept _ => hkept

private theorem upholds_draw {d : Drawing α} {Q : α → Set Value → Prop} (h : Drawing.Safe known d Q) :
    Upholds known (draw d : Job σ α) :=
  fun w hkept hknown => (h (canvasOf w) hkept hknown).1

private theorem upholds_reset : Upholds known (reset : Job σ Unit) :=
  fun _ _ _ => Canvas.kept_empty

variable [Outside σ]

private theorem reads_question (text : String) (params : Fields) :
    Reads (fun _ => True) (Job.ask text params : Job σ (List Row)) :=
  Job.reads_ask trivial (fun _ _ _ _ => trivial) text params

private theorem reads_byName (id : String) :
    Reads (fun _ => True) (Explorer.byName id : Job σ (Value × Value)) := by
  unfold Explorer.byName
  cases Explorer.namePrefixes.find? (Text.startsWith · id) with
  | none => exact Job.reads_pure trivial
  | some start =>
    refine Job.reads_bind (reads_question _ _) fun rows _ => ?_
    cases rows with
    | nil => exact Job.reads_pure trivial
    | cons row rows =>
      refine Job.reads_bind (Job.reads_checked _) fun node _ => ?_
      refine Job.reads_bind (reads_question _ _) fun rows _ => ?_
      cases rows with
      | nil => exact Job.reads_throw _
      | cons row rows =>
        refine Job.reads_bind (Job.reads_checked _) fun id _ => ?_
        exact Job.reads_pure trivial

private theorem reads_byId (id : Value) : Reads (fun _ => True) (Explorer.byId id : Job σ Value) := by
  refine Job.reads_bind (reads_question _ _) fun rows _ => ?_
  cases rows with
  | cons row rows => exact Job.reads_checked _
  | nil =>
    refine Job.reads_bind (reads_question _ _) fun rows _ => ?_
    cases rows with
    | cons row rows => exact Job.reads_checked _
    | nil => exact Job.reads_pure trivial

private theorem reads_nodeDetails (id : Value) :
    Reads (fun _ => ∃ s, id = .text s) (Explorer.nodeDetails id : Job σ Value) := by
  unfold Explorer.nodeDetails
  have htext : Reads (fun s => id = .text s) (liftM (id.asText "startswith") : Job σ String) :=
    Job.reads_lift fun _ hs => Value.asText_eq_ok hs
  refine Job.reads_bind htext fun text hid => ?_
  refine Job.Reads.mono ?_ fun _ (_ : True) => ⟨text, hid⟩
  refine Job.reads_bind (reads_byName text) fun found _ => ?_
  obtain ⟨node, realId⟩ := found
  dsimp -zeta only
  extract_lets describe
  have hdescribe : ∀ node, Reads (fun _ => True) (describe node) := by
    intro node
    change Reads _ (if (!node.truthy) = true then _ else _)
    split
    · exact Job.reads_pure trivial
    · refine Job.reads_bind (reads_question _ _) fun rows _ => ?_
      extract_lets withAliases
      have hwith : ∀ aliases, Reads (fun _ => True) (withAliases aliases) := by
        intro aliases
        refine Job.reads_bind (Job.reads_checked _) fun details _ => ?_
        split
        · refine Job.reads_bind (Job.reads_checked _) fun names _ => ?_
          refine Job.reads_bind (Job.reads_checked _) fun joined _ => ?_
          exact Job.reads_pure trivial
        · exact Job.reads_pure trivial
      cases rows with
      | nil => exact hwith _
      | cons row rows => exact Job.reads_bind (Job.reads_checked _) fun aliases _ => hwith aliases
  split
  · exact hdescribe node
  · exact Job.reads_bind (reads_byId realId) fun node _ => hdescribe node

private theorem reads_labelsOf (id : Value) : Reads (fun _ => True) (labelsOf id : Job σ Value) := by
  refine Job.reads_bind (reads_question _ _) fun rows _ => ?_
  cases rows with
  | nil => exact Job.reads_pure trivial
  | cons row rows => exact Job.reads_checked _

def Answers (σ : Type) [Outside σ] (P : Row → Prop) : Prop :=
  ∀ (q : Query) (s : σ) (rows : List Row), (Outside.query q s).1 = .rows rows → ∀ row ∈ rows, P row

variable {P : Row → Prop}

private theorem reads_rows (h : Answers σ P) (text : String) (params : Fields) :
    Reads (fun rows => ∀ row ∈ rows, P row) (Job.ask text params : Job σ (List Row)) :=
  Job.reads_ask (by simp) h text params

theorem reads_incidentFlow (h : Answers σ P) (id : Value) :
    Reads (fun found => ∀ i ∈ found, P i.header ∧ ∀ row ∈ i.flow, P row)
      (Explorer.incidentFlow id : Job σ (Option Explorer.Incident)) := by
  refine Job.reads_bind (reads_rows h _ _) fun rows hrows => ?_
  cases rows with
  | nil => exact Job.reads_pure (by simp)
  | cons header rows =>
    refine Job.reads_bind (reads_rows h _ _) fun flow hflow => ?_
    refine Job.reads_pure ?_
    intro i hi
    cases hi
    exact ⟨hrows header List.mem_cons_self, hflow⟩

private theorem reads_pathWithContext (h : Answers σ P) (start finish hops : Value) :
    Reads (fun rows => ∀ row ∈ rows, P row)
      (Explorer.pathWithContext start finish hops : Job σ (List Row)) := by
  unfold Explorer.pathWithContext
  refine Job.reads_bind (Job.reads_checked _) fun s _ => ?_
  refine Job.reads_bind (Job.reads_checked _) fun e _ => ?_
  exact reads_rows h _ _

private theorem reads_neighbours (h : Answers σ Row.Typed) (id current : Value) :
    Reads (fun rows => ∀ row ∈ rows, row.Typed) (Explorer.neighbours id current : Job σ (List Row)) := by
  refine Job.reads_bind (reads_rows h _ _) fun rows hrows => ?_
  refine Job.reads_lift fun kept hkept row hrow => ?_
  exact hrows row (mem_of_filterM hkept row hrow)

private theorem upholds_loadIncident (h : Answers σ Row.Typed) (id : String) :
    Upholds known (loadIncident (.text id) : Job σ Unit) := by
  refine upholds_reads_bind (reads_incidentFlow h _) fun found hfound => ?_
  cases found with
  | none => exact upholds_pure ()
  | some i =>
    obtain ⟨hheader, hflow⟩ := hfound i rfl
    refine upholds_reads_bind (reads_remembered _) fun selected _ => ?_
    extract_lets follow
    refine upholds_bind (upholds_draw (Drawing.safe_incident trivial hheader hflow)) fun events => ?_
    split
    · exact upholds_remember _ _
    · exact upholds_pure ()

private theorem upholds_discover (h : Answers σ fun row => row.Typed ∧ row.EndsFilled)
    (start finish : Value) : Upholds known (discover start finish : Job σ Nat) := by
  refine upholds_reads_bind (reads_pathWithContext h _ _ _) fun rows hrows => ?_
  exact upholds_draw (Drawing.safe_path (fun row hrow => (hrows row hrow).1)
    fun row hrow => (hrows row hrow).2)

private theorem upholds_expand (h : Answers σ Row.Typed) {id : Value} (hid : id ∈ known) :
    Upholds known (expand id : Job σ Nat) := by
  refine upholds_reads_bind (reads_nodeDetails id) fun details htext => ?_
  obtain ⟨text, rfl⟩ := htext
  split
  · exact upholds_pure 0
  · refine upholds_reads_bind (reads_labelsOf _) fun labels _ => ?_
    refine upholds_reads_bind (Job.reads_checked _) fun isIncident _ => ?_
    split
    · exact upholds_bind (upholds_loadIncident h text) fun _ => upholds_pure 1
    · refine upholds_reads_bind (Job.reads_checked _) fun isStep _ => ?_
      split
      · exact upholds_bind (upholds_write _ _) fun _ => upholds_pure 0
      · refine upholds_reads_bind (reads_remembered _) fun current _ => ?_
        refine upholds_reads_bind (reads_neighbours h _ _) fun rows hrows => ?_
        exact upholds_draw (Drawing.safe_neighbours trivial hid hrows)

/-- The page has come to this world by its actions, from a canvas on which nothing is drawn. Whatever else
happens meanwhile leaves the canvas alone. -/
inductive Reached : World σ → Prop
  | fresh {w : World σ} (hempty : canvasOf w = {}) : Reached w
  | load {w : World σ} (id : String) (hw : Reached w) :
      Reached (outcome (loadIncident (.text id)) w).2
  | expand {w : World σ} {id : Value} (hid : id ∈ (canvasOf w).nodeIds) (hw : Reached w) :
      Reached (outcome (expand id) w).2
  | discover {w : World σ} (start finish : Value) (hw : Reached w) :
      Reached (outcome (discover start finish) w).2
  | reset {w : World σ} (hw : Reached w) : Reached (outcome reset w).2
  | meanwhile {w w' : World σ} (hcanvas : w'.session.canvas = w.session.canvas) (hw : Reached w) :
      Reached w'

/-- Whatever the page was made to do, its canvas holds together, if the rows of the graph are typed and
the relations of paths end at ids that are not empty. -/
theorem sound_of_reached (htyped : Answers σ Row.Typed) (hfilled : Answers σ Row.EndsFilled)
    {w : World σ} (hw : Reached w) : (canvasOf w).Sound := by
  have hboth : Answers σ fun row => row.Typed ∧ row.EndsFilled :=
    fun q s rows hrows row hrow => ⟨htyped q s rows hrows row hrow, hfilled q s rows hrows row hrow⟩
  apply Canvas.Kept.sound
  induction hw with
  | fresh hempty =>
    rw [hempty]
    exact Canvas.kept_empty
  | load id _ ih => exact upholds_loadIncident htyped id _ ih (Set.empty_subset _)
  | expand hid _ ih => exact upholds_expand htyped hid _ ih subset_rfl
  | discover start finish _ ih => exact upholds_discover hboth start finish _ ih (Set.empty_subset _)
  | reset _ ih => exact upholds_reset _ ih (Set.empty_subset _)
  | meanwhile hcanvas _ ih =>
    rw [canvasOf, hcanvas]
    exact ih

private theorem answers_fixed {row : Row} (h : P row) : Answers (Fixed (.rows [row])) P := by
  intro q s rows hrows r hr
  cases hrows
  rw [List.mem_singleton.mp hr]
  exact h

/-- A path whose first node has an empty id is typed, but the node is drawn under its name, and the edge
leads from no node. -/
theorem unsound_of_empty_end :
    let node : Value → Value → Value := fun id properties =>
      .record [("props", properties), ("labels", .list []), ("id", id)]
    let row : Row :=
      [("core_nodes", .list [node "" (.record [("name", "A")]), node "b" (.record [])]),
        ("core_rels", .list [.record [("s_id", ""), ("e_id", "b"), ("type", "USES")]])]
    let w : World (Fixed (.rows [row])) := { outside := .services }
    let drawn := (outcome (discover "a" "b") w).2
    Answers (Fixed (.rows [row])) Row.Typed ∧ Reached drawn ∧ ¬ (canvasOf drawn).Sound := by
  intro node row w drawn
  refine ⟨answers_fixed (by decide +kernel), .discover _ _ (.fresh rfl), ?_⟩
  intro hsound
  have hdangling : ∃ e ∈ (canvasOf drawn).edges, (e.source == "") = true := by decide +kernel
  have hnone : (canvasOf drawn).nodes.any (·.id == "") = false := by decide +kernel
  obtain ⟨e, he, hempty⟩ := hdangling
  obtain ⟨n, hn, hid⟩ := (hsound.ends e he).1
  rw [← hid] at hempty
  exact List.any_eq_false.mp hnone n hn hempty

/-- An incident with a victim, a step and a malware is drawn, the malware is opened up, and then the
drawing of a path fails at a relation without a type. -/
theorem sound_after_failing_path :
    let node : Value → Value := fun id =>
      .record [("props", .record [("name", id)]), ("labels", .list ["Malware"]), ("id", id)]
    let row : Row :=
      [("title", "Breach"), ("victim_id", "v"), ("victim", "Acme"), ("step_id", "s"), ("order", .int 1),
        ("phase", "Execution"), ("outcome", "Success"), ("desc", "Runs"), ("art_id", "m"),
        ("props", .record []), ("labels", .list []), ("rel", "USES"), ("n", .record [("name", "M")]),
        ("aliases", .list []), ("l", .list []), ("res_id", "g"), ("res_label", "Group"),
        ("type", "Actor"), ("core_nodes", .list [node "p", node "q"]),
        ("core_rels", .list [.record [("s_id", "p"), ("e_id", "q"), ("type", "USES")],
          .record [("s_id", "q"), ("e_id", "p")]])]
    let w : World (Fixed (.rows [row])) := { outside := .services }
    let loaded := (outcome (loadIncident "i") w).2
    let expanded := (outcome (expand "m") loaded).2
    let failed := outcome (discover "a" "b") expanded
    failed.1.isOk = false ∧ (canvasOf failed.2).nodes.length = 7 ∧
      (canvasOf failed.2).edges.length = 5 ∧ (canvasOf failed.2).Sound := by
  intro node row w loaded expanded failed
  have hloaded : Reached loaded := .load _ (.fresh rfl)
  have hin : (Value.text "m") ∈ (canvasOf loaded).nodeIds := by
    have hany : (canvasOf loaded).nodeIds.any (· == "m") = true := by decide +kernel
    obtain ⟨id, hid, heq⟩ := List.any_eq_true.mp hany
    rwa [Value.beq_text_iff.mp heq] at hid
  refine ⟨by decide +kernel, by decide +kernel, by decide +kernel, ?_⟩
  exact sound_of_reached (answers_fixed (by decide +kernel)) (answers_fixed (by decide +kernel))
    (.discover _ _ (.expand hin hloaded))

end ThreatAtlas.Dashboard.Exploration
