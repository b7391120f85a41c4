import ThreatAtlas.Proofs.Report.Processing

/-!
# Coherent entities

A report is stored under the names its entities took when they were grounded, and an entity counts as
new or as a node of the graph. Both can be relied on only where the verdict brought along what it says: a
verdict without a node does not take away an id the entity had before, and a model may call the entity
known without giving its name, or give an id that is in none of the rows.
-/

namespace ThreatAtlas.Entity

open Job (Returns)

/-- The entity has a name to be stored under, is new exactly when it has no id, and has its id from one
of the rows when it is not new. -/
structure Coherent (rows : List Row) (e : Entity) : Prop where
  named : e.normalized ≠ none
  new_iff : e.isNew = true ↔ e.existingId = .null
  known : e.isNew = false → ∃ row ∈ rows, Row.item row "id" = .ok e.existingId

/-- What an entity and its verdict must have for the entity to be coherent afterwards. -/
def Verdict.Supports (rows : List Row) (e : Entity) : Verdict → Prop
  | .unmatched => e.existingId = .null
  | .certain c => c.id ≠ .null
  | .resolved r => r.name ≠ none ∧
      ∃ id, r.matchedId = some id ∧ ∃ row ∈ rows, Row.item row "id" = .ok (.text id)

private theorem mem_of_best? {cs : List Candidate} {best : Candidate} (h : best? cs = some best) :
    best ∈ cs := by
  cases cs with
  | nil => cases h
  | cons c cs =>
    have hfold (cs : List Candidate) (c : Candidate) :
        cs.foldl (fun best c => if best.score.lt c.score then c else best) c ∈ c :: cs := by
      induction cs generalizing c with
      | nil => simp
      | cons d cs ih =>
        rw [List.foldl_cons]
        rcases List.mem_cons.mp (ih (if c.score.lt d.score then d else c)) with hhead | hrest
        · rw [hhead]
          split <;> simp
        · exact List.mem_cons_of_mem _ (List.mem_cons_of_mem _ hrest)
    cases h
    exact hfold cs c

private theorem candidate_id {e : Entity} {row : Row} {c : Candidate} (h : e.candidate row = .ok c) :
    Row.item row "id" = .ok c.id := by
  obtain ⟨name, -, h⟩ := bind_eq_ok.mp h
  obtain ⟨found, -, h⟩ := bind_eq_ok.mp h
  obtain ⟨id, hid, h⟩ := bind_eq_ok.mp h
  obtain ⟨labels, -, h⟩ := bind_eq_ok.mp h
  cases h
  exact hid

section

variable {σ : Type} [Outside σ]

private theorem exists_row_of_certain {model : Model} {e : Entity} {w : World σ} {c : Candidate}
    (h : e.verdict model w = .certain c) :
    ∃ row ∈ e.namesakes w, Row.item row "id" = .ok c.id := by
  unfold verdict at h
  split at h
  case h_1 => cases h
  case h_2 candidates hcandidates =>
    split at h
    case h_1 => cases h
    case h_2 best hbest =>
      split at h
      case isTrue =>
        cases h
        obtain ⟨row, hrow, hc⟩ := exists_left_of_forall₂ (mapM_eq_ok.mp hcandidates) (mem_of_best? hbest)
        exact ⟨row, hrow, candidate_id hc⟩
      case isFalse =>
        split at h
        case isTrue =>
          split at h
          case h_1 =>
            split at h <;> cases h
          case h_2 => cases h
        case isFalse => cases h

end

/-- An entity is coherent after a verdict exactly when it and the verdict support each other. -/
theorem coherent_settledBy_iff {rows : List Row} {e : Entity} {v : Verdict}
    (hcertain : ∀ c, v = .certain c → ∃ row ∈ rows, Row.item row "id" = .ok c.id) :
    Coherent rows (e.settledBy v) ↔ v.Supports rows e := by
  cases v with
  | unmatched =>
    constructor
    · intro h
      exact h.new_iff.mp rfl
    · intro h
      exact ⟨Option.some_ne_none _, ⟨fun _ => h, fun _ => rfl⟩, fun hnew => (nomatch hnew)⟩
  | certain c =>
    constructor
    · intro h hnull
      cases h.new_iff.mpr hnull
    · intro h
      refine ⟨Option.some_ne_none _, ⟨fun hnew => (nomatch hnew), fun hnull => absurd hnull h⟩, ?_⟩
      intro _
      exact hcertain c rfl
  | resolved r =>
    have hnew (h : Coherent rows (e.settledBy (.resolved r))) :
        ∃ id, r.matchedId = some id := by
      cases hid : r.matchedId with
      | some id => exact ⟨id, rfl⟩
      | none => cases h.new_iff.mpr (show Value.ofOption r.matchedId = .null by rw [hid]; rfl)
    constructor
    · intro h
      obtain ⟨id, hid⟩ := hnew h
      obtain ⟨row, hrow, hitem⟩ := h.known rfl
      change Row.item row "id" = .ok (.ofOption r.matchedId) at hitem
      rw [hid] at hitem
      exact ⟨h.named, id, hid, row, hrow, hitem⟩
    · intro hparts
      obtain ⟨hname, id, hid, row, hrow, hitem⟩ := hparts
      have hvalue : (e.settledBy (.resolved r)).existingId = .text id := by
        change Value.ofOption r.matchedId = .text id
        rw [hid]
        rfl
      refine ⟨hname, ⟨fun hnew => (nomatch hnew), fun hnull => ?_⟩, fun _ => ?_⟩
      · rw [hvalue] at hnull
        cases hnull
      · rw [hvalue]
        exact ⟨row, hrow, hitem⟩

private theorem normalized_settledBy_eq_none_iff {e : Entity} {v : Verdict} :
    (e.settledBy v).normalized = none ↔ ∃ m, v = .resolved m ∧ m.name = none := by
  cases v with
  | unmatched =>
    constructor
    · intro h
      cases h
    · intro hparts
      obtain ⟨m, hm, -⟩ := hparts
      cases hm
  | certain c =>
    constructor
    · intro h
      cases h
    · intro hparts
      obtain ⟨m, hm, -⟩ := hparts
      cases hm
  | resolved r =>
    constructor
    · intro h
      exact ⟨r, rfl, h⟩
    · intro hparts
      obtain ⟨m, hm, hname⟩ := hparts
      cases hm
      exact hname

/-- When an entity is coherent after grounding: without a match if it had no id before, with a certain
match if the node has an id, and with a resolved one if the model gives a name and the id of a row. In a
processed report every entity is such a result, and it has no name to be stored under exactly when a
model resolved it without giving one. -/
theorem grounding_coherent_iff {σ : Type} [Outside σ] :
    (∀ (model : Model) (e g : Entity) (w w' : World σ), Returns (e.ground model) w g w' →
      (Coherent (e.namesakes w) g ↔ (e.verdict model w).Supports (e.namesakes w) e)) ∧
    ∀ (s : Settings) (text : String) (r : Report) (w w' : World σ),
      Returns (Report.process s text) w r w' → ∀ g ∈ r.entities, ∃ (e : Entity) (v v' : World σ),
        Returns (e.ground (.ofSettings s (.int 0))) v g v' ∧
        (g.normalized = none ↔
          ∃ m, e.verdict (.ofSettings s (.int 0)) v = .resolved m ∧ m.name = none) := by
  constructor
  · intro model e g w w' h
    obtain ⟨-, rfl⟩ := ground_returns h
    exact coherent_settledBy_iff fun c hc => exists_row_of_certain hc
  · intro s text r w w' h g hg
    obtain ⟨drafted, w₁, ss, -, hsettled, rfl⟩ := Report.process_returns h
    obtain ⟨step', hstep', hg⟩ := List.mem_flatMap.mp hg
    obtain ⟨step, -, hsettled⟩ := exists_left_of_forall₂ hsettled hstep'
    obtain ⟨e, -, v, v', hground⟩ := exists_left_of_forall₂ hsettled.entities hg
    refine ⟨e, v, v', hground, ?_⟩
    rw [(ground_returns hground).2]
    exact normalized_settledBy_eq_none_iff

/-- A model that calls an entity known and says no more leaves it without a name and without an id. -/
theorem grounding_incoherent_nameless :
    let w : World Steady :=
      { outside := ⟨.rows [[("name", "RemcosRAT"), ("id", "4:1"), ("labels", .list ["Malware"])]],
          .object (.record [("is_match", .bool true)])⟩ }
    let e : Entity := { kind := .malware, value := "Remcos" }
    ∃ g w', Returns (e.ground ⟨.ollama, []⟩) w g w' ∧ ¬ Coherent (e.namesakes w) g := by
  intro w e
  obtain ⟨g, w', h⟩ := Job.exists_returns_iff.mpr
    (show (Job.outcome (e.ground ⟨.ollama, []⟩) w).1.isOk = true by decide +kernel)
  refine ⟨g, w', h, ?_⟩
  have hnameless : (match e.verdict ⟨.ollama, []⟩ w with
      | .resolved m => m.name.isNone
      | _ => false) = true := by decide +kernel
  rw [grounding_coherent_iff.1 _ e g w w' h]
  cases hverdict : e.verdict ⟨.ollama, []⟩ w with
  | unmatched | certain => simp [hverdict] at hnameless
  | resolved m =>
    rw [hverdict] at hnameless
    intro hparts
    obtain ⟨hname, -⟩ := hparts
    exact hname (Option.isNone_iff_eq_none.mp hnameless)

end ThreatAtlas.Entity
