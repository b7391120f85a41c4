import ThreatAtlas.Draft.Grounding
import ThreatAtlas.Proofs.Report.Grounding
import ThreatAtlas.Proofs.Similarity
import ThreatAtlas.Proofs.Value

/-!
# Entities found by their exact names

A node with the name of the entity, but for case, has the ratio one, and a node with another name has
less. So the first node of that name is the one that both ways of grounding take, and what is written
down for equal names is what comparing them gives.
-/

namespace ThreatAtlas

open Job (Returns outcome)
open Similarity (Ratio ratio)

/-! Rows that tell of nodes -/

/-- The row tells of a node: its name, which is a text, its id and its labels. -/
structure Row.Tells (row : Row) (name : String) (id labels : Value) : Prop where
  name : row.item "name" = .ok (.text name)
  id : row.item "id" = .ok id
  labels : row.item "labels" = .ok labels

def Row.isNamed (text : String) (row : Row) : Bool :=
  match row.item "name" with
  | .ok (.text name) => Text.lower name == Text.lower text
  | _ => false

private theorem Row.Tells.isNamed_iff {row : Row} {name : String} {id labels : Value}
    (h : row.Tells name id labels) (text : String) :
    row.isNamed text = true ↔ Text.lower text = Text.lower name := by
  unfold Row.isNamed
  rw [h.name]
  exact beq_iff_eq.trans eq_comm

private theorem firstGreatest_of_find? {α β γ : Type} [LinearOrder γ] (key : β → γ) {R : α → β → Prop}
    {p : α → Bool} {top : γ} {xs : List α} {ys : List β} (h : List.Forall₂ R xs ys)
    (htop : ∀ x y, R x y → key y ≤ top ∧ (p x = true ↔ key y = top)) {x : α}
    (hfind : xs.find? p = some x) : ∃ y, R x y ∧ key y = top ∧ FirstGreatest key ys y := by
  induction h with
  | nil => cases hfind
  | @cons x₁ y₁ xs ys hR hrest ih =>
    obtain ⟨hle, htop₁⟩ := htop x₁ y₁ hR
    by_cases hp : p x₁ = true
    · rw [List.find?_cons_of_pos hp, Option.some.injEq] at hfind
      subst hfind
      refine ⟨y₁, hR, htop₁.mp hp, [], ys, rfl, nofun, fun y hy => ?_⟩
      obtain ⟨x', -, hR'⟩ := exists_left_of_forall₂ hrest hy
      rw [htop₁.mp hp]
      exact (htop x' y hR').1
    · rw [List.find?_cons_of_neg hp] at hfind
      obtain ⟨y, hRy, hy, before, after, rfl, hbefore, hafter⟩ := ih hfind
      refine ⟨y, hRy, hy, y₁ :: before, after, rfl, fun z hz => ?_, hafter⟩
      rcases List.mem_cons.mp hz with rfl | hz
      · rw [hy]
        exact lt_of_le_of_ne hle (mt htop₁.mpr hp)
      · exact hbefore z hz

namespace Entity

private theorem candidate_of_tells (e : Entity) {row : Row} {name : String} {id labels : Value}
    (h : row.Tells name id labels) :
    e.candidate row = .ok ⟨name, id, ratio (Text.lower e.value) (Text.lower name)⟩ := by
  have hname : (Value.record row).item "name" = .ok (.text name) := h.name
  have hid : (Value.record row).item "id" = .ok id := h.id
  have hlabels : (Value.record row).item "labels" = .ok labels := h.labels
  unfold candidate
  dsimp only
  rw [hname, hid, hlabels]
  rfl

private theorem best?_eq_some {cs : List Candidate} {c : Candidate} (hden : ∀ c ∈ cs, 0 < c.score.den)
    (h : FirstGreatest (fun c : Candidate => c.score.value) cs c) : best? cs = some c := by
  cases cs with
  | nil => cases h.mem
  | cons first cs =>
    have hfold := firstGreatest_foldl (fun c : Candidate => c.score.value)
      (fun x y => x.score.lt y.score) first cs fun x hx y hy => Ratio.lt_iff (hden x hx) (hden y hy)
    exact congrArg some (hfold.unique h)

def Made (e : Entity) (row : Row) (c : Candidate) : Prop :=
  ∃ name id labels, row.Tells name id labels ∧
    c = ⟨name, id, ratio (Text.lower e.value) (Text.lower name)⟩

private theorem exists_made (e : Entity) {rows : List Row}
    (hrows : ∀ row ∈ rows, ∃ name id labels, row.Tells name id labels) :
    ∃ cs, rows.mapM e.candidate = .ok cs ∧ List.Forall₂ e.Made rows cs := by
  induction rows with
  | nil => exact ⟨[], rfl, .nil⟩
  | cons row rows ih =>
    rw [List.forall_mem_cons] at hrows
    obtain ⟨⟨name, id, labels, htells⟩, hrest⟩ := hrows
    obtain ⟨cs, hcs, hmade⟩ := ih hrest
    refine ⟨_ :: cs, ?_, .cons ⟨name, id, labels, htells, rfl⟩ hmade⟩
    rw [List.mapM_cons, e.candidate_of_tells htells, hcs]
    rfl

section

variable {σ : Type} [Outside σ]

private theorem ground_of_certain (model : Model) {e : Entity} {w : World σ} {cs : List Candidate}
    {c : Candidate} (hcs : (e.namesakes w).mapM e.candidate = .ok cs) (hbest : best? cs = some c)
    (hcertain : isCertain c.score = true) :
    Returns (e.ground model) w (e.settledBy (.certain c)) (e.afterLookup w) := by
  unfold ground
  change Returns (Job.askOrNone e.nodesQuery >>= _) w _ _
  rw [Job.returns_bind_of_returns (e.outcome_lookup w), Job.returns_lift_bind]
  refine ⟨cs, hcs, ?_⟩
  rw [hbest]
  dsimp only
  rw [if_pos hcertain]
  exact Job.returns_pure.mpr ⟨rfl, rfl⟩

private theorem isCertain_of_value {r : Ratio} (hden : 0 < r.den) (h : r.value = 1) : isCertain r = true := by
  unfold isCertain
  rw [Ratio.lt_iff (by decide) hden, h]
  norm_num [Ratio.value]

private theorem ground_of_named (model : Model) (e : Entity) (w : World σ)
    (hrows : ∀ row ∈ e.namesakes w, ∃ name id labels, row.Tells name id labels)
    (hnamed : ∃ row ∈ e.namesakes w, row.isNamed e.value = true) :
    ∃ row name id labels w', (e.namesakes w).find? (·.isNamed e.value) = some row ∧
      row.Tells name id labels ∧
      Returns (e.ground model) w
        { e with normalized := some name, existingId := id, isNew := false } w' ∧
      w'.trace.consultations = w.trace.consultations := by
  obtain ⟨row, hfind⟩ := Option.isSome_iff_exists.mp (List.find?_isSome.mpr hnamed)
  obtain ⟨cs, hcs, hmade⟩ := e.exists_made hrows
  have htop (row : Row) (c : Candidate) (h : e.Made row c) :
      c.score.value ≤ 1 ∧ (row.isNamed e.value = true ↔ c.score.value = 1) := by
    obtain ⟨name, id, labels, htells, rfl⟩ := h
    dsimp only
    rw [htells.isNamed_iff, Similarity.value_ratio_eq_one_iff]
    exact ⟨Similarity.value_ratio_le_one (Text.lower e.value) (Text.lower name), Iff.rfl⟩
  obtain ⟨c, ⟨name, id, labels, htells, rfl⟩, hone, hfirst⟩ :=
    firstGreatest_of_find? (fun c : Candidate => c.score.value) hmade htop hfind
  have hden : ∀ c ∈ cs, 0 < c.score.den := by
    intro c hc
    obtain ⟨row, -, name, id, labels, -, rfl⟩ := exists_left_of_forall₂ hmade hc
    exact Similarity.ratio_den_pos (Text.lower e.value) (Text.lower name)
  have hreturns := ground_of_certain model hcs (best?_eq_some hden hfirst)
    (isCertain_of_value (hden _ hfirst.mem) hone)
  exact ⟨row, name, id, labels, _, hfind, htells, hreturns, e.consultations_afterLookup w⟩

end

end Entity

namespace DraftEntity

/-! The score written down for equal names -/

private theorem scoreOf_of_eq {a b : String} (h : Text.lower a = Text.lower b) : scoreOf a b = .one :=
  if_pos (beq_iff_eq.mpr h)

theorem scoreOf_of_ne {a b : String} (h : Text.lower a ≠ Text.lower b) : scoreOf a b = similarity a b :=
  if_neg (mt beq_iff_eq.mp h)

private theorem value_scoreOf (a b : String) : (scoreOf a b).value = (similarity a b).value := by
  by_cases h : Text.lower a = Text.lower b
  · rw [scoreOf_of_eq h, Ratio.value_one]
    exact ((Similarity.value_ratio_eq_one_iff (Text.lower a) (Text.lower b)).mpr h).symm
  · rw [scoreOf_of_ne h]

private theorem similarity_den_pos (a b : String) : 0 < (similarity a b).den :=
  Similarity.ratio_den_pos (Text.lower a) (Text.lower b)

private theorem scoreOf_den_pos (a b : String) : 0 < (scoreOf a b).den := by
  unfold scoreOf
  split
  · exact Nat.one_pos
  · exact similarity_den_pos a b

private theorem value_scoreOf_le_one (a b : String) : (scoreOf a b).value ≤ 1 := by
  rw [value_scoreOf]
  exact Similarity.value_ratio_le_one (Text.lower a) (Text.lower b)

private theorem value_scoreOf_eq_one_iff (a b : String) :
    (scoreOf a b).value = 1 ↔ Text.lower a = Text.lower b := by
  rw [value_scoreOf]
  exact Similarity.value_ratio_eq_one_iff (Text.lower a) (Text.lower b)

structure Same (best best' : Option Node × Ratio) : Prop where
  node : best.1 = best'.1
  value : best.2.value = best'.2.value
  den : 0 < best.2.den
  den' : 0 < best'.2.den

private theorem same_of_value (node : Option Node) {r r' : Ratio} (hvalue : r.value = r'.value)
    (hden : 0 < r.den) (hden' : 0 < r'.den) : Same (node, r) (node, r') :=
  ⟨rfl, hvalue, hden, hden'⟩

variable {best : Option Node × Ratio} {name : String} {row : Row} {rows : List Row}

theorem same_betterBy {best' : Option Node × Ratio} (h : Same best best') (name : String) (row : Row) :
    Agree Same (betterBy similarity name best row) (betterBy scoreOf name best' row) := by
  unfold betterBy
  refine (Agree.refl (fun _ => rfl) (row.item "name")).bind ?_
  rintro found _ rfl
  refine (Agree.refl (fun _ => rfl) (found.asText "lower")).bind ?_
  rintro name' _ rfl
  refine (Agree.refl (fun _ => rfl) (primaryLabel (.record row))).bind ?_
  rintro label _ rfl
  have hlt : best.2.lt (similarity name name') = best'.2.lt (scoreOf name name') := by
    rw [Bool.eq_iff_iff, Ratio.lt_iff h.den (similarity_den_pos name name'),
      Ratio.lt_iff h.den' (scoreOf_den_pos name name'), value_scoreOf, h.value]
  rw [hlt]
  by_cases hbetter : best'.2.lt (scoreOf name name') = true
  · rw [if_pos hbetter, if_pos hbetter]
    refine (Agree.refl (fun _ => rfl) (row.item "id")).bind ?_
    rintro id _ rfl
    exact .ok (same_of_value (some ⟨name', id, label⟩) (value_scoreOf name name').symm
      (similarity_den_pos name name') (scoreOf_den_pos name name'))
  · rw [if_neg hbetter, if_neg hbetter]
    exact .ok h

private theorem same_closest (name : String) (rows : List Row) :
    Agree Same (closest similarity name rows) (closest scoreOf name rows) := by
  have hgeneral (best best' : Option Node × Ratio) (h : Same best best') :
      Agree Same (rows.foldlM (betterBy similarity name) best)
        (rows.foldlM (betterBy scoreOf name) best') := by
    induction rows generalizing best best' with
    | nil => exact .ok h
    | cons row rows ih =>
      rw [List.foldlM_cons, List.foldlM_cons]
      exact (same_betterBy h name row).bind ih
  exact hgeneral _ _ ⟨rfl, rfl, Nat.one_pos, Nat.one_pos⟩

/-- The entities are alike but for the form of the ratio that their scores are. -/
def Alike (e e' : DraftEntity) : Prop :=
  e = { e' with score := e.score } ∧
    ∃ r r' : Ratio, e.score = r.toFloat ∧ e'.score = r'.toFloat ∧ r.value = r'.value

private theorem toFloat_one : Ratio.one.toFloat = 1.0 := by
  decide +kernel

private theorem toFloat_zero : Ratio.zero.toFloat = 0.0 := by
  decide +kernel

private theorem isClose_iff {r : Ratio} (h : 0 < r.den) : isClose r = true ↔ 8 / 10 ≤ r.value := by
  unfold isClose
  rw [Bool.not_eq_true', Bool.eq_false_iff, ne_eq, Ratio.lt_iff h (by decide), not_lt]
  norm_num [Ratio.value]

private theorem Same.takenFrom {best' : Option Node × Ratio} (h : Same best best') (e : DraftEntity) :
    Alike (e.takenFrom best) (e.takenFrom best') := by
  have hclose : isClose best.2 = isClose best'.2 := by
    rw [Bool.eq_iff_iff, isClose_iff h.den, isClose_iff h.den', h.value]
  unfold DraftEntity.takenFrom
  rw [h.node, hclose]
  cases best'.1 with
  | none => exact ⟨rfl, .zero, .zero, toFloat_zero.symm, toFloat_zero.symm, rfl⟩
  | some node =>
    dsimp only
    split
    · exact ⟨rfl, best.2, best'.2, rfl, rfl, h.value⟩
    · exact ⟨rfl, best.2, best'.2, rfl, rfl, h.value⟩

/-! The first node of the name -/

private theorem exists_primaryLabel {id first : Value} {rest : List Value}
    (h : row.Tells name id (.list (first :: rest))) : ∃ label, primaryLabel (.record row) = .ok label := by
  have hlabels : (Value.record row).item "labels" = .ok (.list (first :: rest)) := h.labels
  unfold primaryLabel
  rw [hlabels]
  dsimp only [bind, Except.bind, Value.elements]
  split
  case h_1 label _ _ => exact ⟨label, rfl⟩
  case h_2 => exact ⟨first, rfl⟩

/-- What is compared of a row that tells of a node with labels. -/
def Made (name : String) (row : Row) (best : Option Node × Ratio) : Prop :=
  ∃ found id labels label, row.Tells found id labels ∧ primaryLabel (.record row) = .ok label ∧
    best = (some ⟨found, id, label⟩, scoreOf name found)

private theorem exists_made (name : String)
    (hrows : ∀ row ∈ rows, ∃ found id label labels, row.Tells found id (.list (label :: labels))) :
    ∃ nodes, List.Forall₂ (Made name) rows nodes := by
  induction rows with
  | nil => exact ⟨[], .nil⟩
  | cons row rows ih =>
    rw [List.forall_mem_cons] at hrows
    obtain ⟨⟨found, id, label, labels, htells⟩, hrest⟩ := hrows
    obtain ⟨nodes, hmade⟩ := ih hrest
    obtain ⟨primary, hprimary⟩ := exists_primaryLabel htells
    exact ⟨_ :: nodes, .cons ⟨found, id, _, primary, htells, hprimary, rfl⟩ hmade⟩

theorem betterBy_of_made {node : Option Node × Ratio} (h : Made name row node) (best : Option Node × Ratio) :
    betterBy scoreOf name best row = .ok (if best.2.lt node.2 then node else best) := by
  obtain ⟨found, id, labels, label, htells, hlabel, rfl⟩ := h
  unfold betterBy
  rw [htells.name, htells.id, hlabel]
  change (if best.2.lt (scoreOf name found) then _ else _) = _
  dsimp only
  split <;> rfl

theorem closest_of_made {nodes : List (Option Node × Ratio)} (h : List.Forall₂ (Made name) rows nodes) :
    closest scoreOf name rows =
      .ok (nodes.foldl (fun best node => if best.2.lt node.2 then node else best) (none, .zero)) := by
  unfold closest
  generalize (none, Ratio.zero) = best
  induction h generalizing best with
  | nil => rfl
  | cons hmade hrest ih =>
    rw [List.foldlM_cons, betterBy_of_made hmade, List.foldl_cons]
    exact ih _

private theorem Made.den_pos {node : Option Node × Ratio} (h : Made name row node) : 0 < node.2.den := by
  obtain ⟨found, id, labels, label, -, -, rfl⟩ := h
  exact scoreOf_den_pos name found

private theorem closest_of_find?
    (hrows : ∀ row ∈ rows, ∃ found id label labels, row.Tells found id (.list (label :: labels)))
    (hfind : rows.find? (·.isNamed name) = some row) :
    ∃ node, Made name row node ∧ node.2.value = 1 ∧ closest scoreOf name rows = .ok node := by
  obtain ⟨nodes, hmade⟩ := exists_made name hrows
  have htop (row : Row) (node : Option Node × Ratio) (h : Made name row node) :
      node.2.value ≤ 1 ∧ (row.isNamed name = true ↔ node.2.value = 1) := by
    obtain ⟨found, id, labels, label, htells, -, rfl⟩ := h
    refine ⟨value_scoreOf_le_one name found, ?_⟩
    rw [htells.isNamed_iff, value_scoreOf_eq_one_iff]
  obtain ⟨node, hnode, hone, hfirst⟩ :=
    firstGreatest_of_find? (fun node => node.2.value) hmade htop hfind
  refine ⟨node, hnode, hone, ?_⟩
  have hden : ∀ node ∈ (none, Ratio.zero) :: nodes, 0 < node.2.den := by
    rintro node (_ | ⟨_, hmem⟩)
    · exact Nat.one_pos
    · obtain ⟨row, -, hmade⟩ := exists_left_of_forall₂ hmade hmem
      exact hmade.den_pos
  have hfold := firstGreatest_foldl (fun node : Option Node × Ratio => node.2.value)
    (fun x y => x.2.lt y.2) (none, .zero) nodes fun x hx y hy => Ratio.lt_iff (hden x hx) (hden y hy)
  have hfirst' : FirstGreatest (fun node : Option Node × Ratio => node.2.value)
      ((none, .zero) :: nodes) node := by
    obtain ⟨before, after, rfl, hbefore, hafter⟩ := hfirst
    refine ⟨(none, .zero) :: before, after, rfl, ?_, hafter⟩
    rw [List.forall_mem_cons]
    refine ⟨?_, hbefore⟩
    show Ratio.zero.value < node.2.value
    rw [Ratio.value_zero, hone]
    exact one_pos
  rw [closest_of_made hmade, hfold.unique hfirst']

private theorem takenFrom_of_made {e : DraftEntity} (h : Made e.name row best) (hone : best.2.value = 1) :
    ∃ name id labels label, row.Tells name id labels ∧
      e.takenFrom best = { e with
        normalized := some name, existingId := some id.display, graphLabel := label, score := 1.0 } := by
  obtain ⟨name, id, labels, label, htells, -, rfl⟩ := h
  refine ⟨name, id, labels, label, htells, ?_⟩
  have hsame := (value_scoreOf_eq_one_iff e.name name).mp hone
  have hclose : isClose .one = true := by decide
  unfold takenFrom
  dsimp only
  rw [scoreOf_of_eq hsame, if_pos hclose, toFloat_one]

section

variable {σ : Type} [Outside σ]

private theorem groundBy_returns (score : String → String → Ratio) {e : DraftEntity} (w : World σ)
    {best : Option Node × Ratio} (hlabel : e.label ≠ .incident ∧ e.label ≠ .security)
    (h : closest score e.name (w.rowsFor e.similarQuery) = .ok best) :
    ∃ w', Returns (e.groundBy score) w (e.takenFrom best) w' := by
  unfold groundBy
  rw [if_neg (by simpa using hlabel)]
  have hrows : Returns (Job.askOrNone e.similarQuery) w (w.rowsFor e.similarQuery)
      (outcome (Job.askOrNone e.similarQuery) w).2 :=
    Prod.ext (Job.outcome_askOrNone e.similarQuery w) rfl
  refine ⟨(outcome (Job.askOrNone e.similarQuery) w).2, ?_⟩
  rw [Job.returns_bind_of_returns hrows, Job.returns_lift_bind]
  exact ⟨best, h, rfl⟩

private theorem ground_of_named (e : DraftEntity) (w : World σ)
    (hlabel : e.label ≠ .incident ∧ e.label ≠ .security)
    (hrows : ∀ row ∈ w.rowsFor e.similarQuery,
      ∃ name id label labels, row.Tells name id (.list (label :: labels)))
    (hnamed : ∃ row ∈ w.rowsFor e.similarQuery, row.isNamed e.name = true) :
    ∃ row name id labels label w', (w.rowsFor e.similarQuery).find? (·.isNamed e.name) = some row ∧
      row.Tells name id labels ∧
      Returns e.ground w { e with
        normalized := some name, existingId := some id.display
        graphLabel := label, score := 1.0 } w' := by
  obtain ⟨row, hfind⟩ := Option.isSome_iff_exists.mp (List.find?_isSome.mpr hnamed)
  obtain ⟨best, hmade, hone, hclosest⟩ := closest_of_find? hrows hfind
  obtain ⟨name, id, labels, label, htells, htaken⟩ := takenFrom_of_made hmade hone
  obtain ⟨w', h⟩ := groundBy_returns scoreOf w hlabel hclosest
  rw [htaken] at h
  exact ⟨row, name, id, labels, label, w', hfind, htells, h⟩

private theorem relates_groundBy (e : DraftEntity) :
    Job.Relates (σ := σ) Eq Alike (e.groundBy similarity) e.ground := by
  unfold ground groundBy
  split
  · exact Job.relates_pure ⟨rfl, .one, .one, toFloat_one.symm, toFloat_one.symm, rfl⟩
  · refine Job.relates_bind (Job.relates_refl _) ?_
    rintro rows _ rfl
    refine Job.relates_bind (Job.relates_lift (same_closest e.name rows)) fun best best' hsame => ?_
    exact Job.relates_pure (hsame.takenFrom e)

end

end DraftEntity

/-- An exact name wins: of nodes whose names are texts, the first with the name of the entity, but for
case, is taken by both ways of grounding, by the one without asking a model and by the other with the
score one; and that score is no more than comparing the names gives. -/
theorem exact_name_wins {σ : Type} [Outside σ] :
    (∀ (model : Model) (e : Entity) (w : World σ),
      (∀ row ∈ e.namesakes w, ∃ name id labels, row.Tells name id labels) →
      (∃ row ∈ e.namesakes w, row.isNamed e.value = true) →
      ∃ row name id labels w', (e.namesakes w).find? (·.isNamed e.value) = some row ∧
        row.Tells name id labels ∧
        Returns (e.ground model) w
          { e with normalized := some name, existingId := id, isNew := false } w' ∧
        w'.trace.consultations = w.trace.consultations) ∧
    (∀ (e : DraftEntity) (w : World σ), e.label ≠ .incident ∧ e.label ≠ .security →
      (∀ row ∈ w.rowsFor e.similarQuery,
        ∃ name id label labels, row.Tells name id (.list (label :: labels))) →
      (∃ row ∈ w.rowsFor e.similarQuery, row.isNamed e.name = true) →
      ∃ row name id labels label w', (w.rowsFor e.similarQuery).find? (·.isNamed e.name) = some row ∧
        row.Tells name id labels ∧
        Returns e.ground w { e with
          normalized := some name, existingId := some id.display
          graphLabel := label, score := 1.0 } w') ∧
    (∀ name found, (DraftEntity.scoreOf name found).value = (DraftEntity.similarity name found).value) ∧
    ∀ e : DraftEntity, e.ground (σ := σ) = e.groundBy DraftEntity.scoreOf ∧
      Job.Relates (σ := σ) Eq DraftEntity.Alike (e.groundBy DraftEntity.similarity) e.ground :=
  ⟨Entity.ground_of_named, DraftEntity.ground_of_named, DraftEntity.value_scoreOf, fun e =>
    ⟨rfl, e.relates_groundBy⟩⟩

/-- A longer name that comes first does not win over the exact one. -/
theorem exact_name_wins_over_longer :
    let row (name id : String) : Row :=
      [("name", .text name), ("id", .text id), ("labels", .list ["Malware"])]
    let rows := [row "Emotet loader" "1", row "EMOTET" "2", row "emotet" "3"]
    let w : World Steady := { outside := ⟨.rows rows, .failed ""⟩ }
    let e : Entity := { kind := .malware, value := "Emotet" }
    let d : DraftEntity := { name := "Emotet", label := .malware, reasoning := "" }
    (∃ w', Returns (e.ground ⟨.ollama, []⟩) w
      { e with normalized := some "EMOTET", existingId := "2", isNew := false } w' ∧
      w'.trace.consultations = []) ∧
    ∃ label w', Returns d.ground w { d with
      normalized := some "EMOTET", existingId := some "2", graphLabel := label, score := 1.0 } w' := by
  intro row rows w e d
  have htells (name id : String) : (row name id).Tells name (.text id) (.list ["Malware"]) :=
    ⟨rfl, rfl, rfl⟩
  have hall : ∀ r ∈ rows, ∃ name id, r = row name id := by
    intro r hr
    simp only [rows, List.mem_cons, List.not_mem_nil, or_false] at hr
    rcases hr with rfl | rfl | rfl <;> exact ⟨_, _, rfl⟩
  have hnamed : (row "EMOTET" "2").isNamed "Emotet" = true := rfl
  have hfirst {r : Row} {name : String} {id labels : Value}
      (hr : rows.find? (·.isNamed "Emotet") = some r) (hread : r.Tells name id labels) :
      name = "EMOTET" ∧ id = "2" := by
    obtain rfl : row "EMOTET" "2" = r := Option.some.inj hr
    exact ⟨(Value.text.inj (Except.ok.inj hread.name)).symm, (Except.ok.inj hread.id).symm⟩
  have hrows : e.namesakes w = rows := rfl
  have hrows' : w.rowsFor d.similarQuery = rows := rfl
  constructor
  · obtain ⟨r, name, id, labels, w', hr, hread, hreturns, hasked⟩ := exact_name_wins.1 ⟨.ollama, []⟩ e w
      (fun r hr => by obtain ⟨name, id, rfl⟩ := hall r hr; exact ⟨name, _, _, htells name id⟩)
      ⟨row "EMOTET" "2", by simp [hrows, rows], hnamed⟩
    obtain ⟨rfl, rfl⟩ := hfirst hr hread
    exact ⟨w', hreturns, hasked⟩
  · obtain ⟨r, name, id, labels, label, w', hr, hread, hreturns⟩ := exact_name_wins.2.1 d w (by decide)
      (fun r hr => by obtain ⟨name, id, rfl⟩ := hall r hr; exact ⟨name, _, _, _, htells name id⟩)
      ⟨row "EMOTET" "2", by simp [hrows', rows], hnamed⟩
    obtain ⟨rfl, rfl⟩ := hfirst hr hread
    exact ⟨label, w', hreturns⟩

end ThreatAtlas
