import ThreatAtlas.Proofs.Number.Nearest
import ThreatAtlas.Proofs.Value.Sort
import ThreatAtlas.Toolbox.Paths

/-!
# The ranking of paths

The score of a path is the reciprocal of its length and a half for each incident it meets, rounded to
thousandths. Rounding never turns the order around: this holds for exact scores of any size, and for those
that are computed with 53 bits as long as a path meets no more than `2 ^ 50` incidents.
-/

namespace ThreatAtlas.Toolbox

/-- The value is a list of these items, or there is nothing in its place. -/
def Listed (v : Value) (items : List Value) : Prop :=
  v = .list items ∨ v.truthy = false ∧ items = []

/-- The nodes and relations that a row tells, in one of the two shapes: those of a path, or a neighbour
with the relation to it. -/
inductive Tells (row : Row) : List Value → List Value → Prop
  | path {v : Value} {nodes relations : List Value} (hnodes : row.lookup "nodes" = some v)
      (hlisted : Listed v nodes) (hrelations : Listed (row.get "rels") relations) :
      Tells row nodes relations
  | entry {fields : Fields} (hnodes : row.lookup "nodes" = none)
      (hentry : row.lookup "entry" = some (.record fields)) (hfields : fields ≠ []) :
      Tells row [fields.get "neighbor"] [fields.get "rel"]
  | noEntry {v : Value} (hnodes : row.lookup "nodes" = none) (hentry : row.lookup "entry" = some v)
      (hnothing : v.truthy = false) : Tells row [] []

/-- A node as the queries tell it: its labels are texts and its properties a record, as far as they are
there. -/
def IsNode (node : Value) : Prop :=
  ∀ fields : Fields, node = .record fields →
    (∃ labels, Listed (fields.get "labels") labels ∧
      ∀ label ∈ labels, label.truthy = true → ∃ s, label = .text s) ∧
    ((fields.get "props").truthy = false ∨ ∃ properties, fields.get "props" = .record properties)

def namesIncident : Value → Bool
  | .text s => Text.contains "incident" (Text.lower s) || Text.contains "intelligence" (Text.lower s)
  | _ => false

def itemsOf : Value → List Value
  | .list items => items
  | _ => []

def isIncident : Value → Bool
  | .record fields => (itemsOf (Fields.get fields "labels")).any namesIncident
  | _ => false

/-- The record of a path with these nodes and relations. -/
structure PathRecord.Describes (p : PathRecord) (nodes rels : List Value) : Prop where
  stops : p.stops.length = nodes.length
  relations : p.relations = .list rels
  length : p.length = if nodes = [] then rels.length else nodes.length
  incidents : p.incidents = nodes.countP isIncident

private theorem speaksOfIncident_eq {label : Value} (h : label.truthy = true → ∃ s, label = .text s) :
    speaksOfIncident label = .ok (namesIncident label) := by
  unfold speaksOfIncident
  cases htruthy : label.truthy with
  | true =>
    obtain ⟨s, rfl⟩ := h htruthy
    rfl
  | false =>
    cases label with
    | text s =>
      obtain rfl : s = "" := by simpa [Value.truthy] using htruthy
      rfl
    | _ => rfl

private theorem someIncident_eq {labels : List Value}
    (h : ∀ label ∈ labels, label.truthy = true → ∃ s, label = .text s) :
    someIncident labels = .ok (labels.any namesIncident) := by
  induction labels with
  | nil => rfl
  | cons label labels ih =>
    rw [List.forall_mem_cons] at h
    rw [someIncident, speaksOfIncident_eq h.1, List.any_cons]
    cases hnames : namesIncident label with
    | true => rfl
    | false => exact ih h.2

private theorem exists_shownProperty {properties : Value}
    (h : properties.truthy = false ∨ ∃ fields, properties = .record fields) :
    ∃ shown, shownProperty properties = .ok shown := by
  have hgo (fields : Fields) (names : List String) :
      ∃ shown, shownProperty.go (.record fields) names = .ok shown := by
    induction names with
    | nil => exact ⟨_, rfl⟩
    | cons name names ih =>
      cases hhas : fields.lookup name with
      | none =>
        obtain ⟨shown, hshown⟩ := ih
        refine ⟨shown, ?_⟩
        change (if (fields.lookup name).isSome = true then _ else shownProperty.go _ names) = _
        rwa [hhas]
      | some v =>
        refine ⟨v, ?_⟩
        change (if (fields.lookup name).isSome = true then
          .ok ((fields.lookup name).getD .null) else shownProperty.go _ names) = _
        rw [hhas]
        rfl
  unfold shownProperty
  rcases h with hnothing | ⟨fields, rfl⟩
  · rw [hnothing]
    exact ⟨_, rfl⟩
  · split
    · exact hgo fields _
    · exact ⟨_, rfl⟩

variable {items nodes : List Value} {v : Value} {row : Row}

private theorem Listed.elements_bind {α : Type} (h : Listed v items) (next : List Value → Except Failure α) :
    (if v.truthy then v.elements >>= next else .ok [] >>= next) = next items := by
  rcases h with rfl | ⟨hnothing, rfl⟩
  · cases items <;> rfl
  · rw [hnothing]
    rfl

private theorem Listed.itemsOf_eq (h : Listed v items) : itemsOf v = items := by
  rcases h with rfl | ⟨hnothing, rfl⟩
  · rfl
  · cases v with
    | list items => simpa [Value.truthy, itemsOf] using hnothing
    | _ => rfl

private theorem Listed.orElse_eq (h : Listed v items) : v.orElse (.list []) = .list items := by
  unfold Value.orElse
  rcases h with rfl | ⟨hnothing, rfl⟩
  · cases items <;> rfl
  · rw [hnothing]
    rfl

private theorem exists_pathStop {node : Value} (h : IsNode node) :
    ∃ stop, pathStop node = .ok (stop, isIncident node) := by
  cases node with
  | record fields =>
    obtain ⟨⟨labels, hlabels, htexts⟩, hproperties⟩ := h fields rfl
    obtain ⟨shown, hshown⟩ := exists_shownProperty hproperties
    refine ⟨⟨Fields.get fields "labels", shown, Fields.get fields "props"⟩, ?_⟩
    unfold pathStop
    dsimp only
    rw [hlabels.elements_bind, hshown, isIncident, hlabels.itemsOf_eq]
    change (do return (_, ← someIncident labels)) = _
    rw [someIncident_eq htexts]
    rfl
  | _ => exact ⟨⟨.list [], .null, .record []⟩, rfl⟩

private theorem exists_mapM_pathStop (h : ∀ node ∈ nodes, IsNode node) :
    ∃ stops, nodes.mapM pathStop = .ok stops ∧ stops.length = nodes.length ∧
      (stops.filter (·.2)).length = nodes.countP isIncident := by
  obtain ⟨stops, hstops, hmarked⟩ := exists_mapM
    (R := fun node (stop : PathStop × Bool) => stop.2 = isIncident node)
    fun node hnode => by
      obtain ⟨stop, hstop⟩ := exists_pathStop (h node hnode)
      exact ⟨(stop, isIncident node), hstop, rfl⟩
  refine ⟨stops, hstops, hmarked.length_eq.symm, ?_⟩
  rw [← List.countP_eq_length_filter]
  clear hstops h
  induction hmarked with
  | nil => rfl
  | cons hstop _ ih => rw [List.countP_cons, List.countP_cons, ih, hstop]

private theorem pathParts_of_tells {rels : List Value} (h : Tells row nodes rels) :
    pathParts row = .ok (.list nodes, .list rels) := by
  unfold pathParts
  cases h with
  | path hnodes hlisted hrels =>
    rw [hnodes]
    dsimp only
    rw [hlisted.orElse_eq, hrels.orElse_eq]
  | entry hnodes hentry hfields =>
    rw [hnodes, hentry]
    dsimp only
    rw [if_pos (by simpa [Value.truthy] using hfields)]
    rfl
  | noEntry hnodes hentry hnothing =>
    rw [hnodes, hentry]
    dsimp only
    rw [hnothing]
    rfl

private theorem exists_pathRecord {rels : List Value} (h : Tells row nodes rels)
    (hnodes : ∀ node ∈ nodes, IsNode node) : ∃ p, pathRecord row = .ok p ∧ p.Describes nodes rels := by
  obtain ⟨stops, hstops, hlength, hcount⟩ := exists_mapM_pathStop hnodes
  let p : PathRecord :=
    { stops := stops.map (·.1)
      relations := .list rels
      length := if nodes = [] then rels.length else nodes.length
      incidents := (stops.filter (·.2)).length }
  refine ⟨p, ?_, ⟨by rw [List.length_map, hlength], rfl, rfl, hcount⟩⟩
  unfold pathRecord
  rw [pathParts_of_tells h]
  cases nodes with
  | nil =>
    obtain rfl : stops = [] := List.length_eq_zero_iff.mp hlength
    cases rels <;> rfl
  | cons node nodes =>
    change ((node :: nodes).mapM pathStop >>= fun stops : List (PathStop × Bool) =>
      Except.ok (PathRecord.mk (stops.map Prod.fst) (.list rels) (node :: nodes).length
        (stops.filter Prod.snd).length)) = _
    rw [hstops]
    rfl

/-- What the order of the report needs of a score: a longer path has no more of it, and a path that meets
more incidents has more, if it does not meet too many. -/
structure Favours (score : ℕ → ℕ → ℕ) (most : ℕ∞) : Prop where
  shorter : ∀ {length length' : ℕ} (incidents : ℕ), 0 < length → length ≤ length' →
    score length' incidents ≤ score length incidents
  incidents : ∀ {length fewer more : ℕ}, 0 < length → fewer < more → more ≤ most →
    score length fewer < score length more

/-- The score in thousandths, rounded but once. -/
def exactScore (length incidents : ℕ) : ℕ :=
  Number.nearestEven ((1 / length + incidents / 2) * 1000)

private theorem favours_exactScore : Favours exactScore ⊤ where
  shorter {length length'} incidents hpos hle := by
    have hreciprocal : (1 : ℚ) / length' ≤ 1 / length :=
      one_div_le_one_div_of_le (Nat.cast_pos.mpr hpos) (Nat.cast_le.mpr hle)
    exact Number.nearestEven_mono (by linarith)
  incidents {length fewer more} _ hlt _ := by
    have hmore : (fewer : ℚ) + 1 ≤ more := by exact_mod_cast hlt
    exact Number.nearestEven_lt (by positivity) (by linarith)

def reciprocal (length : ℕ) : ℚ :=
  if length = 0 then 0 else Number.nearestValue 1 length

private theorem reciprocal_le_one (length : ℕ) : reciprocal length ≤ 1 := by
  unfold reciprocal
  split
  · exact zero_le_one
  case isFalse hne =>
    have hone : Number.nearestValue 1 1 = 1 := by
      rw [Number.nearestValue, show Number.nearest 1 1 = (2 ^ 52, -52) by decide +kernel]
      norm_num
    rw [← hone]
    refine Number.nearestValue_mono (Nat.pos_of_ne_zero hne) one_pos ?_
    have hle : (1 : ℚ) ≤ length := by exact_mod_cast Nat.one_le_iff_ne_zero.mpr hne
    rw [Nat.cast_one, div_one]
    exact div_le_one_of_le₀ hle (by positivity)

private theorem reciprocal_nonneg (length : ℕ) : 0 ≤ reciprocal length := by
  unfold reciprocal
  split
  · exact le_rfl
  · exact Number.nearestValue_nonneg _ _

private theorem reciprocal_anti {length length' : ℕ} (hpos : 0 < length) (hle : length ≤ length') :
    reciprocal length' ≤ reciprocal length := by
  unfold reciprocal
  rw [if_neg hpos.ne', if_neg (hpos.trans_le hle).ne']
  refine Number.nearestValue_mono (hpos.trans_le hle) hpos ?_
  exact div_le_div_of_nonneg_left (by norm_num) (Nat.cast_pos.mpr hpos) (Nat.cast_le.mpr hle)

/-- The score that is computed: the sum of the rounded reciprocal and the halves is rounded to 53 bits,
and then to thousandths. -/
theorem score_eq (length incidents : ℕ) :
    ∃ num den : ℕ, 0 < den ∧ (num : ℚ) / den = reciprocal length + incidents / 2 ∧
      PathRecord.score length incidents =
        Number.nearestEven (Number.nearestValue num den * 1000) := by
  let r : ℕ × ℤ := if length == 0 then (0, 0) else Number.nearest 1 length
  obtain ⟨hvalue, hden⟩ := Number.fraction_eq r.1 r.2
  have hreciprocal : (r.1 * 2 ^ r.2 : ℚ) = reciprocal length := by
    unfold reciprocal
    by_cases hzero : length = 0
    · rw [if_pos hzero, show r = (0, 0) from if_pos (beq_iff_eq.mpr hzero)]
      simp
    · rw [if_neg hzero, show r = Number.nearest 1 length from if_neg (by simpa using hzero)]
      rfl
  generalize hfraction : Number.fraction r.1 r.2 = f at hvalue hden
  refine ⟨2 * f.1 + incidents * f.2, 2 * f.2, by omega, ?_, ?_⟩
  · have hne : (f.2 : ℚ) ≠ 0 := by exact_mod_cast hden.ne'
    rw [← hreciprocal, hvalue]
    push_cast
    field_simp
  · have hscore : PathRecord.score length incidents =
        Number.units 3 (Number.nearest (2 * f.1 + incidents * f.2) (2 * f.2)).1
          (Number.nearest (2 * f.1 + incidents * f.2) (2 * f.2)).2 := by
      rw [← hfraction]
      rfl
    rw [hscore, Number.units_eq, Number.nearestValue]
    norm_num

private theorem favours_score : Favours PathRecord.score (2 ^ 50 : ℕ) where
  shorter {length length'} incidents hpos hle := by
    obtain ⟨num, den, hden, hsum, hscore⟩ := score_eq length incidents
    obtain ⟨num', den', hden', hsum', hscore'⟩ := score_eq length' incidents
    rw [hscore, hscore']
    refine Number.nearestEven_mono (mul_le_mul_of_nonneg_right ?_ (by norm_num))
    refine Number.nearestValue_mono hden' hden ?_
    rw [hsum, hsum']
    exact add_le_add_left (reciprocal_anti hpos hle) _
  incidents {length fewer more} hpos hlt hmost := by
    obtain ⟨num, den, hden, hsum, hscore⟩ := score_eq length fewer
    obtain ⟨num', den', hden', hsum', hscore'⟩ := score_eq length more
    rw [hscore, hscore']
    have hfewer : (fewer : ℚ) + 1 ≤ more := by exact_mod_cast hlt
    have hmore : (more : ℚ) ≤ 2 ^ 50 := by exact_mod_cast hmost
    have hreciprocal := reciprocal_le_one length
    have hnonneg := reciprocal_nonneg length
    have hfewerNonneg : (0 : ℚ) ≤ fewer := Nat.cast_nonneg fewer
    -- both sums are rounded by no more than an eighth, and are a half apart
    have hoff := (abs_le.mp (Number.abs_nearestValue_sub_le num hden)).2
    have hoff' := (abs_le.mp (Number.abs_nearestValue_sub_le num' hden')).1
    rw [hsum] at hoff
    rw [hsum'] at hoff'
    have hpow : (2 : ℚ) ^ (53 : ℤ) = 2 ^ 50 * 8 := by norm_num
    have heighth {x : ℚ} (hx : x ≤ 2 ^ 50) : x / 2 ^ (53 : ℤ) ≤ 1 / 8 := by
      rw [hpow, div_le_iff₀ (by norm_num)]
      linarith
    have hless := heighth (x := reciprocal length + fewer / 2) (by linarith)
    have hless' := heighth (x := reciprocal length + more / 2) (by linarith)
    refine Number.nearestEven_lt ?_ (by linarith)
    exact mul_nonneg (Number.nearestValue_nonneg _ _) (by norm_num)

namespace PathRecord

def beforeBy (score : ℕ → ℕ → ℕ) (p q : PathRecord) : Bool :=
  let a := score p.length p.incidents
  let b := score q.length q.incidents
  b < a || (a == b && p.length ≤ q.length)

variable (score : ℕ → ℕ → ℕ)

private theorem beforeBy_iff {p q : PathRecord} :
    beforeBy score p q = true ↔ score q.length q.incidents < score p.length p.incidents ∨
      score p.length p.incidents = score q.length q.incidents ∧ p.length ≤ q.length := by
  simp [beforeBy]

private theorem beforeBy_trans (p q r : PathRecord) (hpq : beforeBy score p q = true)
    (hqr : beforeBy score q r = true) : beforeBy score p r = true := by
  rw [beforeBy_iff] at hpq hqr ⊢
  omega

private theorem beforeBy_total (p q : PathRecord) : (beforeBy score p q || beforeBy score q p) = true := by
  rw [Bool.or_eq_true, beforeBy_iff, beforeBy_iff]
  omega

end PathRecord

def rankPathsBy (score : ℕ → ℕ → ℕ) (rows : List Row) : Except Failure (List PathRecord) := do
  return (← rows.mapM pathRecord).mergeSort (PathRecord.beforeBy score)

private theorem rankPaths_eq (rows : List Row) : rankPaths rows = rankPathsBy PathRecord.score rows :=
  rfl

/-- The results are the records, each once. Of two of one length that which meets more incidents comes
first, if these are not too many; of two that meet equally many the longer is not before the shorter; and
those of one score and length are in their old order. -/
structure RankedBy (score : ℕ → ℕ → ℕ) (most : ℕ∞) (records results : List PathRecord) : Prop where
  perm : results.Perm records
  incidents : results.Pairwise fun p q => p.length = q.length → 0 < p.length → q.incidents ≤ most →
    q.incidents ≤ p.incidents
  shorter : results.Pairwise fun p q => p.incidents = q.incidents → 0 < p.length → 0 < q.length →
    p.length ≤ q.length
  stable : ∀ s l, results.filter (fun p => score p.length p.incidents = s ∧ p.length = l) =
    records.filter (fun p => score p.length p.incidents = s ∧ p.length = l)

private theorem rankedBy_mergeSort {score : ℕ → ℕ → ℕ} {most : ℕ∞} (h : Favours score most)
    (records : List PathRecord) :
    RankedBy score most records (records.mergeSort (PathRecord.beforeBy score)) := by
  have hsorted := List.pairwise_mergeSort (PathRecord.beforeBy_trans score)
    (PathRecord.beforeBy_total score) records
  refine ⟨List.mergeSort_perm records _, hsorted.imp ?_, hsorted.imp ?_, fun s l => ?_⟩
  · intro p q hbefore hlength hpos hmost
    by_contra hmore
    have hscore := h.incidents hpos (not_le.mp hmore) hmost
    rw [PathRecord.beforeBy_iff, ← hlength] at hbefore
    omega
  · intro p q hbefore hincidents _ hpos
    by_contra hlonger
    have hscore := h.shorter p.incidents hpos (not_le.mp hlonger).le
    rw [PathRecord.beforeBy_iff, ← hincidents] at hbefore
    omega
  · apply Value.filter_mergeSort_of_le (PathRecord.beforeBy_trans score) (PathRecord.beforeBy_total score)
    intro p q hp hq
    rw [PathRecord.beforeBy_iff]
    have hp := of_decide_eq_true hp
    have hq := of_decide_eq_true hq
    omega

/-- A row tells a path, all of whose nodes are as the queries tell them. -/
def TellsPath (row : Row) : Prop :=
  ∃ nodes rels, Tells row nodes rels ∧ ∀ node ∈ nodes, IsNode node

def Recounts (row : Row) (p : PathRecord) : Prop :=
  ∃ nodes rels, Tells row nodes rels ∧ p.Describes nodes rels

theorem TellsPath.exists_pathRecord (h : TellsPath row) : ∃ p, pathRecord row = .ok p ∧ Recounts row p := by
  obtain ⟨nodes, rels, htells, hnodes⟩ := h
  obtain ⟨p, hp, hdescribes⟩ := Toolbox.exists_pathRecord htells hnodes
  exact ⟨p, hp, nodes, rels, htells, hdescribes⟩

private theorem incidents_le_stops {rows : List Row} {records : List PathRecord}
    (h : List.Forall₂ Recounts rows records) : ∀ p ∈ records, p.incidents ≤ p.stops.length := by
  induction h with
  | nil => exact List.forall_mem_nil _
  | cons hrow _ ih =>
    obtain ⟨nodes, rels, -, hdescribes⟩ := hrow
    refine List.forall_mem_cons.mpr ⟨?_, ih⟩
    rw [hdescribes.incidents, hdescribes.stops]
    exact List.countP_le_length

private theorem pathReport_of_rankPaths {rows : List Row} {results : List PathRecord}
    (h : rankPaths rows = .ok results) (r : PathRequest) (q : Query) (query : String) :
    ∃ fields : Fields, pathReport r q (.ok (rows, query)) = .ok (cutJson 8000 (.record fields)) ∧
      fields.get "results" = .list (results.map PathRecord.toValue) ∧
      fields.get "paths_returned" = .int results.length := by
  unfold pathReport
  dsimp only
  rw [h]
  exact ⟨_, rfl, rfl, rfl⟩

/-- Rows of either shape are ranked, one record for each of them, by exact scores as by those that are
computed. -/
theorem rankPaths_ranked {rows : List Row} (hrows : ∀ row ∈ rows, TellsPath row) :
    ∃ records, List.Forall₂ Recounts rows records ∧ (∀ p ∈ records, p.incidents ≤ p.stops.length) ∧
      (∃ results, rankPathsBy exactScore rows = .ok results ∧ RankedBy exactScore ⊤ records results) ∧
      ∃ results, rankPaths rows = .ok results ∧
        RankedBy PathRecord.score (2 ^ 50 : ℕ) records results ∧
        ∀ r q query, ∃ fields : Fields,
          pathReport r q (.ok (rows, query)) = .ok (cutJson 8000 (.record fields)) ∧
          fields.get "results" = .list (results.map PathRecord.toValue) ∧
          fields.get "paths_returned" = .int rows.length := by
  obtain ⟨records, hrecords, hall⟩ := exists_mapM fun row hrow => (hrows row hrow).exists_pathRecord
  have hby (score : ℕ → ℕ → ℕ) :
      rankPathsBy score rows = .ok (records.mergeSort (PathRecord.beforeBy score)) := by
    unfold rankPathsBy
    rw [hrecords]
    rfl
  have hrank := (rankPaths_eq rows).trans (hby PathRecord.score)
  refine ⟨records, hall, incidents_le_stops hall,
    ⟨_, hby exactScore, rankedBy_mergeSort favours_exactScore records⟩,
    _, hrank, rankedBy_mergeSort favours_score records, fun r q query => ?_⟩
  have hlength : (records.mergeSort (PathRecord.beforeBy PathRecord.score)).length = rows.length := by
    rw [List.length_mergeSort, hall.length_eq]
  rw [← hlength]
  exact pathReport_of_rankPaths hrank r q query

/-- Rows of both shapes: a neighbour that is no incident, and a path from an incident to a node of which
nothing is told. -/
def sampleRows : List Row :=
  [[("entry", .record [("neighbor", .record [("labels", .list [.text "Malware"]), ("props", .null)]),
      ("rel", .record [("type", .text "USES")])])],
    [("nodes", .list [.record [("labels", .list [.text "Incident"]),
        ("props", .record [("title", .text "Breach")])], .null]),
      ("rels", .null)]]

theorem sampleRows_ranked : (∀ row ∈ sampleRows, TellsPath row) ∧
    ∃ records results, List.Forall₂ Recounts sampleRows records ∧ rankPaths sampleRows = .ok results ∧
      results.length = 2 ∧ RankedBy PathRecord.score (2 ^ 50 : ℕ) records results := by
  have htells : ∀ row ∈ sampleRows, TellsPath row := by
    unfold sampleRows
    simp only [List.forall_mem_cons]
    refine ⟨⟨_, _, .entry rfl rfl (List.cons_ne_nil _ _), ?_⟩,
      ⟨_, _, .path rfl (.inl rfl) (.inr ⟨rfl, rfl⟩), ?_⟩, List.forall_mem_nil _⟩
    · rintro node hnode fields rfl
      obtain rfl : fields = _ := Value.record.inj (List.mem_singleton.mp hnode)
      exact ⟨⟨_, .inl rfl, fun label hlabel _ => ⟨_, List.mem_singleton.mp hlabel⟩⟩, .inl rfl⟩
    · rintro node hnode fields rfl
      rcases List.mem_cons.mp hnode with hfields | hfields
      · obtain rfl : fields = _ := Value.record.inj hfields
        exact ⟨⟨_, .inl rfl, fun label hlabel _ => ⟨_, List.mem_singleton.mp hlabel⟩⟩, .inr ⟨_, rfl⟩⟩
      · cases List.mem_singleton.mp hfields
  obtain ⟨records, hall, -, -, results, hresults, hranked, -⟩ := rankPaths_ranked htells
  refine ⟨htells, records, results, hall, hresults, ?_, hranked⟩
  rw [hranked.perm.length_eq, ← hall.length_eq]
  rfl

end ThreatAtlas.Toolbox
