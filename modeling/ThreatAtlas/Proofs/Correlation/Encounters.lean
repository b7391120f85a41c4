import ThreatAtlas.Proofs.Correlation.Proximity
import ThreatAtlas.Proofs.Correlation.Repetition

/-!
# How groups are met

Rows lead to names, and each name is met: a name that is new gets a record, and the records of the name
take the row into account. So the records stand in the order in which their names came first, and what a
new record has and a sighting keeps holds of all of them.
-/

namespace ThreatAtlas.Correlation

open Job (Ensures Returns)

def metWith (names : List Value) (name : Value) : List Value :=
  if name.truthy && !names.any (· == name) then names ++ [name] else names

/-- The names in the order in which they came first; what is empty is no name. -/
def firstMet (names : List Value) : List Value :=
  names.foldl metWith []

/-- A gathering on its way, with all names that rows led to so far. -/
structure Trail where
  progress : Progress := {}
  names : List Value := []

variable {σ : Type} [Outside σ]

def follow (clues : Clues) (t : Trail) (row : Row) : Job σ Trail := do
  let (names, seen) ← groupsOf t.progress.seen row
  return ⟨⟨seen, ← meetAll clues row names t.progress.groups⟩, t.names ++ names⟩

/-- Noting the names changes nothing about what is gathered. -/
theorem gather_eq_follow (clues : Clues) (rows : List Row) (t : Trail) :
    gather (σ := σ) clues rows t.progress.seen t.progress.groups =
      (do return (← rows.foldlM (follow clues) t).progress.groups) := by
  induction rows generalizing t with
  | nil => rfl
  | cons row rows ih =>
    rw [gather, List.foldlM_cons, follow, bind_assoc, bind_assoc]
    refine bind_congr fun found => ?_
    dsimp only
    rw [bind_assoc]
    refine bind_congr fun groups => ?_
    rw [pure_bind]
    exact ih ⟨⟨found.2, groups⟩, t.names ++ found.1⟩

variable {clues : Clues} {row : Row} {groups groups' : List Group} {name : Value} {w w' : World σ}

/-- What meeting a name can do: nothing, or a sighting by the records of the name, of which one may be
new. -/
theorem meet_returns (h : Returns (meet clues row groups name) w groups' w') :
    name.truthy = false ∧ groups' = groups ∨
      name.truthy = true ∧ name.hashable = .ok name ∧ ∃ known,
        (groups.any (·.name == name) = true ∧ known = groups ∨
          groups.any (·.name == name) = false ∧ known = groups ++ [{ name := name }]) ∧
        sightAll clues row name known = .ok groups' := by
  cases htruthy : name.truthy with
  | false =>
    rw [meet_of_not_truthy _ _ _ htruthy] at h
    exact .inl ⟨rfl, (Job.returns_pure.mp h).1.symm⟩
  | true =>
    rw [meet_eq _ _ _ htruthy, Job.returns_lift_bind] at h
    obtain ⟨v, hv, h⟩ := h
    obtain rfl := Value.eq_of_hashable hv
    obtain ⟨known, w₁, hknown, h⟩ := Job.returns_bind.mp h
    refine .inr ⟨rfl, hv, known, ?_, (Job.returns_lift.mp h).1⟩
    unfold enlist at hknown
    by_cases hany : groups.any (·.name == name) = true
    · rw [if_pos hany] at hknown
      exact .inl ⟨hany, (Job.returns_pure.mp hknown).1.symm⟩
    · rw [if_neg hany] at hknown
      obtain ⟨_, w₂, -, hknown⟩ := Job.returns_bind.mp hknown
      exact .inr ⟨Bool.eq_false_iff.mpr hany, (Job.returns_pure.mp hknown).1.symm⟩

private theorem names_meet (h : Returns (meet clues row groups name) w groups' w') :
    groups'.map Group.name = metWith (groups.map Group.name) name := by
  have hany : (groups.map Group.name).any (· == name) = groups.any (·.name == name) := List.any_map
  unfold metWith
  rw [hany]
  rcases meet_returns h with ⟨hempty, rfl⟩ | ⟨htruthy, -, known, hknown, hsights⟩
  · rw [hempty, Bool.false_and, if_neg Bool.false_ne_true]
  · rw [htruthy, Bool.true_and, names_of_sightAll hsights]
    rcases hknown with ⟨hold, rfl⟩ | ⟨hnew, rfl⟩
    · rw [hold, if_neg (by decide)]
    · rw [hnew, if_pos (by decide), List.map_append]
      rfl

theorem distinct_meet (h : Returns (meet clues row groups name) w groups' w')
    (hdistinct : Distinct groups) : Distinct groups' := by
  rcases meet_returns h with ⟨-, rfl⟩ | ⟨-, hhashable, known, hknown, hsights⟩
  · exact hdistinct
  · refine Distinct.of_names ?_ (names_of_sightAll hsights)
    rcases hknown with ⟨-, rfl⟩ | ⟨hnew, rfl⟩
    · exact hdistinct
    · exact hdistinct.append hhashable hnew

/-- A new record has the property, and a sighting by one of these rows keeps it. -/
structure Sustains (clues : Clues) (rows : List Row) (P : Group → Prop) : Prop where
  fresh : ∀ name : Value, name.truthy = true → P { name := name }
  sight : ∀ row ∈ rows, ∀ g g', P g → sight clues row g = .ok g' → P g'

variable {P : Group → Prop} {rows : List Row}

private theorem Sustains.meet (hP : Sustains clues rows P) (hrow : row ∈ rows) (hgroups : ∀ g ∈ groups, P g)
    (h : Returns (meet clues row groups name) w groups' w') : ∀ g ∈ groups', P g := by
  rcases meet_returns h with ⟨-, rfl⟩ | ⟨htruthy, -, known, hknown, hsights⟩
  · exact hgroups
  · have hall : ∀ g ∈ known, P g := by
      rcases hknown with ⟨-, rfl⟩ | ⟨-, rfl⟩
      · exact hgroups
      · intro g hg
        rcases List.mem_append.mp hg with hg | hg
        · exact hgroups g hg
        · rw [List.mem_singleton.mp hg]
          exact hP.fresh name htruthy
    intro g' hg'
    obtain ⟨g, hg, ⟨-, hsight⟩ | ⟨-, rfl⟩⟩ := exists_left_of_forall₂ (forall₂_of_sightAll hsights) hg'
    · exact hP.sight row hrow g g' (hall g hg) hsight
    · exact hall g' hg

/-- The records are those of the names in the order they came first, and all have the property. -/
structure Trail.Sound (P : Group → Prop) (t : Trail) : Prop where
  names : t.progress.groups.map Group.name = firstMet t.names
  distinct : Distinct t.progress.groups
  groups : ∀ g ∈ t.progress.groups, P g

private theorem meetAll_returns (hP : Sustains clues rows P) (hrow : row ∈ rows) {names : List Value}
    (hdistinct : Distinct groups) (hgroups : ∀ g ∈ groups, P g)
    (h : Returns (meetAll clues row names groups) w groups' w') :
    groups'.map Group.name = names.foldl metWith (groups.map Group.name) ∧ Distinct groups' ∧
      ∀ g ∈ groups', P g := by
  induction names generalizing groups w with
  | nil =>
    obtain ⟨rfl, -⟩ := Job.returns_pure.mp h
    exact ⟨rfl, hdistinct, hgroups⟩
  | cons name names ih =>
    rw [meetAll] at h
    obtain ⟨met, w₁, hmet, hrest⟩ := Job.returns_bind.mp h
    rw [List.foldl_cons, ← names_meet hmet]
    exact ih (distinct_meet hmet hdistinct) (hP.meet hrow hgroups hmet) hrest

private theorem ensures_follow (hP : Sustains clues rows P) (hrow : row ∈ rows) {t : Trail} (ht : t.Sound P) :
    Ensures (σ := σ) (fun _ => True) (Trail.Sound P) (follow clues t row) := by
  intro w _ t' w' h
  refine ⟨?_, trivial⟩
  obtain ⟨found, w₁, -, h⟩ := Job.returns_bind.mp h
  obtain ⟨groups, w₂, hgroups, h⟩ := Job.returns_bind.mp h
  obtain ⟨rfl, -⟩ := Job.returns_pure.mp h
  obtain ⟨hnames, hdistinct, hall⟩ := meetAll_returns hP hrow ht.distinct ht.groups hgroups
  refine ⟨?_, hdistinct, hall⟩
  rw [hnames, ht.names, firstMet, firstMet, List.foldl_append]

theorem ensures_foldlM_follow (hP : Sustains clues rows P) :
    Ensures (σ := σ) (fun _ => True) (Trail.Sound P) (rows.foldlM (follow clues) {}) := by
  refine Job.ensures_foldlM (fun t ht row hrow => ensures_follow hP hrow ht) ?_
  exact ⟨rfl, distinct_nil, nofun⟩

/-- The row tells a number of steps, or none at all. -/
def countsSteps (row : Row) : Bool :=
  match row.get "dist" with
  | .null => true
  | .int d => 0 ≤ d
  | _ => false

private theorem distanceOf_of_countsSteps {row : Row} (h : countsSteps row = true) :
    ∃ d : ℤ, 1 ≤ d ∧ distanceOf row = .int d := by
  unfold countsSteps at h
  cases hdist : row.get "dist" with
  | null =>
    refine ⟨10, by decide, ?_⟩
    unfold distanceOf
    rw [hdist]
    rfl
  | int d =>
    rw [hdist] at h
    refine ⟨counted d, ?_, distanceOf_of_int hdist⟩
    have hnonneg : 0 ≤ d := of_decide_eq_true h
    unfold counted
    split <;> omega
  | _ =>
    rw [hdist] at h
    cases h

/-- A record of a named group, at least one step away, that is met by some of the clues. -/
structure Tallied (clues : Clues) (g : Group) : Prop where
  named : g.name.truthy = true
  nearest : ∃ d : ℤ, 1 ≤ d ∧ g.nearest = .int d
  nodup : g.hits.Nodup
  hits : g.hits ⊆ clues.map Prod.snd

theorem sustains_tallied (clues : Clues) (hrows : ∀ row ∈ rows, countsSteps row = true) :
    Sustains clues rows (Tallied clues) where
  fresh name htruthy := ⟨htruthy, ⟨999, by decide, rfl⟩, List.nodup_nil, nofun⟩
  sight row hrow g g' hg hsight := by
    obtain ⟨v, path, hv, -, rfl⟩ := sight_eq_ok hsight
    obtain ⟨d, hd, hnearest⟩ := hg.nearest
    obtain ⟨e, he, hdistance⟩ := distanceOf_of_countsSteps (hrows row hrow)
    rw [hnearest, hdistance, lesser_int] at hv
    refine ⟨hg.named, ⟨min d e, le_min hd he, (Except.ok.inj hv).symm⟩,
      nodup_foldl_insertNew hg.nodup _, fun x hx => ?_⟩
    rcases mem_foldl_insertNew.mp hx with hx | hx
    · exact hg.hits hx
    · obtain ⟨n, -, hx⟩ := List.mem_flatMap.mp hx
      exact clueHits_subset hx

private theorem length_add_le (clues : Clues) (value : String) :
    (clues.add value).length ≤ clues.length + 1 := by
  induction clues with
  | nil => exact le_rfl
  | cons clue clues ih =>
    rw [Clues.add]
    split
    · exact Nat.le_succ _
    · exact Nat.succ_le_succ ih

theorem length_ofValues_le (values : List String) : (Clues.ofValues values).length ≤ values.length := by
  induction values using List.reverseRecOn with
  | nil => exact le_rfl
  | append_singleton values value ih =>
    rw [Clues.ofValues, List.foldl_append, List.length_append]
    exact (length_add_le _ value).trans (Nat.succ_le_succ ih)

theorem Tallied.length_hits_le {values : List String} {g : Group} (h : Tallied (.ofValues values) g) :
    g.hits.length ≤ values.length := by
  calc g.hits.length ≤ ((Clues.ofValues values).map Prod.snd).length :=
        (List.subperm_of_subset h.nodup h.hits).length_le
    _ = (Clues.ofValues values).length := List.length_map _
    _ ≤ values.length := length_ofValues_le values

end ThreatAtlas.Correlation
