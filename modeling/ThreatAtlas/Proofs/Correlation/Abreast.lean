import ThreatAtlas.Correlation.Run
import ThreatAtlas.Proofs.Job
import ThreatAtlas.Proofs.Value.Comparison

/-!
# Gatherings side by side

Rows are taken into account one at a time. Two gatherings, over rows that lead to the same groups, stay
side by side if a single sighting keeps the records of a group in a relation.
-/

namespace ThreatAtlas.Correlation

open Job (Ends Relates outcome)

variable {σ : Type} [Outside σ]

structure Progress where
  seen : Lookups := []
  groups : List Group := []

def advance (clues : Clues) (s : Progress) (row : Row) : Job σ Progress := do
  let (names, seen) ← groupsOf s.seen row
  return ⟨seen, ← meetAll clues row names s.groups⟩

theorem gather_eq (clues : Clues) (rows : List Row) (s : Progress) :
    gather (σ := σ) clues rows s.seen s.groups =
      (do return (← rows.foldlM (advance clues) s).groups) := by
  induction rows generalizing s with
  | nil => rfl
  | cons row rows ih =>
    rw [gather, List.foldlM_cons, advance, bind_assoc, bind_assoc]
    refine bind_congr fun found => ?_
    dsimp only
    rw [bind_assoc]
    refine bind_congr fun groups => ?_
    rw [pure_bind]
    exact ih ⟨found.2, groups⟩

theorem meet_eq (clues : Clues) (row : Row) (groups : List Group) {name : Value}
    (h : name.truthy = true) :
    meet (σ := σ) clues row groups name = (do
      let name ← name.hashable
      sightAll clues row name (← enlist groups name)) := by
  unfold meet
  rw [h]
  rfl

theorem meet_of_not_truthy (clues : Clues) (row : Row) (groups : List Group) {name : Value}
    (h : name.truthy = false) : meet (σ := σ) clues row groups name = pure groups := by
  unfold meet
  rw [h]
  rfl

section

variable {I : World σ → World σ → Prop}
  (hask : ∀ text params, Relates I Eq (Job.ask text params) (Job.ask text params))

include hask

private theorem relates_groupsBehind (seen : Lookups) (label : Value) (kind : String) :
    Relates I Eq (groupsBehind seen label kind) (groupsBehind seen label kind) := by
  unfold groupsBehind
  dsimp only
  split
  · exact Job.relates_pure rfl
  · refine Job.relates_bind (hask _ _) ?_
    rintro rows _ rfl
    exact Job.relates_pure rfl

private theorem relates_groupsOf (seen : Lookups) (row : Row) :
    Relates I Eq (groupsOf seen row) (groupsOf seen row) := by
  unfold groupsOf
  refine Job.relates_bind (Job.relates_lift_self _) ?_
  rintro kind _ rfl
  dsimp only
  split
  · refine Job.relates_bind (hask _ _) ?_
    rintro rows _ rfl
    cases rows with
    | nil => exact Job.relates_pure rfl
    | cons _ _ =>
      refine Job.relates_bind (Job.relates_lift_self _) ?_
      rintro names _ rfl
      exact Job.relates_pure rfl
  · exact relates_groupsBehind hask _ _ _

theorem relates_checkAliases (name : Value) :
    Relates I Eq (checkAliases name) (checkAliases name) := by
  unfold checkAliases
  refine Job.relates_bind (hask _ _) ?_
  rintro rows _ rfl
  cases rows with
  | nil => exact Job.relates_pure rfl
  | cons row _ =>
    refine Job.relates_bind (Job.relates_lift_self _) ?_
    rintro aliases _ rfl
    split
    · refine Job.relates_bind (Job.relates_lift_self _) ?_
      rintro joined _ rfl
      refine Job.relates_bind (Job.relates_lift_self _) ?_
      rintro _ _ rfl
      split
      · exact Job.relates_pure rfl
      · exact Job.relates_throw _ _
    · exact Job.relates_pure rfl

end

/-- Rows in the relation `Q` lead to the same groups, and a sighting by such rows keeps the records of a
group in the relation `R`. -/
structure Mirrors (clues clues' : Clues) (Q : Row → Row → Prop) (R : Group → Group → Prop) : Prop where
  label : ∀ {row row'}, Q row row' → row'.get "label" = row.get "label"
  kind : ∀ {row row'}, Q row row' → row'.get "type" = row.get "type"
  name : ∀ {g g'}, R g g' → g'.name = g.name
  fresh : ∀ name, R { name := name } { name := name }
  sight : ∀ {row row' g g'}, Q row row' → R g g' → Agree R (sight clues row g) (sight clues' row' g')

structure Abreast (R : Group → Group → Prop) (s s' : Progress) : Prop where
  seen : s'.seen = s.seen
  groups : List.Forall₂ R s.groups s'.groups

variable {clues clues' : Clues} {Q : Row → Row → Prop} {R : Group → Group → Prop}
  {I : World σ → World σ → Prop} {row row' : Row} {rows rows' : List Row} {groups groups' : List Group}
  {s s' : Progress}

private theorem Mirrors.names (h : Mirrors clues clues' Q R) (hgroups : List.Forall₂ R groups groups') :
    groups'.map Group.name = groups.map Group.name := by
  induction hgroups with
  | nil => rfl
  | cons hg _ ih => rw [List.map_cons, List.map_cons, h.name hg, ih]

private theorem Mirrors.any_name (h : Mirrors clues clues' Q R) (hgroups : List.Forall₂ R groups groups')
    (name : Value) : groups'.any (·.name == name) = groups.any (·.name == name) := by
  have hnames := congrArg (List.any · (· == name)) (h.names hgroups)
  rwa [List.any_map, List.any_map] at hnames

private theorem Mirrors.groupsOf (h : Mirrors clues clues' Q R) (hrow : Q row row') (seen : Lookups) :
    groupsOf (σ := σ) seen row' = Correlation.groupsOf seen row := by
  unfold Correlation.groupsOf
  rw [h.label hrow, h.kind hrow]

section

variable (h : Mirrors clues clues' Q R)
  (hask : ∀ text params, Relates I Eq (Job.ask text params) (Job.ask text params))

include h hask

private theorem relates_meet (hrow : Q row row') (hgroups : List.Forall₂ R groups groups') (name : Value) :
    Relates I (List.Forall₂ R) (meet clues row groups name) (meet clues' row' groups' name) := by
  cases htruthy : name.truthy with
  | false =>
    rw [meet_of_not_truthy _ _ _ htruthy, meet_of_not_truthy _ _ _ htruthy]
    exact Job.relates_pure hgroups
  | true =>
    rw [meet_eq _ _ _ htruthy, meet_eq _ _ _ htruthy]
    refine Job.relates_bind (Job.relates_lift_self _) ?_
    rintro name _ rfl
    refine Job.relates_bind (R := List.Forall₂ R) ?_ fun found found' hfound => ?_
    · unfold enlist
      rw [h.any_name hgroups]
      split
      · exact Job.relates_pure hgroups
      · refine Job.relates_bind (relates_checkAliases hask name) fun _ _ _ => ?_
        exact Job.relates_pure (List.rel_append hgroups (.cons (h.fresh name) .nil))
    · refine Job.relates_lift (agree_mapM hfound fun g g' hg => ?_)
      rw [h.name hg]
      split
      · exact h.sight hrow hg
      · exact .ok hg

private theorem relates_meetAll (hrow : Q row row') (hgroups : List.Forall₂ R groups groups')
    (names : List Value) :
    Relates I (List.Forall₂ R) (meetAll clues row names groups) (meetAll clues' row' names groups') := by
  induction names generalizing groups groups' with
  | nil => exact Job.relates_pure hgroups
  | cons name names ih =>
    rw [meetAll, meetAll]
    exact Job.relates_bind (relates_meet h hask hrow hgroups name) fun _ _ hmet => ih hmet

private theorem relates_advance (hrow : Q row row') (hs : Abreast R s s') :
    Relates I (Abreast R) (advance clues s row) (advance clues' s' row') := by
  unfold advance
  rw [hs.seen, h.groupsOf hrow]
  refine Job.relates_bind (relates_groupsOf hask s.seen row) ?_
  rintro ⟨names, seen⟩ _ rfl
  refine Job.relates_bind (relates_meetAll h hask hrow hs.groups names) fun _ _ hmet => ?_
  exact Job.relates_pure ⟨rfl, hmet⟩

theorem relates_foldlM_advance (hrows : List.Forall₂ Q rows rows') (hs : Abreast R s s') :
    Relates I (Abreast R) (rows.foldlM (advance clues) s) (rows'.foldlM (advance clues') s') := by
  refine Job.relates_foldlM (R := Q) ?_ hrows hs
  intro s s' row row' hs hrow
  exact relates_advance h hask hrow hs

end

structure Distinct (groups : List Group) : Prop where
  hashable : ∀ g ∈ groups, g.name.hashable = .ok g.name
  nodup : (groups.map Group.name).Nodup

theorem distinct_nil : Distinct [] :=
  ⟨nofun, List.nodup_nil⟩

theorem name_of_sight {g g' : Group} (h : sight clues row g = .ok g') : g'.name = g.name := by
  obtain ⟨nearest, -, h⟩ := bind_eq_ok.mp h
  obtain ⟨path, -, h⟩ := bind_eq_ok.mp h
  rw [← pure_eq_ok.mp h]
  rfl

theorem names_of_sightAll {name : Value} (h : sightAll clues row name groups = .ok groups') :
    groups'.map Group.name = groups.map Group.name := by
  refine map_eq_of_mapM (fun g g' hg => ?_) h
  split at hg
  · exact name_of_sight hg
  · rw [pure_eq_ok.mp hg]

theorem Distinct.of_names (h : Distinct groups)
    (hnames : groups'.map Group.name = groups.map Group.name) : Distinct groups' := by
  refine ⟨fun g' hg' => ?_, hnames ▸ h.nodup⟩
  obtain ⟨g, hg, hname⟩ := List.mem_map.mp (hnames ▸ List.mem_map_of_mem hg')
  rw [← hname]
  exact h.hashable g hg

theorem Distinct.append (h : Distinct groups) {name : Value} (hname : name.hashable = .ok name)
    (hnew : groups.any (·.name == name) = false) : Distinct (groups ++ [{ name := name }]) := by
  constructor
  · intro g hg
    rcases List.mem_append.mp hg with hg | hg
    · exact h.hashable g hg
    · rw [List.mem_singleton.mp hg]
      exact hname
  · rw [List.map_append, List.nodup_append]
    refine ⟨h.nodup, List.nodup_singleton _, ?_⟩
    rintro _ hold _ hfresh rfl
    obtain ⟨g, hg, hsame⟩ := List.mem_map.mp hold
    rw [List.map_singleton, List.mem_singleton] at hfresh
    rw [List.any_eq_false] at hnew
    refine hnew g hg ?_
    rw [hsame, hfresh]
    exact Value.beq_self hname

private theorem outcome_analyse (instructions question : String) (w : World σ) :
    (∃ v, (outcome (Job.analyse instructions question) w).1 = .ok v) ∨
      (outcome (Job.analyse instructions question) w).1 = .error .interrupted := by
  unfold Job.analyse
  rw [Job.outcome_bind]
  change (∃ v, (outcome (Job.recover _ _) w).1 = .ok v) ∨ (outcome (Job.recover _ _) w).1 = _
  rw [Job.outcome_recover]
  unfold Job.consultText
  rw [Job.outcome_bind, Job.outcome_consult]
  cases (Outside.model _ w.outside).1 with
  | failed why => exact .inl ⟨_, rfl⟩
  | interrupted => exact .inr rfl
  | _ => exact .inl ⟨_, rfl⟩

private theorem outcome_conclude (clues : Clues) (o : Options) (loose : Int) (found : List Finding)
    (w : World σ) :
    (∃ report, (outcome (conclude clues o loose found) w).1 = .ok (Finding.rank found, report)) ∨
      (outcome (conclude clues o loose found) w).1 = .error .interrupted := by
  cases found with
  | nil =>
    rw [show Finding.rank [] = [] by simp [Finding.rank]]
    exact .inl ⟨_, rfl⟩
  | cons f found =>
    change (∃ report, (outcome (Job.analyse _ _ >>= _) w).1 = _) ∨
      (outcome (Job.analyse _ _ >>= _) w).1 = _
    rw [Job.outcome_bind]
    have hreport := outcome_analyse instructions (request clues o loose (f :: found)) w
    generalize outcome (Job.analyse instructions (request clues o loose (f :: found))) w = result
      at hreport ⊢
    obtain ⟨r, w'⟩ := result
    rcases hreport with ⟨report, hr⟩ | hr
    · cases (show r = .ok report from hr)
      exact .inl ⟨report, rfl⟩
    · cases (show r = .error .interrupted from hr)
      exact .inr rfl

theorem ends_conclude (clues clues' : Clues) (o : Options) (loose : Int) (found found' : List Finding) :
    Ends I (fun r r' => r.1 = Finding.rank found ∧ r'.1 = Finding.rank found')
      (conclude clues o loose found) (conclude clues' o loose found') := by
  intro w w' _
  rcases outcome_conclude clues o loose found w with ⟨report, hresult⟩ | hinterrupted
  · rcases outcome_conclude clues' o loose found' w' with ⟨report', hresult'⟩ | hinterrupted
    · rw [hresult, hresult']
      exact .inr (.inr (.ok ⟨rfl, rfl⟩))
    · exact .inr (.inl hinterrupted)
  · exact .inl hinterrupted

theorem mem_of_mem_rank {f : Finding} {found : List Finding} (h : f ∈ Finding.rank found) :
    f ∈ found :=
  List.mem_mergeSort.mp (List.mem_of_mem_take h)

end ThreatAtlas.Correlation
