import ThreatAtlas.Proofs.Correlation.Abreast

/-!
# Scores in any arithmetic

How a group is scored, and the scores ranked, is said once for every kind of numbers. With floating
numbers it is what runs; with rational numbers it is what would come out if no operation were rounded but
where the score is.
-/

namespace ThreatAtlas.Correlation

/-- How counts and distances become numbers, numbers are rounded and, last, written down. -/
structure Scale (α : Type) where
  count : Nat → α
  proximity : Value → Except Failure α
  round : Nat → α → α
  written : α → Float

def floating : Scale Float :=
  ⟨Nat.toFloat, proximity, Number.round, id⟩

/-- The scale of rational numbers, however they are written down. Distances are whole numbers. -/
def rational (written : ℚ → Float) : Scale ℚ where
  count := Nat.cast
  proximity
    | .int d => if 1 + d = 0 then .error .divisionByZero else .ok (1 / (1 + d))
    | v => .error (.mismatch (.operands "+" .int v.kind))
  round places := Number.mirrored (Number.toPlaces places)
  written := written

/-- A group with its score before it is rounded, and all that is reported of it. -/
structure Assessment (α : Type) where
  group : Value
  raw : α
  score : α
  percent : α
  hits : List String
  shared : List String
  samplePaths : List (List String)

section

variable {α : Type} [Add α] [Mul α] [Div α] [LT α] [DecidableLT α] [OfScientific α]

namespace Scale

def weights : Weights α :=
  ⟨0.2, 0.6, 0.2, 1.15⟩

def breadth (S : Scale α) (g : Group) (clueCount : Nat) : α :=
  S.count g.hits.length / S.count clueCount

def sharing (S : Scale α) (g : Group) : α :=
  let share := S.count g.shared.length / 10.0
  if share < 1.0 then share else 1.0

def score (S : Scale α) (g : Group) (clueCount : Nat) : Except Failure α := do
  return combine weights (← S.proximity g.nearest) (S.breadth g clueCount) (S.sharing g) g.namesIncident

def assess (S : Scale α) (clueCount : Nat) (g : Group) : Except Failure (Assessment α) := do
  let raw ← S.score g clueCount
  let percent := S.round 1 (raw * 100.0)
  return {
    group := g.name
    raw
    score := S.round 3 raw
    percent := if 100.0 < percent then 100.0 else percent
    hits := sortTexts g.hits
    shared := sortTexts g.shared
    samplePaths := g.paths.take 3 }

def finding (S : Scale α) (a : Assessment α) : Finding :=
  ⟨a.group, S.written a.score, S.written a.percent, a.hits, a.shared, a.samplePaths⟩

end Scale

/-- The assessments by falling score, equal ones in the order met, fifteen at most. -/
def rankIn (all : List (Assessment α)) : List (Assessment α) :=
  (all.mergeSort fun a b => !(a.score < b.score)).take 15

end

variable {σ : Type} [Outside σ]

section

variable {α : Type} [Add α] [Mul α] [Div α] [LT α] [DecidableLT α] [OfScientific α]

def concludeIn (S : Scale α) (o : Options) (found : Search) (all : List (Assessment α)) :
    Job σ (List (Assessment α) × Value) := do
  if all.isEmpty then return ([], .text noGroups)
  let report ← Job.analyse instructions (request found.clues o found.loose (all.map S.finding))
  return (rankIn all, report)

def runIn (S : Scale α) (artifacts : Value) (o : Options) : Job σ (List (Assessment α) × Value) := do
  match ← search artifacts o with
  | none => return ([], .text noClues)
  | some found =>
    let groups ← gather found.clues found.rows [] []
    concludeIn S o found (← (groups.mapM (S.assess found.count) : Except Failure _))

end

private theorem ofGroup_eq_assess (clueCount : Nat) (g : Group) :
    Finding.ofGroup clueCount g = (do return floating.finding (← floating.assess clueCount g)) := by
  unfold Finding.ofGroup Scale.assess
  rw [bind_assoc]
  rfl

theorem mapM_ofGroup_eq (clueCount : Nat) (groups : List Group) :
    groups.mapM (Finding.ofGroup clueCount) =
      (do return (← groups.mapM (floating.assess clueCount)).map floating.finding) := by
  induction groups with
  | nil => rfl
  | cons g groups ih =>
    rw [List.mapM_cons, List.mapM_cons, ofGroup_eq_assess, ih]
    simp only [bind_assoc, pure_bind, List.map_cons]

theorem rank_map_finding (all : List (Assessment Float)) :
    Finding.rank (all.map floating.finding) = (rankIn all).map floating.finding := by
  unfold Finding.rank rankIn
  rw [List.map_take, List.map_mergeSort]
  exact fun _ _ _ _ => rfl

private theorem conclude_map_finding (o : Options) (found : Search) (all : List (Assessment Float)) :
    conclude (σ := σ) found.clues o found.loose (all.map floating.finding) = (do
      let r ← concludeIn floating o found all
      return (r.1.map floating.finding, r.2)) := by
  unfold conclude concludeIn
  rw [List.isEmpty_map]
  by_cases hnone : all.isEmpty = true
  · rw [if_pos hnone, if_pos hnone, pure_bind, List.map_nil]
  · rw [if_neg hnone, if_neg hnone, rank_map_finding, bind_assoc]
    simp only [pure_bind]

theorem run_eq_runIn (artifacts : Value) (o : Options) :
    run (σ := σ) artifacts o = (do
      let r ← runIn floating artifacts o
      return (r.1.map floating.finding, r.2)) := by
  unfold run runWith runIn
  rw [bind_assoc]
  refine bind_congr fun searched => ?_
  cases searched with
  | none => rfl
  | some found =>
    dsimp only
    unfold Correlation.assess
    rw [bind_assoc, bind_assoc]
    refine bind_congr fun groups => ?_
    rw [mapM_ofGroup_eq, bind_assoc]
    cases groups.mapM (floating.assess found.count) with
    | error e => rfl
    | ok all => exact conclude_map_finding o found all

end ThreatAtlas.Correlation
