import ThreatAtlas.Proofs.Correlation.Order
import ThreatAtlas.Proofs.Correlation.Replay
import ThreatAtlas.Proofs.Correlation.Scores

/-!
# Nearer rows and scores

A row that is nearer to a group should speak for it no less. Two runs are compared whose rows differ in
one distance. The scores follow the distances as they are counted, and a distance of zero counts as ten:
so an exact match speaks for a group less than a match one to nine steps away.
-/

namespace ThreatAtlas.Correlation

open Job (Ends Ensures Relates outcome)
open Number (Amount Upto)
open Value (Weighs)

def counted (d : ℤ) : ℤ :=
  if d = 0 then 10 else d

variable {d d' : ℤ} {row : Row} {v v' : Value}

theorem distanceOf_of_int (h : row.get "dist" = .int d) : distanceOf row = .int (counted d) := by
  unfold distanceOf counted
  rw [h]
  by_cases hd : d = 0
  · rw [hd]
    rfl
  · rw [if_neg hd]
    exact if_pos (bne_iff_ne.mpr hd)

/-- The second distance is the first, or is less than it and at least one step. -/
inductive Closer : Value → Value → Prop
  | same {v : Value} {p : Amount} (hv : Weighs v p) (hmost : p ≤ .ofRat 999) : Closer v v
  | nearer {v : Value} {p : Amount} {e : ℤ} (hv : Weighs v p) (hleast : 1 ≤ e) (hle : .ofRat e ≤ p)
    (hmost : p ≤ .ofRat 999) : Closer v (.int e)

private theorem Closer.lesser (h : Closer v v') (w : Value) : Agree Closer (v.lesser w) (v'.lesser w) := by
  rcases Value.lesser_cases w with ⟨q, hw⟩ | hkept | hfails
  · cases h with
    | @same p hv hmost =>
      rw [Value.lesser_of_weighs hv hw]
      split
      case isTrue hlt => exact .ok (.same hw (hlt.le.trans hmost))
      case isFalse => exact .ok (.same hv hmost)
    | @nearer p e hv hleast hle hmost =>
      rw [Value.lesser_of_weighs hv hw, Value.lesser_of_weighs (Value.weighs_int e) hw]
      by_cases hlt : q < .ofRat e
      · have hltp := hlt.trans_le hle
        rw [if_pos hlt, if_pos hltp]
        exact .ok (.same hw (hltp.le.trans hmost))
      · rw [if_neg hlt]
        split
        case isTrue hltp => exact .ok (.nearer hw hleast (not_lt.mp hlt) (hltp.le.trans hmost))
        case isFalse => exact .ok (.nearer hv hleast hle hmost)
  · cases h with
    | same hv hmost =>
      rw [hkept _ _ hv]
      exact .ok (.same hv hmost)
    | nearer hv hleast hle hmost =>
      rw [hkept _ _ hv, hkept _ _ (Value.weighs_int _)]
      exact .ok (.nearer hv hleast hle hmost)
  · cases h with
    | same hv _ =>
      obtain ⟨e, he⟩ := hfails _ _ hv
      rw [he]
      exact .error e e
    | nearer hv _ _ _ =>
      obtain ⟨e, he⟩ := hfails _ _ hv
      obtain ⟨e', he'⟩ := hfails _ _ (Value.weighs_int _)
      rw [he, he']
      exact .error e e'

private theorem Closer.lesser_int (h : Closer v v') {m m' : ℤ} (hleast : 1 ≤ m') (hle : m' ≤ m) :
    Agree Closer (v.lesser (.int m)) (v'.lesser (.int m')) := by
  have hcast : Amount.ofRat m' ≤ .ofRat m := Amount.ofRat_le_ofRat.mpr (Int.cast_le.mpr hle)
  have hfirst {p : Amount} (hv : Weighs v p) (hmost : p ≤ .ofRat 999) {e : ℤ} (he : 1 ≤ e)
      (hep : .ofRat e ≤ p) (hem : Amount.ofRat e ≤ .ofRat m) :
      Closer (if .ofRat m < p then .int m else v) (.int e) := by
    split
    case isTrue hlt => exact .nearer (Value.weighs_int m) he hem (hlt.le.trans hmost)
    case isFalse => exact .nearer hv he hep hmost
  cases h with
  | @same p hv hmost =>
    rw [Value.lesser_of_weighs hv (Value.weighs_int m), Value.lesser_of_weighs hv (Value.weighs_int m')]
    by_cases hlt : .ofRat m' < p
    · rw [if_pos hlt]
      exact .ok (hfirst hv hmost hleast hlt.le hcast)
    · rw [if_neg hlt, if_neg fun h => hlt (hcast.trans_lt h)]
      exact .ok (.same hv hmost)
  | @nearer p e hv he hep hmost =>
    rw [Value.lesser_of_weighs hv (Value.weighs_int m),
      Value.lesser_of_weighs (Value.weighs_int e) (Value.weighs_int m')]
    by_cases hlt : Amount.ofRat m' < .ofRat e
    · rw [if_pos hlt]
      exact .ok (hfirst hv hmost hleast (hlt.le.trans hep) hcast)
    · rw [if_neg hlt]
      exact .ok (hfirst hv hmost he hep ((not_lt.mp hlt).trans hcast))

/-- The rows are alike, but the distance of the second may be less. -/
structure Nearer (row row' : Row) : Prop where
  label : row'.get "label" = row.get "label"
  kind : row'.get "type" = row.get "type"
  path : row'.get "path_nodes" = row.get "path_nodes"
  distance : distanceOf row' = distanceOf row ∨
    ∃ m m', distanceOf row = .int m ∧ distanceOf row' = .int m' ∧ 1 ≤ m' ∧ m' ≤ m

private theorem Nearer.refl (row : Row) : Nearer row row :=
  ⟨rfl, rfl, rfl, .inl rfl⟩

/-- The records are alike, but the second group may be nearer. -/
structure Tracks (g g' : Group) : Prop where
  nearest : Closer g.nearest g'.nearest
  rest : g' = { g with nearest := g'.nearest }

private theorem Nearer.lesser {row' : Row} (h : Nearer row row') (hv : Closer v v') :
    Agree Closer (v.lesser (distanceOf row)) (v'.lesser (distanceOf row')) := by
  rcases h.distance with hsame | ⟨m, m', hm, hm', hleast, hle⟩
  · rw [hsame]
    exact hv.lesser _
  · rw [hm, hm']
    exact hv.lesser_int hleast hle

theorem Tracks.sight {clues : Clues} {row' : Row} {g g' : Group} (h : Tracks g g') (hrow : Nearer row row') :
    Agree Tracks (sight clues row g) (sight clues row' g') := by
  have hpath : pathOf row' = pathOf row := by
    unfold pathOf
    rw [hrow.path]
  unfold Correlation.sight
  rw [hpath]
  refine (hrow.lesser h.nearest).bind fun v v' hv => ?_
  refine (Agree.refl (fun _ => rfl) (pathOf row)).bind ?_
  rintro path _ rfl
  refine .ok ⟨hv, ?_⟩
  rw [h.rest]
  rfl

private theorem mirrors_nearer (clues : Clues) : Mirrors clues clues Nearer Tracks where
  label := Nearer.label
  kind := Nearer.kind
  name h := by rw [h.rest]
  fresh _ := ⟨.same (Value.weighs_int 999) le_rfl, rfl⟩
  sight hrow h := h.sight hrow

/-- The findings are of one group, and the second is scored no less. -/
structure NoWorse (f f' : Finding) : Prop where
  group : f'.group = f.group
  score : Upto f.score f'.score

private theorem Tracks.ofGroup {g g' : Group} (h : Tracks g g') (n : ℕ) :
    Agree NoWorse (Finding.ofGroup n g) (Finding.ofGroup n g') := by
  obtain ⟨hnearest, hrest⟩ := h
  generalize g'.nearest = v' at hnearest hrest
  subst hrest
  generalize hv : g.nearest = v at hnearest
  cases hnearest with
  | same =>
    rw [← hv]
    exact .refl (fun f => ⟨rfl, .refl _⟩) _
  | @nearer p e hweighs hleast hle hmost =>
    have hone : Amount.ofRat 1 ≤ .ofRat e := Amount.ofRat_le_ofRat.mpr (by exact_mod_cast hleast)
    obtain ⟨x, hx, -⟩ := proximity_of_weighs hweighs (hone.trans hle) hmost
    obtain ⟨x', hx', -⟩ := proximity_of_weighs (Value.weighs_int e) hone (hle.trans hmost)
    rw [← hv] at hx hweighs
    obtain ⟨f, hf⟩ := exists_ofGroup hx n
    obtain ⟨f', hf'⟩ := exists_ofGroup (g := { g with nearest := .int e }) hx' n
    rw [hf, hf']
    refine .ok ⟨?_, ?_⟩
    · rw [group_of_ofGroup hf, group_of_ofGroup hf']
    · refine (upto_ofGroup hf hf' rfl rfl (fun y y' hy hy' => ?_) (.refl _)).1
      exact upto_proximity hweighs (Value.weighs_int e) hone hle hmost hy hy'

variable {σ : Type} [Outside σ]

/-- Findings side by side, each group of which is found once. -/
def SideBySide (found found' : List Finding) : Prop :=
  List.Forall₂ NoWorse found found' ∧ (found.map Finding.group).Nodup

private theorem relates_assess (clues : Clues) (count : ℕ) {rows rows' : List Row}
    (hrows : List.Forall₂ Nearer rows rows') :
    Relates (σ := σ) Eq SideBySide (assess clues count rows) (assess clues count rows') := by
  have hstart : Abreast Tracks {} {} := ⟨rfl, .nil⟩
  have hgathered := relates_foldlM_advance (σ := σ) (mirrors_nearer clues)
    (fun _ _ => Job.relates_refl _) hrows hstart
  have horderly : Ensures (fun _ => True) (fun s => Orderly s.groups)
      (rows.foldlM (advance (σ := σ) clues) {}) :=
    ensures_orderly_foldlM (fun _ _ _ _ _ _ => ⟨trivial, trivial⟩)
      (fun _ _ _ _ _ _ _ => ⟨trivial, trivial⟩) orderly_nil rows
  have hboth := hgathered.ensuring horderly (Q := fun _ => True)
    (fun _ _ _ _ _ => ⟨trivial, trivial⟩) fun _ _ _ => ⟨trivial, trivial⟩
  unfold assess
  rw [gather_eq clues rows {}, gather_eq clues rows' {}, bind_assoc, bind_assoc]
  refine Job.relates_bind hboth fun s s' hs => ?_
  obtain ⟨habreast, horderly, -⟩ := hs
  rw [pure_bind, pure_bind]
  refine Job.relates_lift ?_
  refine (agree_mapM habreast.groups fun g g' hg => hg.ofGroup count).and_left fun found hfound => ?_
  rw [groups_of_mapM_ofGroup hfound]
  exact horderly.distinct.nodup

def lowered (place : ℕ) (d d' : ℤ) (rows : List Row) : List Row :=
  rows.modify place fun row =>
    match row.get "dist" with
    | .int e => if e = d then row.set "dist" (.int d') else row
    | _ => row

private theorem forall₂_modify {α : Type} {R : α → α → Prop} {f : α → α} (hself : ∀ x, R x x)
    (hf : ∀ x, R x (f x)) (xs : List α) (i : ℕ) : List.Forall₂ R xs (xs.modify i f) := by
  induction xs generalizing i with
  | nil =>
    rw [List.modify_nil]
    exact .nil
  | cons x xs ih =>
    cases i with
    | zero => exact .cons (hf x) (List.forall₂_same.mpr fun y _ => hself y)
    | succ i => exact .cons (hself x) (ih i)

theorem nearer_set (hdist : row.get "dist" = .int d) (hleast : 1 ≤ counted d') (hle : counted d' ≤ counted d) :
    Nearer row (row.set "dist" (.int d')) := by
  have hother {name : String} (h : name ≠ "dist") :
      (row.set "dist" (.int d')).get name = row.get name := by
    unfold Fields.get
    rw [Fields.lookup_set_of_ne _ _ h]
  refine ⟨hother (by decide), hother (by decide), hother (by decide), .inr ?_⟩
  refine ⟨_, _, distanceOf_of_int hdist, distanceOf_of_int ?_, hleast, hle⟩
  unfold Fields.get
  rw [Fields.lookup_set_self]
  rfl

theorem nearer_lowered (hleast : 1 ≤ counted d') (hle : counted d' ≤ counted d) (place : ℕ) (rows : List Row) :
    List.Forall₂ Nearer rows (lowered place d d' rows) := by
  refine forall₂_modify Nearer.refl (fun row => ?_) rows place
  split
  case h_1 e he =>
    split
    case isTrue heq =>
      rw [heq] at he
      exact nearer_set he hleast hle
    case isFalse => exact .refl row
  case h_2 => exact .refl row

def NoneLower (r r' : List Finding × Value) : Prop :=
  ∀ f ∈ r.1, ∀ f' ∈ r'.1, f'.group = f.group → ¬ f'.score < f.score

/-- Whatever the artifacts and the services are, a run in which one of the rows tells the distance `d'`
for `d` gives no group a lower score. -/
def NeverLowers (d d' : ℤ) : Prop :=
  ∀ (σ : Type) [Outside σ] (artifacts : Value) (o : Options) (place : ℕ),
    Ends (σ := σ) Eq NoneLower (run artifacts o)
      (runWith (fun clues count rows => assess clues count (lowered place d d' rows)) artifacts o)

private theorem SideBySide.noneLower {found found' : List Finding} (h : SideBySide found found')
    {r r' : List Finding × Value} (hr : r.1 = Finding.rank found ∧ r'.1 = Finding.rank found') :
    NoneLower r r' := by
  intro f hf f' hf' hgroup
  rw [hr.1] at hf
  rw [hr.2] at hf'
  have hworse := rel_of_key_eq (R := NoWorse) (fun _ _ h => h.group) h.1 h.2 (mem_of_mem_rank hf)
    (mem_of_mem_rank hf') hgroup
  exact hworse.score.not_lt

private theorem ends_runWith {F F' : Clues → ℕ → List Row → Job σ (List Finding)}
    (h : ∀ clues count rows, Relates Eq SideBySide (F clues count rows) (F' clues count rows))
    (artifacts : Value) (o : Options) :
    Ends Eq NoneLower (runWith F artifacts o) (runWith F' artifacts o) := by
  unfold runWith
  refine Job.ends_bind (Job.relates_refl _) ?_
  rintro searched _ rfl
  cases searched with
  | none => exact Job.Relates.ends (Job.relates_pure nofun)
  | some search =>
    refine Job.ends_bind (h _ _ _) fun found found' hfound => ?_
    intro w w' hw
    rcases ends_conclude search.clues search.clues o search.loose found found' w w' hw
      with hleft | hright | hagree
    · exact .inl hleft
    · exact .inr (.inl hright)
    · exact .inr (.inr (hagree.mono fun _ _ => hfound.noneLower))

private theorem neverLowers_of_counted (hleast : 1 ≤ counted d') (hle : counted d' ≤ counted d) :
    NeverLowers d d' := by
  intro σ _ artifacts o place
  exact ends_runWith (fun clues count rows =>
    relates_assess clues count (nearer_lowered hleast hle place rows)) artifacts o

def lowers : Except Failure (List Finding × Value) → Except Failure (List Finding × Value) → Bool
  | .ok (found, _), .ok (found', _) => found.any fun f => found'.any fun f' =>
    match f.group, f'.group with
    | .text name, .text name' => name' == name && decide (f'.score < f.score)
    | _, _ => false
  | _, _ => false

private theorem not_agree_of_lowers {r r' : Except Failure (List Finding × Value)} (h : lowers r r' = true) :
    r ≠ .error .interrupted ∧ r' ≠ .error .interrupted ∧ ¬ Agree NoneLower r r' := by
  cases r with
  | error e => cases h
  | ok result =>
    cases r' with
    | error e => cases h
    | ok result' =>
      refine ⟨nofun, nofun, fun hagree => ?_⟩
      cases hagree with
      | ok hnone =>
        obtain ⟨f, hf, h⟩ := List.any_eq_true.mp h
        obtain ⟨f', hf', h⟩ := List.any_eq_true.mp h
        split at h
        case h_1 name name' hname hname' =>
          rw [Bool.and_eq_true, beq_iff_eq, decide_eq_true_iff] at h
          refine hnone f hf f' hf' ?_ h.2
          rw [hname, hname', h.1]
        case h_2 => cases h

def exactAnswers (d : ℤ) (q : Query) : Answer :=
  if q.text == equalNodes "evil.com" then
    .rows [[("label", .text "APT1"), ("type", .text "ThreatGroup"), ("dist", .int d),
      ("path_nodes", .list [.record [("name", .text "APT1"), ("labels", .list [.text "ThreatGroup"])]])]]
  else .rows []

def exactClue : Value :=
  .list [.record [("type", .text "Indicator"), ("value", .text "evil.com")]]

/-- Whether a score is lower when the exact match is told to be no step away for `d`. -/
def exactLowers (d : ℤ) : Bool :=
  lowers (outcome (run exactClue {}) ({ outside := ⟨exactAnswers d⟩ } : World Tabulated)).1
    (outcome (runWith (fun clues count rows => assess clues count (lowered 0 d 0 rows)) exactClue {})
      ({ outside := ⟨exactAnswers d⟩ } : World Tabulated)).1

private theorem exactLowers_of_le (hleast : 1 ≤ d) (hmost : d ≤ 9) : exactLowers d = true := by
  have hall : ((List.range 9).all fun k => exactLowers (k + 1)) = true := by decide +kernel
  obtain ⟨k, rfl⟩ : ∃ k : ℕ, d = k + 1 := ⟨(d - 1).toNat, by omega⟩
  exact List.all_eq_true.mp hall k (List.mem_range.mpr (by omega))

/-- A row that is nearer lowers no score, with one exception: told as zero, a distance of one to nine
steps counts for more than it did. -/
theorem neverLowers_iff {d d' : ℤ} (h : 0 ≤ d') (hle : d' ≤ d) :
    NeverLowers d d' ↔ (d' = 0 → d = 0 ∨ 10 ≤ d) := by
  constructor
  · rintro hnever rfl
    by_contra hnear
    have hlower : exactLowers d = true := exactLowers_of_le (by omega) (by omega)
    obtain ⟨hleft, hright, hagree⟩ := not_agree_of_lowers hlower
    rcases hnever Tabulated exactClue {} 0 _ _ rfl with hinterrupted | hinterrupted | hnone
    · exact hleft hinterrupted
    · exact hright hinterrupted
    · exact hagree hnone
  · intro hzero
    refine neverLowers_of_counted ?_ ?_
    · unfold counted
      split <;> omega
    · unfold counted
      split <;> split <;> omega

/-- Three steps lowered to one raise the scores; one step lowered to none does not. -/
theorem neverLowers_three_one : NeverLowers 3 1 ∧ ¬ NeverLowers 1 0 := by
  constructor
  · exact (neverLowers_iff (by decide) (by decide)).mpr (by decide)
  · intro hnever
    exact absurd ((neverLowers_iff (by decide) (by decide)).mp hnever rfl) (by decide)

end ThreatAtlas.Correlation
