import ThreatAtlas.Proofs.Correlation.Assessment
import ThreatAtlas.Proofs.Correlation.Encounters
import ThreatAtlas.Proofs.Value.Sort

/-!
# Scores and their ranking

With rational numbers a score is positive and at most 1.035: the nearest group is a step away, no more
clues meet it than there are artifacts, and ten shared nodes count as one. The ranking lists groups by
falling score, those of one score in the order in which they were met, and leaves out none that scores
higher than one it lists.
-/

namespace ThreatAtlas.Correlation

open Job (Returns)

section

variable {β γ : Type} [LinearOrder γ] {key : β → γ}

/-- The results are the first fifteen of all by falling key, with those of one key in their order. -/
structure Ranked (key : β → γ) (all results : List β) : Prop where
  length_eq : results.length = min 15 all.length
  falling : results.Pairwise fun a b => key b ≤ key a
  stable : ∀ k, results.filter (key · = k) <+: all.filter (key · = k)
  rest : ∃ omitted, all.Perm (results ++ omitted) ∧ ∀ a ∈ omitted, ∀ b ∈ results, key a ≤ key b

theorem Ranked.eq_pair {results : List β} {a b : β} (h : Ranked key [a, b] results) (hlt : key a < key b) :
    results = [b, a] := by
  obtain ⟨omitted, hperm, -⟩ := h.rest
  obtain ⟨x, y, rfl⟩ := List.length_eq_two.mp h.length_eq
  obtain rfl : omitted = [] := List.length_eq_zero_iff.mp (by simpa using hperm.length_eq)
  have hfalling : key y ≤ key x := List.rel_of_pairwise_cons h.falling List.mem_cons_self
  rw [List.append_nil] at hperm
  rcases List.mem_pair.mp (hperm.mem_iff.mpr List.mem_cons_self) with rfl | rfl
  · obtain rfl := List.singleton_perm_singleton.mp ((List.perm_cons x).mp hperm)
    exact absurd hlt hfalling.not_gt
  · have hswap := (List.Perm.swap a x []).trans hperm
    rw [List.singleton_perm_singleton.mp ((List.perm_cons x).mp hswap)]

def noLess (key : β → γ) (a b : β) : Bool :=
  !decide (key a < key b)

private theorem noLess_iff {a b : β} : noLess key a b = true ↔ key b ≤ key a := by
  unfold noLess
  rw [Bool.not_eq_true', decide_eq_false_iff_not, not_lt]

private theorem noLess_trans (a b c : β) (hab : noLess key a b = true) (hbc : noLess key b c = true) :
    noLess key a c = true := by
  rw [noLess_iff] at hab hbc ⊢
  exact hbc.trans hab

private theorem noLess_total (a b : β) : (noLess key a b || noLess key b a) = true := by
  rw [Bool.or_eq_true, noLess_iff, noLess_iff]
  exact le_total _ _

private theorem pairwise_noLess_mergeSort (key : β → γ) (all : List β) :
    (all.mergeSort (noLess key)).Pairwise fun a b => key b ≤ key a :=
  (List.pairwise_mergeSort noLess_trans noLess_total all).imp noLess_iff.mp

private theorem filter_mergeSort (all : List β) (k : γ) :
    (all.mergeSort (noLess key)).filter (key · = k) = all.filter (key · = k) := by
  apply Value.filter_mergeSort_of_le noLess_trans noLess_total
  intro a b ha hb
  rw [noLess_iff, of_decide_eq_true ha, of_decide_eq_true hb]

private theorem ranked_take_mergeSort (all : List β) :
    Ranked key all ((all.mergeSort (noLess key)).take 15) := by
  have hsorted := pairwise_noLess_mergeSort key all
  refine ⟨?_, hsorted.sublist (List.take_sublist _ _), fun k => ?_,
    (all.mergeSort (noLess key)).drop 15, ?_, ?_⟩
  · rw [List.length_take, List.length_mergeSort]
  · rw [← filter_mergeSort all k]
    exact (List.take_prefix 15 _).filter _
  · rw [List.take_append_drop]
    exact (List.mergeSort_perm all (noLess key)).symm
  · intro a ha b hb
    rw [← List.take_append_drop 15 (all.mergeSort (noLess key)), List.pairwise_append] at hsorted
    exact hsorted.2.2 b hb a ha

end

private theorem ranked_rankIn (all : List (Assessment ℚ)) : Ranked Assessment.score all (rankIn all) :=
  ranked_take_mergeSort all

structure Bounded (count : ℕ) (a : Assessment ℚ) : Prop where
  raw_pos : 0 < a.raw
  raw_le : a.raw ≤ 1.035
  percent_nonneg : 0 ≤ a.percent
  percent_le : a.percent ≤ 100
  hits_le : a.hits.length ≤ count
  named : a.group.truthy = true

private theorem combine_bounds {x b s : ℚ} (hx : 0 < x ∧ x ≤ 1 / 2) (hb : 0 ≤ b ∧ b ≤ 1) (hs : 0 ≤ s ∧ s ≤ 1)
    (incident : Bool) :
    0 < combine Scale.weights x b s incident ∧ combine Scale.weights x b s incident ≤ 1.035 := by
  have hsum : combine Scale.weights x b s false = x * 0.2 + b * 0.6 + s * 0.2 := rfl
  have hraised : combine Scale.weights x b s true = (x * 0.2 + b * 0.6 + s * 0.2) * 1.15 := rfl
  obtain ⟨hx₀, hx₁⟩ := hx
  obtain ⟨hb₀, hb₁⟩ := hb
  obtain ⟨hs₀, hs₁⟩ := hs
  cases incident with
  | false =>
    rw [hsum]
    norm_num
    constructor <;> linarith
  | true =>
    rw [hraised]
    norm_num
    constructor <;> linarith

private theorem breadth_bounds (written : ℚ → Float) {g : Group} {count : ℕ} (h : g.hits.length ≤ count) :
    0 ≤ (rational written).breadth g count ∧ (rational written).breadth g count ≤ 1 := by
  change 0 ≤ (g.hits.length : ℚ) / count ∧ (g.hits.length : ℚ) / count ≤ 1
  refine ⟨by positivity, div_le_one_of_le₀ ?_ (Nat.cast_nonneg count)⟩
  exact_mod_cast h

private theorem sharing_bounds (written : ℚ → Float) (g : Group) :
    0 ≤ (rational written).sharing g ∧ (rational written).sharing g ≤ 1 := by
  have hshare : (0 : ℚ) ≤ (g.shared.length : ℚ) / 10.0 := by positivity
  change 0 ≤ (if (g.shared.length : ℚ) / 10.0 < 1.0 then (g.shared.length : ℚ) / 10.0 else 1.0) ∧
    (if (g.shared.length : ℚ) / 10.0 < 1.0 then (g.shared.length : ℚ) / 10.0 else 1.0) ≤ 1
  split
  case isTrue hless =>
    norm_num at hless hshare ⊢
    exact ⟨hshare, hless.le⟩
  case isFalse => norm_num

private theorem proximity_bounds (written : ℚ → Float) {d : ℤ} (h : 1 ≤ d) :
    ∃ x, (rational written).proximity (.int d) = .ok x ∧ 0 < x ∧ x ≤ 1 / 2 := by
  have hd : (1 : ℚ) ≤ d := by exact_mod_cast h
  refine ⟨1 / (1 + d), if_neg (by omega), by positivity, ?_⟩
  exact one_div_le_one_div_of_le two_pos (by linarith)

private theorem bounded_of_assess (written : ℚ → Float) {clues : Clues} {g : Group} {count : ℕ}
    {a : Assessment ℚ} (hg : Tallied clues g) (hhits : g.hits.length ≤ count)
    (h : (rational written).assess count g = .ok a) : Bounded count a := by
  obtain ⟨d, hd, hnearest⟩ := hg.nearest
  obtain ⟨x, hx, hbounds⟩ := proximity_bounds written hd
  obtain ⟨raw, hraw, h⟩ := bind_eq_ok.mp h
  obtain ⟨x', hx', hraw⟩ := bind_eq_ok.mp hraw
  rw [hnearest, hx] at hx'
  cases hx'
  obtain ⟨hpos, hle⟩ := combine_bounds hbounds (breadth_bounds written hhits) (sharing_bounds written g)
    g.namesIncident
  rw [pure_eq_ok.mp hraw] at hpos hle
  have hpercent : 0 ≤ (rational written).round 1 (raw * 100.0) := by
    change 0 ≤ Number.mirrored (Number.toPlaces 1) (raw * 100.0)
    unfold Number.mirrored
    rw [if_neg (not_lt.mpr (by positivity))]
    exact Number.toPlaces_nonneg _ _
  rw [← pure_eq_ok.mp h]
  refine ⟨hpos, hle, ?_, ?_, ?_, hg.named⟩
  · dsimp only
    split
    · norm_num
    · exact hpercent
  · dsimp only
    split
    · norm_num
    case isFalse hmore => exact (not_lt.mp hmore).trans (by norm_num)
  · dsimp only
    rw [length_sortTexts]
    exact hhits

variable {σ : Type} [Outside σ]

private theorem clueQueries_ne_nil {index : Value} {loose : Int} {o : Options} {item : Value}
    {queries : List String} (h : clueQueries index loose o item = .ok queries) : queries ≠ [] := by
  obtain ⟨value, -, h⟩ := bind_eq_ok.mp h
  obtain ⟨steps, -, h⟩ := bind_eq_ok.mp h
  rw [← pure_eq_ok.mp h]
  exact List.cons_ne_nil _ _

/-- A search for artifacts, if there are any, brings clues for each of them. -/
theorem search_returns {items : List Value} {o : Options} {found? : Option Search} {w w' : World σ}
    (hitems : items ≠ []) (h : Returns (search (.list items) o) w found? w') :
    ∃ found values, found? = some found ∧ found.count = items.length ∧
      items.mapM clueValue = .ok values ∧ found.clues = .ofValues values := by
  unfold search at h
  rw [Job.returns_lift_bind] at h
  obtain ⟨loose, -, h⟩ := h
  obtain ⟨index, w₁, -, h⟩ := Job.returns_bind.mp h
  rw [Job.returns_lift_bind] at h
  obtain ⟨_, ⟨⟩, h⟩ := h
  rw [Job.returns_lift_bind] at h
  obtain ⟨queries, hqueries, h⟩ := h
  have hsome : ¬ queries.flatten.isEmpty = true := by
    obtain ⟨item, hitem⟩ := List.exists_mem_of_ne_nil items hitems
    obtain ⟨some, hsome, hmade⟩ := exists_right_of_forall₂ (mapM_eq_ok.mp hqueries) hitem
    rw [List.isEmpty_iff, List.flatten_eq_nil_iff]
    exact fun hnil => clueQueries_ne_nil hmade (hnil some hsome)
  rw [if_neg hsome] at h
  obtain ⟨rows, w₂, -, h⟩ := Job.returns_bind.mp h
  rw [Job.returns_lift_bind] at h
  obtain ⟨values, hvalues, h⟩ := h
  obtain ⟨rfl, -⟩ := Job.returns_pure.mp h
  exact ⟨_, values, rfl, rfl, hvalues, rfl⟩

section

variable {α : Type} [LT α] [DecidableLT α] {S : Scale α}

theorem concludeIn_returns {o : Options} {found : Search} {all results : List (Assessment α)}
    {report : Value} {w w' : World σ}
    (h : Returns (concludeIn S o found all) w (results, report) w') : results = rankIn all := by
  unfold concludeIn at h
  by_cases hnone : all.isEmpty = true
  · rw [if_pos hnone] at h
    rw [List.isEmpty_iff.mp hnone]
    simpa [rankIn] using (Prod.mk.inj (Job.returns_pure.mp h).1).1.symm
  · rw [if_neg hnone] at h
    obtain ⟨_, w₁, -, h⟩ := Job.returns_bind.mp h
    exact (Prod.mk.inj (Job.returns_pure.mp h).1).1.symm

variable [Add α] [Mul α] [Div α] [OfScientific α]

private theorem groups_of_assess {count : ℕ} {groups : List Group} {all : List (Assessment α)}
    (h : groups.mapM (S.assess count) = .ok all) :
    all.map Assessment.group = groups.map Group.name := by
  refine map_eq_of_mapM (fun g a ha => ?_) h
  obtain ⟨raw, -, ha⟩ := bind_eq_ok.mp ha
  rw [← pure_eq_ok.mp ha]

/-- On any scale a correlation ranks the assessments of the groups that are met, each by no more clues
than there are artifacts. -/
theorem runIn_returns {items : List Value} {o : Options} {w w' : World σ}
    {results : List (Assessment α)} {report : Value} (hitems : items ≠ [])
    (h : Returns (runIn S (.list items) o) w (results, report) w')
    (hrows : ∀ found w₁, Returns (search (.list items) o) w (some found) w₁ →
      ∀ row ∈ found.rows, countsSteps row = true) :
    ∃ found w₁ trail w₂ all, Returns (search (.list items) o) w (some found) w₁ ∧
      Returns (found.rows.foldlM (follow found.clues) {}) w₁ trail w₂ ∧
      trail.Sound (fun g => Tallied found.clues g ∧ g.hits.length ≤ items.length) ∧
      trail.progress.groups.mapM (S.assess items.length) = .ok all ∧ results = rankIn all := by
  unfold runIn at h
  obtain ⟨found?, w₁, hsearch, h⟩ := Job.returns_bind.mp h
  obtain ⟨found, values, rfl, hcount, hvalues, hclues⟩ := search_returns hitems hsearch
  dsimp only at h
  rw [gather_eq_follow found.clues found.rows {}] at h
  obtain ⟨groups, w₂, hgathered, h⟩ := Job.returns_bind.mp h
  obtain ⟨trail, w₃, htrail, hgroups⟩ := Job.returns_bind.mp hgathered
  obtain ⟨rfl, rfl⟩ := Job.returns_pure.mp hgroups
  rw [Job.returns_lift_bind, hcount] at h
  obtain ⟨all, hall, h⟩ := h
  have htallied := sustains_tallied found.clues (hrows found w₁ hsearch)
  obtain ⟨hsound, -⟩ := ensures_foldlM_follow htallied w₁ trivial trail w₃ htrail
  refine ⟨found, w₁, trail, w₃, all, hsearch, htrail, ⟨hsound.names, hsound.distinct, fun g hg => ?_⟩,
    hall, concludeIn_returns h⟩
  have hg := hsound.groups g hg
  refine ⟨hg, ?_⟩
  rw [hclues] at hg
  exact (mapM_eq_ok.mp hvalues).length_eq ▸ hg.length_hits_le

end

/-- Scores are bounded and ranked. What runs is the correlation on the scale of floating numbers; on that
of rational numbers, for artifacts whose rows tell their distances in steps, the groups in the order they
were first met are assessed within bounds, are distinct, and are ranked by their scores. -/
theorem runIn_rational_ranked (written : ℚ → Float) {items : List Value} {o : Options} {w w' : World σ}
    {results : List (Assessment ℚ)} {report : Value} (hitems : items ≠ [])
    (h : Returns (runIn (rational written) (.list items) o) w (results, report) w')
    (hrows : ∀ found w₁, Returns (search (.list items) o) w (some found) w₁ →
      ∀ row ∈ found.rows, countsSteps row = true) :
    (∀ artifacts, run (σ := σ) artifacts o =
      (do let r ← runIn floating artifacts o; return (r.1.map floating.finding, r.2))) ∧
    ∃ found w₁ trail w₂ all, Returns (search (.list items) o) w (some found) w₁ ∧
      Returns (found.rows.foldlM (follow found.clues) {}) w₁ trail w₂ ∧
      trail.progress.groups.mapM ((rational written).assess items.length) = .ok all ∧
      all.map Assessment.group = firstMet trail.names ∧ (all.map Assessment.group).Nodup ∧
      (∀ a ∈ all, Bounded items.length a) ∧ Ranked Assessment.score all results := by
  refine ⟨fun artifacts => run_eq_runIn artifacts o, ?_⟩
  obtain ⟨found, w₁, trail, w₂, all, hsearch, htrail, hsound, hall, rfl⟩ := runIn_returns hitems h hrows
  have hnames := groups_of_assess hall
  refine ⟨found, w₁, trail, w₂, all, hsearch, htrail, hall, hnames.trans hsound.names, ?_,
    fun a ha => ?_, ranked_rankIn all⟩
  · rw [hnames]
    exact hsound.distinct.nodup
  · obtain ⟨g, hg, hassess⟩ := exists_left_of_forall₂ (mapM_eq_ok.mp hall) ha
    obtain ⟨htallied, hhits⟩ := hsound.groups g hg
    exact bounded_of_assess written htallied hhits hassess

def wayTo (name : String) (d : ℤ) (nodes : List String) : Row :=
  [("label", .text name), ("type", .text "ThreatGroup"), ("dist", .int d),
    ("path_nodes", .list (nodes.map fun node =>
      .record [("name", .text node), ("labels", .list [.text "Indicator"])]))]

def rivalAnswers (q : Query) : Answer :=
  if q.text == equalNodes "evil.com" then
    .rows [wayTo "APT1" 3 [], wayTo "APT2" 1 ["evil.com"], wayTo "APT1" 2 []]
  else .rows []

/-- The two groups as they were first met. -/
def rivals : Job Tabulated (List (Assessment ℚ)) := do
  match ← search exactClue {} with
  | none => return []
  | some found =>
    let trail ← found.rows.foldlM (follow found.clues) {}
    (trail.progress.groups.mapM ((rational fun _ => 0.0).assess 1) : Except Failure _)

/-- One group is met twice, and another between that is nearer: the other one stands first. -/
theorem runIn_rational_ranked_rivals :
    let w : World Tabulated := { outside := ⟨rivalAnswers⟩ }
    ∃ results report w', Returns (runIn (rational fun _ => 0.0) exactClue {}) w (results, report) w' ∧
      results.map (fun a => (a.group, a.score)) = [(.text "APT2", 0.7), (.text "APT1", 0.067)] ∧
      ∀ a ∈ results, 0 < a.raw ∧ a.raw ≤ 1.035 ∧ a.hits.length ≤ 1 := by
  intro w
  obtain ⟨⟨results, report⟩, w', h⟩ := Job.exists_returns_iff.mpr
    (show (Job.outcome (runIn (rational fun _ => 0.0) exactClue {}) w).1.isOk = true by decide +kernel)
  have hsteps : ((Job.outcome (search exactClue {}) w).1.toOption.map
      (Option.all fun found => found.rows.all countsSteps)) = some true := by decide +kernel
  have hmet : ((Job.outcome rivals w).1.toOption.map fun all =>
      all.map fun a => (a.group == .text "APT1", a.group == .text "APT2", a.score)) =
        some [(true, false, 0.067), (false, true, 0.7)] := by decide +kernel
  obtain ⟨-, found, w₁, trail, w₂, all, hsearch, htrail, hall, -, -, hbounded, hranked⟩ :=
    runIn_rational_ranked _ (List.cons_ne_nil _ _) h fun found w₁ hsearch row hrow => by
      rw [show Job.outcome (search exactClue {}) w = _ from hsearch] at hsteps
      simp only [Except.toOption, Option.map_some, Option.all_some, Option.some.injEq,
        List.all_eq_true] at hsteps
      exact hsteps row hrow
  have hrivals : Returns rivals w all w₂ :=
    Job.returns_bind.mpr ⟨some found, w₁, hsearch, Job.returns_bind.mpr ⟨trail, w₂, htrail,
      Job.returns_lift.mpr ⟨hall, rfl⟩⟩⟩
  rw [show Job.outcome rivals w = _ from hrivals] at hmet
  obtain ⟨a, rest, rfl, ha, hrest⟩ := List.map_eq_cons_iff.mp (Option.some.inj hmet)
  obtain ⟨b, _, rfl, hb, hnil⟩ := List.map_eq_cons_iff.mp hrest
  cases List.map_eq_nil_iff.mp hnil
  simp only [Prod.mk.injEq, Value.beq_text_iff] at ha hb
  obtain rfl := hranked.eq_pair (by rw [ha.2.2, hb.2.2]; norm_num)
  refine ⟨[b, a], report, w', h, ?_, fun c hc => ?_⟩
  · rw [List.map_cons, List.map_cons, List.map_nil, ha.1, ha.2.2, hb.2.1, hb.2.2]
  · have hmem : c ∈ [a, b] := (List.Perm.swap a b []).mem_iff.mp hc
    exact ⟨(hbounded c hmem).raw_pos, (hbounded c hmem).raw_le, (hbounded c hmem).hits_le⟩

end ThreatAtlas.Correlation
