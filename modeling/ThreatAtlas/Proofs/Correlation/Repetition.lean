import ThreatAtlas.Proofs.Correlation.Replay
import ThreatAtlas.Proofs.Correlation.Scores

/-!
# Clues given twice

A clue may be given again, perhaps with other capitals. It brings no new rows, but it is counted twice: every
group is scored as if one more clue had been given that meets nothing, and its score may fall.
-/

namespace ThreatAtlas.Correlation

open Job (Ends Ensures Relates SeeAlike Sees Settles outcome)
open Number (Upto)

/-! Spellings -/

/-- A value in the spelling `s`, if it is `s` but for capitals. -/
def respell (s v : String) : String :=
  if Text.lower v = Text.lower s then s else v

namespace Clues

def respelled (clues : Clues) (s : String) : Clues :=
  clues.map fun e => (e.1, respell s e.2)

/-- Each value stands under its lower case form, and no form stands twice. -/
structure Keyed (clues : Clues) : Prop where
  key : ∀ e ∈ clues, e.1 = Text.lower e.2
  nodup : (clues.map Prod.fst).Nodup

variable {clues : Clues} {values : List String} {s v : String}

private theorem mem_add {e : String × String} (h : e ∈ clues.add v) :
    e = (Text.lower v, v) ∨ e ∈ clues := by
  induction clues with
  | nil => exact .inl (List.mem_singleton.mp h)
  | cons first rest ih =>
    obtain ⟨low, old⟩ := first
    rw [add] at h
    split at h
    case isTrue hlow =>
      rw [beq_iff_eq.mp hlow] at h
      exact (List.mem_cons.mp h).imp_right (List.mem_cons_of_mem _)
    case isFalse =>
      rcases List.mem_cons.mp h with rfl | h
      · exact .inr List.mem_cons_self
      · exact (ih h).imp_right (List.mem_cons_of_mem _)

private theorem keys_add (clues : Clues) (v : String) : (clues.add v).map Prod.fst =
    if Text.lower v ∈ clues.map Prod.fst then clues.map Prod.fst
    else clues.map Prod.fst ++ [Text.lower v] := by
  induction clues with
  | nil => rfl
  | cons first rest ih =>
    obtain ⟨low, old⟩ := first
    rw [add]
    by_cases hlow : low = Text.lower v
    · simp [hlow]
    · have hne : Text.lower v ≠ low := fun h => hlow h.symm
      rw [if_neg (by simpa using hlow), List.map_cons, ih, List.map_cons]
      by_cases hmem : Text.lower v ∈ rest.map Prod.fst
      · rw [if_pos hmem, if_pos (List.mem_cons_of_mem _ hmem)]
      · rw [if_neg hmem, if_neg (by simpa [hne] using hmem)]
        rfl

private theorem Keyed.add (h : Keyed clues) (v : String) : Keyed (clues.add v) := by
  constructor
  · intro e he
    rcases mem_add he with rfl | he
    · rfl
    · exact h.key e he
  · rw [keys_add]
    split
    · exact h.nodup
    case isFalse hnew =>
      refine List.nodup_append.mpr ⟨h.nodup, List.nodup_singleton _, ?_⟩
      rintro low hlow _ hlast rfl
      rw [List.mem_singleton] at hlast
      exact hnew (hlast ▸ hlow)

theorem keyed_ofValues (values : List String) : Keyed (ofValues values) := by
  induction values using List.reverseRecOn with
  | nil => exact ⟨nofun, List.nodup_nil⟩
  | append_singleton values v ih =>
    unfold ofValues
    rw [List.foldl_append]
    exact ih.add v

theorem lower_mem_ofValues (h : v ∈ values) : Text.lower v ∈ (ofValues values).map Prod.fst := by
  induction values using List.reverseRecOn with
  | nil => cases h
  | append_singleton values u ih =>
    unfold ofValues
    rw [List.foldl_append]
    change Text.lower v ∈ ((ofValues values).add u).map Prod.fst
    rw [keys_add]
    rcases List.mem_append.mp h with h | h
    · split
      · exact ih h
      · exact List.mem_append_left _ (ih h)
    · rw [List.mem_singleton.mp h]
      split
      case isTrue hmem => exact hmem
      case isFalse => exact List.mem_append_right _ (List.mem_singleton_self _)

private theorem add_eq_respelled (h : Keyed clues) (hmem : Text.lower s ∈ clues.map Prod.fst) :
    clues.add s = clues.respelled s := by
  induction clues with
  | nil => cases hmem
  | cons first rest ih =>
    obtain ⟨low, old⟩ := first
    obtain ⟨hkey, hnodup⟩ := h
    rw [List.map_cons, List.nodup_cons] at hnodup
    have hlow : low = Text.lower old := hkey _ List.mem_cons_self
    have hrestKey : ∀ e ∈ rest, e.1 = Text.lower e.2 := fun e he => hkey e (List.mem_cons_of_mem _ he)
    rw [add, respelled, List.map_cons]
    by_cases hsame : low = Text.lower s
    · have hrest : rest.map (fun e => (e.1, respell s e.2)) = rest := by
        conv_rhs => rw [← List.map_id rest]
        refine List.map_congr_left fun e he => ?_
        have hother : Text.lower e.2 ≠ Text.lower s := by
          rw [← hrestKey e he, ← hsame]
          intro heq
          refine hnodup.1 ?_
          change low ∈ _
          rw [← heq]
          exact List.mem_map_of_mem he
        unfold respell
        rw [if_neg hother]
        rfl
      rw [if_pos (beq_iff_eq.mpr hsame), hrest]
      unfold respell
      rw [if_pos (hlow.symm.trans hsame)]
    · have hmem : Text.lower s ∈ rest.map Prod.fst := by
        rcases List.mem_cons.mp hmem with heq | hmem
        · exact absurd heq.symm hsame
        · exact hmem
      rw [if_neg (by simpa using hsame), ih ⟨hrestKey, hnodup.2⟩ hmem]
      unfold respell
      rw [if_neg fun heq => hsame (hlow.trans heq)]
      rfl

private theorem Keyed.eq_of_lower_eq (h : Keyed clues) {u : String} (hu : u ∈ clues.map Prod.snd)
    (hv : v ∈ clues.map Prod.snd) (hlower : Text.lower u = Text.lower v) : u = v := by
  obtain ⟨e, he, rfl⟩ := List.mem_map.mp hu
  obtain ⟨e', he', rfl⟩ := List.mem_map.mp hv
  rw [← h.key e he, ← h.key e' he'] at hlower
  rw [List.inj_on_of_nodup_map h.nodup he he' hlower]

private theorem Keyed.respell_inj (h : Keyed clues) {u : String} (hu : u ∈ clues.map Prod.snd)
    (hv : v ∈ clues.map Prod.snd) (heq : respell s u = respell s v) : u = v := by
  unfold respell at heq
  split at heq
  case isTrue hus =>
    split at heq
    case isTrue hvs => exact h.eq_of_lower_eq hu hv (hus.trans hvs.symm)
    case isFalse hvs =>
      rw [heq] at hvs
      exact absurd rfl hvs
  case isFalse hus =>
    split at heq
    case isTrue hvs =>
      rw [heq] at hus
      exact absurd rfl hus
    case isFalse => exact heq

end Clues

variable {clues : Clues} {s : String}

private theorem clueHits_respelled (clues : Clues) (s name : String) :
    clueHits (clues.respelled s) name = (clueHits clues name).map (respell s) := by
  unfold clueHits Clues.respelled
  dsimp only
  rw [List.filter_map, List.map_map, List.map_map]
  rfl

theorem clueHits_subset {name x : String} (h : x ∈ clueHits clues name) :
    x ∈ clues.map Prod.snd := by
  obtain ⟨e, he, rfl⟩ := List.mem_map.mp h
  exact List.mem_map_of_mem (List.mem_filter.mp he).1

private theorem isShared_respelled (clues : Clues) (s : String) (group : Value) (node : PathNode) :
    isShared (clues.respelled s) group node = isShared clues group node := by
  unfold isShared Clues.respelled
  rw [List.any_map]
  rfl

private theorem foldl_insertNew_map {r : String → String} {xs ys : List String}
    (hinj : ∀ x ∈ xs ++ ys, ∀ y ∈ xs ++ ys, r x = r y → x = y) :
    (ys.map r).foldl insertNew (xs.map r) = (ys.foldl insertNew xs).map r := by
  induction ys generalizing xs with
  | nil => rfl
  | cons y ys ih =>
    have hy : insertNew (xs.map r) (r y) = (insertNew xs y).map r := by
      have hmem : r y ∈ xs.map r ↔ y ∈ xs := by
        constructor
        · intro h
          obtain ⟨x, hx, heq⟩ := List.mem_map.mp h
          rw [← hinj x (List.mem_append_left _ hx) y (by simp) heq]
          exact hx
        · exact List.mem_map_of_mem
      unfold insertNew
      simp only [List.contains_iff_mem, hmem]
      split
      · rfl
      · rw [List.map_append, List.map_singleton]
    rw [List.map_cons, List.foldl_cons, List.foldl_cons, hy]
    refine ih fun x hx z hz => ?_
    have hsub {u : String} (hu : u ∈ insertNew xs y ++ ys) : u ∈ xs ++ y :: ys := by
      unfold insertNew at hu
      split at hu
      · rcases List.mem_append.mp hu with hu | hu
        · exact List.mem_append_left _ hu
        · exact List.mem_append_right _ (List.mem_cons_of_mem _ hu)
      · simpa using hu
    exact hinj x (hsub hx) z (hsub hz)

/-- The records are alike but for the spelling of the clues. -/
structure Respelled (clues : Clues) (s : String) (g g' : Group) : Prop where
  hits : ∀ x ∈ g.hits, x ∈ clues.map Prod.snd
  rest : g' = { g with hits := g.hits.map (respell s) }

variable {g g' : Group} {n : ℕ} {a : Value}

private theorem Respelled.absorb (hclues : clues.Keyed) (h : Respelled clues s g g') (path : List PathNode) :
    Respelled clues s (g.absorb clues path) (g'.absorb (clues.respelled s) path) := by
  have hfound : ∀ x ∈ path.flatMap fun n => clueHits clues n.name, x ∈ clues.map Prod.snd := by
    intro x hx
    obtain ⟨n, -, hx⟩ := List.mem_flatMap.mp hx
    exact clueHits_subset hx
  have hknown : ∀ x ∈ g.hits ++ path.flatMap fun n => clueHits clues n.name,
      x ∈ clues.map Prod.snd := by
    intro x hx
    exact (List.mem_append.mp hx).elim (h.hits x) (hfound x)
  constructor
  · intro x hx
    exact (mem_foldl_insertNew.mp hx).elim (h.hits x) (hfound x)
  · rw [h.rest]
    have hrespelled : (path.flatMap fun n => clueHits (clues.respelled s) n.name) =
        (path.flatMap fun n => clueHits clues n.name).map (respell s) := by
      simp only [clueHits_respelled, List.map_flatMap]
    have hshared : isShared (clues.respelled s) g.name = isShared clues g.name :=
      funext (isShared_respelled clues s g.name)
    unfold Group.absorb
    dsimp only
    rw [hrespelled, hshared, foldl_insertNew_map]
    exact fun x hx y hy => hclues.respell_inj (hknown x hx) (hknown y hy)

private theorem mirrors_respelled (hclues : clues.Keyed) (s : String) :
    Mirrors clues (clues.respelled s) Eq (Respelled clues s) where
  label h := by rw [h]
  kind h := by rw [h]
  name h := by rw [h.rest]
  fresh _ := ⟨nofun, rfl⟩
  sight := by
    rintro row _ g g' rfl h
    have hnearest : g'.nearest = g.nearest := by rw [h.rest]
    unfold sight
    rw [hnearest]
    refine (Agree.refl (fun _ => rfl) (g.nearest.lesser (distanceOf row))).bind ?_
    rintro v _ rfl
    refine (Agree.refl (fun _ => rfl) (pathOf row)).bind ?_
    rintro path _ rfl
    have hmoved : Respelled clues s { g with nearest := v } { g' with nearest := v } := by
      refine ⟨h.hits, ?_⟩
      rw [h.rest]
    exact .ok (hmoved.absorb hclues path)

/-! Evidence -/

/-- The same speaks for the two groups, up to the spelling of the clues and the number of paths. -/
structure SameEvidence (g g' : Group) : Prop where
  name : g'.name = g.name
  nearest : g'.nearest = g.nearest
  hits : g'.hits.length = g.hits.length
  shared : g'.shared = g.shared
  incident : g'.namesIncident = g.namesIncident

private theorem Respelled.sameEvidence {g'' : Group} (h : Respelled clues s g g') (h' : Unmoved g' g'') :
    SameEvidence g g'' := by
  obtain ⟨-, rfl⟩ := h
  refine ⟨h'.name, h'.nearest, ?_, h'.shared, h'.incident⟩
  rw [h'.hits, List.length_map]

/-- The second finding rests on the same evidence, set against one clue more. It is not scored higher,
and no lower either if no clue meets the group. -/
structure Diluted (count : ℕ) (f f' : Finding) : Prop where
  group : f'.group = f.group
  evidence : ∃ g g', SameEvidence g g' ∧ Finding.ofGroup count g = .ok f ∧
    Finding.ofGroup (count + 1) g' = .ok f'
  notHigher : ¬ f.score < f'.score ∧ ¬ f.percent < f'.percent
  unhit : f.hits = [] → f'.score = f.score ∧ f'.percent = f.percent

private theorem hits_of_ofGroup {f : Finding} (h : Finding.ofGroup n g = .ok f) (hhits : f.hits = []) :
    g.hits = [] := by
  obtain ⟨raw, -, h⟩ := bind_eq_ok.mp h
  rw [← pure_eq_ok.mp h] at hhits
  have hlength := congrArg List.length hhits
  unfold sortTexts at hlength
  rw [List.length_mergeSort] at hlength
  exact List.length_eq_zero_iff.mp hlength

private theorem SameEvidence.score_eq (h : SameEvidence g g') (hhits : g.hits = []) (hn : 0 < n) :
    g'.score (n + 1) = g.score n := by
  have hhits' : g'.hits = [] := by
    rw [← List.length_eq_zero_iff, h.hits, hhits]
    rfl
  unfold Group.score Group.sharing
  rw [breadth_of_no_hits hhits hn, breadth_of_no_hits hhits' (Nat.succ_pos n), h.nearest, h.shared,
    h.incident]

private theorem SameEvidence.ofGroup (h : SameEvidence g g') (hn : 0 < n) :
    Agree (Diluted n) (Finding.ofGroup n g) (Finding.ofGroup (n + 1) g') := by
  cases hproximity : proximity g.nearest with
  | error e =>
    have hproximity' : proximity g'.nearest = .error e := by rw [h.nearest, hproximity]
    unfold Finding.ofGroup Group.score
    rw [hproximity, hproximity']
    exact .error e e
  | ok x =>
    have hproximity' : proximity g'.nearest = .ok x := by rw [h.nearest, hproximity]
    obtain ⟨f, hf⟩ := exists_ofGroup hproximity n
    obtain ⟨f', hf'⟩ := exists_ofGroup hproximity' (n + 1)
    rw [hf, hf']
    have hupto := upto_ofGroup hf' hf (by rw [h.shared]) h.incident
      (fun y y' hy hy' => ?_) (upto_breadth h.hits hn)
    · refine .ok ⟨?_, ⟨g, g', h, hf, hf'⟩, ⟨hupto.1.not_lt, hupto.2.not_lt⟩, fun hhits => ?_⟩
      · rw [group_of_ofGroup hf, group_of_ofGroup hf', h.name]
      · obtain ⟨raw, hraw, hfinding⟩ := bind_eq_ok.mp hf
        obtain ⟨raw', hraw', hfinding'⟩ := bind_eq_ok.mp hf'
        rw [h.score_eq (hits_of_ofGroup hf hhits) hn, hraw] at hraw'
        cases hraw'
        rw [← pure_eq_ok.mp hfinding, ← pure_eq_ok.mp hfinding']
        exact ⟨rfl, rfl⟩
    · rw [hproximity'] at hy
      rw [hproximity] at hy'
      cases hy
      cases hy'
      exact .refl _

/-! Rows found again -/

variable {σ : Type} [Outside σ] {f : Query → Answer} {connected : Bool}

private theorem settles_collect (queries : List String) :
    Settles (σ := σ) f connected (collect queries)
      (.ok (queries.flatMap fun q => Job.fetched f connected ⟨q, []⟩)) := by
  induction queries with
  | nil => exact Job.settles_pure []
  | cons q queries ih =>
    rw [collect]
    refine Job.settles_bind_ok (Job.settles_recover_ask q []) ?_
    exact Job.settles_bind_ok ih (Job.settles_pure _)

private theorem settles_findIndex :
    Settles (σ := σ) f connected findIndex
      (chooseIndex .null (Job.fetched f connected ⟨textIndexes, []⟩)) :=
  Job.settles_bind_ok (Job.settles_recover_ask textIndexes []) (Job.settles_lift _)

private theorem relates_gather (hclues : clues.Keyed) (hs : Text.lower s ∈ clues.map Prod.fst)
    {rows again : List Row} (hagain : ∀ row ∈ again, row ∈ rows) :
    Relates (σ := σ) (SeeAlike f connected)
      (fun groups groups' => List.Forall₂ SameEvidence groups groups' ∧ Distinct groups)
      (gather clues rows [] []) (gather (clues.add s) (rows ++ again) [] []) := by
  have hask (text : String) (params : Fields) : Relates (SeeAlike f connected) Eq
      (Job.ask (σ := σ) text params) (Job.ask text params) :=
    (Job.settles_ask text params).relates_self
  have hstart : Abreast (Respelled clues s) {} {} := ⟨rfl, .nil⟩
  have hrespelled := relates_foldlM_advance (mirrors_respelled hclues s) hask
    (List.forall₂_same.mpr fun row (_ : row ∈ rows) => rfl) hstart
  have habsorbed := hrespelled.ensuring (ensures_absorbed orderly_nil rows)
    (ensures_absorbed orderly_nil rows) fun _ _ hw => hw
  rw [Clues.add_eq_respelled hclues hs, gather_eq clues rows {}, gather_eq _ (rows ++ again) {},
    List.foldlM_append, bind_assoc]
  refine Job.relates_bind habsorbed fun t t' ht => ?_
  obtain ⟨habreast, ⟨horderly, -⟩, -, -, hrows⟩ := ht
  obtain ⟨t'', hsettles, hunmoved⟩ := settles_foldlM_again fun row hrow => hrows row (hagain row hrow)
  refine (Job.settles_pure t.groups).relates
    (Job.settles_bind_ok hsettles (Job.settles_pure t''.groups)) (.ok ⟨?_, horderly.distinct⟩)
  exact forall₂_comp (R := Respelled clues s) (S := Unmoved) (fun _ _ _ h h' => h.sameEvidence h')
    habreast.groups hunmoved.groups

/-! Runs -/

/-- The graph answers each query for the one clue as it answers that for the other. -/
def AnsweredAlike (f : Query → Answer) (o : Options) (a b : Value) : Prop :=
  ∀ index loose queries queries', clueQueries index loose o a = .ok queries →
    clueQueries index loose o b = .ok queries' →
    List.Forall₂ (fun q q' => f ⟨q, []⟩ = f ⟨q', []⟩) queries queries'

/-- The two results are made of findings side by side, each of another group. -/
def RankedAs (R : Finding → Finding → Prop) (r r' : List Finding × Value) : Prop :=
  ∃ found found', r.1 = Finding.rank found ∧ r'.1 = Finding.rank found' ∧
    List.Forall₂ R found found' ∧ (found.map Finding.group).Nodup

private theorem get_of_clueValue (h : clueValue a = .ok s) : a.get "value" = .ok (.text s) := by
  obtain ⟨v, hv, hs⟩ := bind_eq_ok.mp h
  obtain rfl := Value.asText_eq_ok hs
  cases a with
  | record fields =>
    unfold Value.item at hv
    dsimp only at hv
    cases hlookup : fields.lookup "value" with
    | none =>
      rw [hlookup] at hv
      cases hv
    | some w =>
      rw [hlookup] at hv
      cases hv
      change Except.ok ((fields.lookup "value").getD .null) = _
      rw [hlookup]
      rfl
  | _ => cases hv

private theorem answeredAlike_of_value {b : Value} (ha : clueValue a = .ok s) (hb : clueValue b = .ok s)
    (f : Query → Answer) (o : Options) : AnsweredAlike f o a b := by
  intro index loose queries queries' h h'
  have hsame : clueQueries index loose o a = clueQueries index loose o b := by
    unfold clueQueries
    rw [get_of_clueValue ha, get_of_clueValue hb]
  rw [hsame, h'] at h
  cases h
  exact List.forall₂_same.mpr fun _ _ => rfl

theorem exists_clueQueries {b : Value} {t : String} (hs : clueValue a = .ok s) (ht : clueValue b = .ok t)
    {index : Value} {loose : ℤ} {o : Options} {queries : List String}
    (h : clueQueries index loose o b = .ok queries) :
    queries ≠ [] ∧ ∃ queries', clueQueries index loose o a = .ok queries' := by
  unfold clueQueries at h ⊢
  rw [get_of_clueValue ht] at h
  rw [get_of_clueValue hs]
  obtain ⟨-, ⟨⟩, h⟩ := bind_eq_ok.mp h
  obtain ⟨depth, hdepth, h⟩ := bind_eq_ok.mp h
  rw [hdepth]
  constructor
  · rw [← pure_eq_ok.mp h]
    exact nofun
  · exact ⟨_, rfl⟩

variable {items : List Value} {a b : Value} {t : String}

private theorem agree_queries (hb : b ∈ items) (hs : clueValue a = .ok s) (ht : clueValue b = .ok t)
    (index : Value) (loose : ℤ) (o : Options) :
    Agree (fun queries queries' => ∃ q q', queries' = queries ++ [q'] ∧ q ∈ queries ∧ q ≠ [] ∧
        clueQueries index loose o a = .ok q' ∧ clueQueries index loose o b = .ok q)
      (items.mapM (clueQueries index loose o)) ((items ++ [a]).mapM (clueQueries index loose o)) := by
  rw [List.mapM_append]
  cases hall : items.mapM (clueQueries index loose o) with
  | error e => exact .error e e
  | ok queries =>
    obtain ⟨q, hq, hclue⟩ := exists_right_of_forall₂ (mapM_eq_ok.mp hall) hb
    obtain ⟨hne, q', hclue'⟩ := exists_clueQueries hs ht hclue
    have hlast : [a].mapM (clueQueries index loose o) = .ok [q'] :=
      mapM_eq_ok.mpr (.cons hclue' .nil)
    rw [hlast]
    exact .ok ⟨q, q', rfl, hq, hne, hclue', hclue⟩

private theorem agree_values (hb : b ∈ items) (hs : clueValue a = .ok s) (ht : clueValue b = .ok t) :
    Agree (fun values values' => values' = values ++ [s] ∧ t ∈ values)
      (items.mapM clueValue) ((items ++ [a]).mapM clueValue) := by
  rw [List.mapM_append]
  cases hall : items.mapM clueValue with
  | error e => exact .error e e
  | ok values =>
    obtain ⟨t', ht', hvalue⟩ := exists_right_of_forall₂ (mapM_eq_ok.mp hall) hb
    rw [ht] at hvalue
    cases hvalue
    have hlast : [a].mapM clueValue = .ok [s] := mapM_eq_ok.mpr (.cons hs .nil)
    rw [hlast]
    exact .ok ⟨rfl, ht'⟩

private theorem fetched_congr {q q' : String} (h : f ⟨q, []⟩ = f ⟨q', []⟩) :
    Job.fetched f connected ⟨q, []⟩ = Job.fetched f connected ⟨q', []⟩ := by
  unfold Job.fetched answered
  rw [h]

private theorem flatMap_fetched_congr {queries queries' : List String}
    (h : List.Forall₂ (fun q q' => f ⟨q, []⟩ = f ⟨q', []⟩) queries queries') :
    (queries.flatMap fun q => Job.fetched f connected ⟨q, []⟩) =
      queries'.flatMap fun q => Job.fetched f connected ⟨q, []⟩ := by
  induction h with
  | nil => rfl
  | cons hq _ ih => rw [List.flatMap_cons, List.flatMap_cons, fetched_congr hq, ih]

private theorem collect_repeated {queries : List (List String)} {q q' : List String} (hq : q ∈ queries)
    (halike : List.Forall₂ (fun q q' => f ⟨q, []⟩ = f ⟨q', []⟩) q' q) :
    Relates (σ := σ) (SeeAlike f connected)
      (fun rows rows' => ∃ again, rows' = rows ++ again ∧ ∀ row ∈ again, row ∈ rows)
      (collect queries.flatten) (collect (queries.flatten ++ q')) := by
  refine (settles_collect _).relates (settles_collect _) (.ok ⟨_, List.flatMap_append, ?_⟩)
  intro row hrow
  rw [flatMap_fetched_congr halike] at hrow
  obtain ⟨text, htext, hrow⟩ := List.mem_flatMap.mp hrow
  exact List.mem_flatMap.mpr ⟨text, List.mem_flatten.mpr ⟨q, hq, htext⟩, hrow⟩

/-- A search with a clue given again has the same clues, one more counted, and rows that it has already. -/
theorem relates_search_repeated (o : Options) (hb : b ∈ items) (hs : clueValue a = .ok s)
    (ht : clueValue b = .ok t) (hcase : Text.lower s = Text.lower t) (halike : AnsweredAlike f o a b) :
    Relates (σ := σ) (SeeAlike f connected)
      (fun found found' => ∃ loose values rows again,
        found = some ⟨loose, Clues.ofValues values, items.length, rows⟩ ∧
        found' = some ⟨loose, (Clues.ofValues values).add s, items.length + 1, rows ++ again⟩ ∧
        Text.lower s ∈ (Clues.ofValues values).map Prod.fst ∧ ∀ row ∈ again, row ∈ rows)
      (search (.list items) o) (search (.list (items ++ [a])) o) := by
  unfold search
  refine Job.relates_bind (Job.relates_lift_self _) ?_
  rintro loose _ rfl
  refine Job.relates_bind settles_findIndex.relates_self ?_
  rintro index _ rfl
  refine Job.relates_bind (R := fun xs ys => xs = items ∧ ys = items ++ [a])
    (Job.relates_lift (.ok ⟨rfl, rfl⟩)) ?_
  rintro given given' ⟨hgiven, hgiven'⟩
  rw [hgiven, hgiven']
  refine Job.relates_bind (Job.relates_lift (agree_queries hb hs ht index loose o)) ?_
  rintro queries _ ⟨q, q', rfl, hq, hne, hclue', hclue⟩
  rw [List.flatten_append, List.flatten_singleton]
  have hsome : ¬ queries.flatten.isEmpty = true := by
    rw [List.isEmpty_iff, List.flatten_eq_nil_iff]
    exact fun h => hne (h q hq)
  have hsome' : ¬ (queries.flatten ++ q').isEmpty = true := by
    rw [List.isEmpty_iff, List.append_eq_nil_iff]
    exact fun h => hsome (List.isEmpty_iff.mpr h.1)
  rw [if_neg hsome, if_neg hsome']
  refine Job.relates_bind (collect_repeated hq (halike index loose q' q hclue' hclue)) ?_
  rintro rows _ ⟨again, rfl, hagain⟩
  refine Job.relates_bind (Job.relates_lift (agree_values hb hs ht)) ?_
  rintro values _ ⟨rfl, hvalue⟩
  have hkeys : Text.lower s ∈ (Clues.ofValues values).map Prod.fst := by
    rw [hcase]
    exact Clues.lower_mem_ofValues hvalue
  have hclues : Clues.ofValues (values ++ [s]) = (Clues.ofValues values).add s := List.foldl_append
  rw [hclues, List.length_append]
  exact Job.relates_pure ⟨loose, values, rows, again, rfl, rfl, hkeys, hagain⟩

/-- A clue given again, whether or not with the same capitals, brings no other groups and no other
evidence. But it counts among the clues given: every group's share of them is taken of one more. -/
theorem ends_run_repeated (o : Options) (hb : b ∈ items) (hs : clueValue a = .ok s)
    (ht : clueValue b = .ok t) (hcase : Text.lower s = Text.lower t) (halike : AnsweredAlike f o a b) :
    Ends (σ := σ) (SeeAlike f connected) (RankedAs (Diluted items.length)) (run (.list items) o)
      (run (.list (items ++ [a])) o) := by
  unfold run runWith
  refine Job.ends_bind (relates_search_repeated o hb hs ht hcase halike) ?_
  rintro _ _ ⟨loose, values, rows, again, rfl, rfl, hkeys, hagain⟩
  dsimp only
  unfold assess
  rw [bind_assoc, bind_assoc]
  refine Job.ends_bind (relates_gather (Clues.keyed_ofValues values) hkeys hagain) ?_
  rintro groups groups' ⟨hevidence, hdistinct⟩
  have hcount : 0 < items.length := List.length_pos_of_mem hb
  refine Job.ends_bind (Job.relates_lift ((agree_mapM hevidence fun g g' h => h.ofGroup hcount).and_left
    fun found hfound => (groups_of_mapM_ofGroup hfound).symm ▸ hdistinct.nodup)) ?_
  rintro found found' ⟨hdiluted, hnodup⟩ w w' hw
  rcases ends_conclude (Clues.ofValues values) ((Clues.ofValues values).add s) o loose found found'
    w w' hw with hleft | hright | hagree
  · exact .inl hleft
  · exact .inr (.inl hright)
  · refine .inr (.inr (hagree.mono fun r r' hr => ?_))
    exact ⟨found, found', hr.1, hr.2, hdiluted, hnodup⟩

def remcosAnswers (q : Query) : Answer :=
  if q.params.isEmpty then
    .rows [[("label", .text "APT1"), ("type", .text "ThreatGroup"), ("dist", .int 1),
      ("path_nodes", .list [.record [("name", .text "Remcos"), ("labels", .list [.text "Malware"])]])]]
  else .rows []

def remcos : Value :=
  .record [("type", .text "Malware"), ("value", .text "Remcos")]

def marks (found : List Finding) : List (Float × Float) :=
  found.map fun f => (f.score, f.percent)

/-- Given once, the clue makes seventy percent; given twice, forty. -/
theorem ends_run_repeated_remcos :
    ∃ r r', (outcome (run (.list [remcos]) {}) ({ outside := ⟨remcosAnswers⟩ } : World Tabulated)).1 =
        .ok r ∧
      (outcome (run (.list [remcos, remcos]) {}) ({ outside := ⟨remcosAnswers⟩ } : World Tabulated)).1 =
        .ok r' ∧
      RankedAs (Diluted 1) r r' ∧ marks r.1 = [(0.7, 70.0)] ∧ marks r'.1 = [(0.4, 40.0)] := by
  have hsees : Sees remcosAnswers true ({ outside := ⟨remcosAnswers⟩ } : World Tabulated) :=
    ⟨answering_tabulated remcosAnswers, rfl⟩
  have hvalue : clueValue remcos = .ok "Remcos" := rfl
  have hends : Ends (σ := Tabulated) (SeeAlike remcosAnswers true) (RankedAs (Diluted 1))
      (run (.list [remcos]) {}) (run (.list [remcos, remcos]) {}) :=
    ends_run_repeated {} (List.mem_singleton_self remcos) hvalue hvalue rfl
      (answeredAlike_of_value hvalue hvalue remcosAnswers {})
  have hboth := hends _ _ ⟨hsees, hsees⟩
  have honce : (outcome (run (.list [remcos]) {})
      ({ outside := ⟨remcosAnswers⟩ } : World Tabulated)).1.toOption.map (marks ·.1) =
        some [(0.7, 70.0)] := by
    decide +kernel
  have htwice : (outcome (run (.list [remcos, remcos]) {})
      ({ outside := ⟨remcosAnswers⟩ } : World Tabulated)).1.toOption.map (marks ·.1) =
        some [(0.4, 40.0)] := by
    decide +kernel
  generalize (outcome (run (.list [remcos]) {})
    ({ outside := ⟨remcosAnswers⟩ } : World Tabulated)).1 = once at honce hboth ⊢
  generalize (outcome (run (.list [remcos, remcos]) {})
    ({ outside := ⟨remcosAnswers⟩ } : World Tabulated)).1 = twice at htwice hboth ⊢
  rcases hboth with rfl | rfl | hagree
  · cases honce
  · cases htwice
  · cases hagree with
    | ok hranked => exact ⟨_, _, rfl, rfl, hranked, Option.some.inj honce, Option.some.inj htwice⟩
    | error _ _ => cases honce

end ThreatAtlas.Correlation
