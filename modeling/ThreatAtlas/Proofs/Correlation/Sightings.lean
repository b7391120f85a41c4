import ThreatAtlas.Correlation.Group
import ThreatAtlas.Proofs.Failure
import ThreatAtlas.Proofs.Value

/-!
# Sightings of groups

Rows lead to groups, and every time a group is sighted its record grows. What the record comes to
hold is described by the set of all sightings: the least distance, the clues and the shared nodes on
the paths, whether an incident is named. So the findings made from it do not depend on the order.
-/

namespace ThreatAtlas.Correlation

/-- A row leads to a group: how far away it is and which nodes lie between. -/
structure Sighting where
  name : Value
  distance : Int
  path : List PathNode

def closer : Value → Int → Value
  | .int d, e => .int (min d e)
  | v, _ => v

theorem lesser_int (d e : Int) : (Value.int d).lesser (.int e) = .ok (closer (.int d) e) := by
  have hless : (Value.int e).less (.int d) = .ok (decide (e < d)) := by
    simp [Value.less, Value.asInt?]
  unfold Value.lesser
  rw [hless, closer]
  by_cases h : e < d
  · rw [decide_eq_true h, min_eq_right (le_of_lt h)]
    rfl
  · rw [decide_eq_false h, min_eq_left (not_lt.mp h)]
    rfl

def Group.sighted (clues : Clues) (s : Sighting) (g : Group) : Group :=
  { g with nearest := closer g.nearest s.distance }.absorb clues s.path

def enrol (groups : List Group) (name : Value) : List Group :=
  if groups.any (·.name == name) then groups else groups ++ [{ name := name }]

def record (clues : Clues) (groups : List Group) (s : Sighting) : List Group :=
  (enrol groups s.name).map fun g => if g.name == s.name then g.sighted clues s else g

/-- Two sightings count for one group only if they give it one name. -/
def TellsApart (sightings : List Sighting) : Prop :=
  ∀ s ∈ sightings, ∀ t ∈ sightings, (s.name == t.name) = true ↔ s.name = t.name

variable {xs : List String} {name : Value} {s : Sighting} {g : Group} {groups : List Group}

theorem mem_foldl_insertNew {ys : List String} {x : String} :
    x ∈ ys.foldl insertNew xs ↔ x ∈ xs ∨ x ∈ ys := by
  induction ys generalizing xs with
  | nil => simp
  | cons y ys ih =>
    rw [List.foldl_cons, ih, insertNew, List.mem_cons]
    split
    case isTrue h =>
      have hy : y ∈ xs := by simpa using h
      constructor
      · tauto
      · rintro (hx | rfl | hx)
        · exact .inl hx
        · exact .inl hy
        · exact .inr hx
    case isFalse => simp only [List.mem_append, List.mem_singleton, or_assoc]

theorem nodup_foldl_insertNew (h : xs.Nodup) (ys : List String) : (ys.foldl insertNew xs).Nodup := by
  induction ys generalizing xs with
  | nil => exact h
  | cons y ys ih =>
    refine ih ?_
    unfold insertNew
    split
    · exact h
    case isFalse hnew =>
      have hy : y ∉ xs := by simpa using hnew
      exact List.nodup_append.mpr ⟨h, List.nodup_singleton y, by
        rintro x hx z hz rfl
        rw [List.mem_singleton] at hz
        exact hy (hz ▸ hx)⟩

def Seen (sightings : List Sighting) (name : Value) (p : Sighting → Prop) : Prop :=
  ∃ s ∈ sightings, s.name = name ∧ p s

private theorem seen_append {sightings : List Sighting} {p : Sighting → Prop} :
    Seen (sightings ++ [s]) name p ↔ Seen sightings name p ∨ s.name = name ∧ p s := by
  simp only [Seen, List.mem_append, List.mem_singleton, or_and_right, exists_or, exists_eq_left]

/-- The record of a group says what all sightings of it say. -/
structure Describes (clues : Clues) (sightings : List Sighting) (g : Group) : Prop where
  nearest : ∃ d, g.nearest = .int d ∧ d ≤ 999 ∧ ¬ Seen sightings g.name (·.distance < d) ∧
    (d = 999 ∨ Seen sightings g.name (·.distance = d))
  distinctHits : g.hits.Nodup
  hits : ∀ x, x ∈ g.hits ↔ Seen sightings g.name (∃ n ∈ ·.path, x ∈ clueHits clues n.name)
  distinctShared : g.shared.Nodup
  shared : ∀ x, x ∈ g.shared ↔
    Seen sightings g.name (∃ n ∈ ·.path, isShared clues g.name n = true ∧ n.name = x)
  incident : g.namesIncident = true ↔
    Seen sightings g.name (∃ n ∈ ·.path, Text.contains "Incident" n.name = true)

variable {clues : Clues} {sightings : List Sighting}

private theorem describes_new (h : ∀ p, ¬ Seen sightings name p) : Describes clues sightings { name } where
  nearest := ⟨999, rfl, le_rfl, h _, .inl rfl⟩
  distinctHits := List.nodup_nil
  hits _ := ⟨nofun, fun hseen => absurd hseen (h _)⟩
  distinctShared := List.nodup_nil
  shared _ := ⟨nofun, fun hseen => absurd hseen (h _)⟩
  incident := ⟨nofun, fun hseen => absurd hseen (h _)⟩

private theorem Describes.of_other (h : Describes clues sightings g) (hs : s.name ≠ g.name) :
    Describes clues (sightings ++ [s]) g := by
  have hseen (p : Sighting → Prop) : Seen (sightings ++ [s]) g.name p ↔ Seen sightings g.name p := by
    rw [seen_append]
    tauto
  exact ⟨by simpa only [hseen] using h.nearest, h.distinctHits, by simpa only [hseen] using h.hits,
    h.distinctShared, by simpa only [hseen] using h.shared, by simpa only [hseen] using h.incident⟩

theorem namesIncident_absorb (clues : Clues) (g : Group) (path : List PathNode) :
    (g.absorb clues path).namesIncident = true ↔
      g.namesIncident = true ∨ ∃ n ∈ path, Text.contains "Incident" n.name = true := by
  simp [Group.namesIncident, Group.absorb, List.any_append]

private theorem Describes.sighted (h : Describes clues sightings g) (hs : s.name = g.name) :
    Describes clues (sightings ++ [s]) (g.sighted clues s) := by
  have hseen (p : Sighting → Prop) :
      Seen (sightings ++ [s]) (g.sighted clues s).name p ↔ Seen sightings g.name p ∨ p s := by
    rw [seen_append]
    exact or_congr_right (and_iff_right hs)
  refine ⟨?_, nodup_foldl_insertNew h.distinctHits _, ?_,
    nodup_foldl_insertNew h.distinctShared _, ?_, ?_⟩
  · obtain ⟨d, hd, hmost, hleast, hmet⟩ := h.nearest
    refine ⟨min d s.distance, ?_, (min_le_left _ _).trans hmost, ?_, ?_⟩
    · simp only [Group.sighted, Group.absorb, hd, closer]
    · rw [hseen, not_or]
      constructor
      · rintro ⟨t, ht, hname, hless⟩
        exact hleast ⟨t, ht, hname, hless.trans_le (min_le_left _ _)⟩
      · exact not_lt.mpr (min_le_right _ _)
    · rw [hseen]
      rcases le_total d s.distance with hle | hle
      · rw [min_eq_left hle]
        tauto
      · rw [min_eq_right hle]
        exact .inr (.inr rfl)
  · intro x
    rw [hseen, ← h.hits x]
    simp only [Group.sighted, Group.absorb, mem_foldl_insertNew, List.mem_flatMap]
  · intro x
    rw [hseen, show (g.sighted clues s).name = g.name from rfl, ← h.shared x]
    simp only [Group.sighted, Group.absorb, mem_foldl_insertNew, List.mem_map, List.mem_filter,
      and_assoc]
  · rw [hseen, ← h.incident]
    exact namesIncident_absorb clues _ s.path

/-- There is one record for each group that was sighted, and it describes the group. -/
structure Records (clues : Clues) (sightings : List Sighting) (groups : List Group) : Prop where
  distinct : (groups.map Group.name).Nodup
  complete : ∀ s ∈ sightings, ∃ g ∈ groups, g.name = s.name
  sighted : ∀ g ∈ groups, ∃ s ∈ sightings, s.name = g.name
  describes : ∀ g ∈ groups, Describes clues sightings g

private theorem records_nil : Records clues [] [] :=
  ⟨List.nodup_nil, nofun, nofun, nofun⟩

private theorem enrol_cases (hsame : ∀ g ∈ groups, (g.name == name) = true ↔ g.name = name) :
    (enrol groups name = groups ∧ ∃ g ∈ groups, g.name = name) ∨
      (enrol groups name = groups ++ [{ name := name }] ∧ ∀ g ∈ groups, g.name ≠ name) := by
  unfold enrol
  split
  case isTrue h =>
    obtain ⟨g, hg, hname⟩ := List.any_eq_true.mp h
    exact .inl ⟨rfl, g, hg, (hsame g hg).mp hname⟩
  case isFalse h =>
    refine .inr ⟨rfl, fun g hg hname => h ?_⟩
    exact List.any_eq_true.mpr ⟨g, hg, (hsame g hg).mpr hname⟩

private theorem Records.told (h : Records clues sightings groups) (htold : TellsApart (sightings ++ [s])) :
    ∀ g ∈ groups, (g.name == s.name) = true ↔ g.name = s.name := by
  intro g hg
  obtain ⟨t, ht, hname⟩ := h.sighted g hg
  rw [← hname]
  exact htold t (by simp [ht]) s (by simp)

private theorem Records.enrol (h : Records clues sightings groups) (htold : TellsApart (sightings ++ [s])) :
    ((enrol groups s.name).map Group.name).Nodup ∧
      (∃ g ∈ enrol groups s.name, g.name = s.name) ∧
      ∀ g, g ∈ groups ∨ g ∈ enrol groups s.name → g ∈ enrol groups s.name ∧
        (g ∈ groups ∨ g.name = s.name) ∧ Describes clues sightings g := by
  rcases enrol_cases (h.told htold) with ⟨henrol, hknown⟩ | ⟨henrol, hnew⟩
  · rw [henrol]
    exact ⟨h.distinct, hknown, fun g hg => by
      rw [or_self] at hg
      exact ⟨hg, .inl hg, h.describes g hg⟩⟩
  · have hunseen (p : Sighting → Prop) : ¬ Seen sightings s.name p := by
      rintro ⟨t, ht, hname, _⟩
      obtain ⟨g, hg, hgname⟩ := h.complete t ht
      exact hnew g hg (hgname.trans hname)
    rw [henrol]
    refine ⟨?_, ⟨{ name := s.name }, by simp, rfl⟩, ?_⟩
    · rw [List.map_append, List.nodup_append]
      refine ⟨h.distinct, List.nodup_singleton _, ?_⟩
      rintro _ hx _ hy rfl
      obtain ⟨g, hg, hname⟩ := List.mem_map.mp hx
      exact hnew g hg (hname.trans (List.mem_singleton.mp hy))
    · intro g hg
      have hcase : g ∈ groups ∨ g = { name := s.name } := by simpa [or_assoc] using hg
      rcases hcase with hg | rfl
      · exact ⟨by simp [hg], .inl hg, h.describes g hg⟩
      · exact ⟨by simp, .inr rfl, describes_new hunseen⟩

private theorem name_of_mem_record :
    (record clues groups s).map Group.name = (enrol groups s.name).map Group.name := by
  unfold record
  rw [List.map_map]
  apply List.map_congr_left
  intro g _
  dsimp only [Function.comp]
  split
  · rfl
  · rfl

private theorem Records.record (h : Records clues sightings groups) (htold : TellsApart (sightings ++ [s])) :
    Records clues (sightings ++ [s]) (record clues groups s) := by
  obtain ⟨hdistinct, hknown, henrol⟩ := h.enrol htold
  have hself : (s.name == s.name) = true := (htold s (by simp) s (by simp)).mpr rfl
  have hname (name : Value) : (∃ g ∈ Correlation.record clues groups s, g.name = name) ↔
      ∃ g ∈ Correlation.enrol groups s.name, g.name = name := by
    rw [← List.mem_map, ← List.mem_map, name_of_mem_record]
  refine ⟨by rwa [name_of_mem_record], ?_, ?_, ?_⟩
  · intro t ht
    rw [hname]
    rcases List.mem_append.mp ht with ht | ht
    · obtain ⟨g, hg, hgname⟩ := h.complete t ht
      exact ⟨g, (henrol g (.inl hg)).1, hgname⟩
    · rwa [List.mem_singleton.mp ht]
  · intro g' hg'
    obtain ⟨g, hg, hgname⟩ := (hname g'.name).mp ⟨g', hg', rfl⟩
    rw [← hgname]
    rcases (henrol g (.inr hg)).2.1 with hg | hg
    · obtain ⟨t, ht, htname⟩ := h.sighted g hg
      exact ⟨t, by simp [ht], htname⟩
    · exact ⟨s, by simp, hg.symm⟩
  · intro g' hg'
    obtain ⟨g, hg, rfl⟩ := List.mem_map.mp hg'
    obtain ⟨-, hcase, hdescribes⟩ := henrol g (.inr hg)
    by_cases hsame : g.name = s.name
    · rw [if_pos (by rw [hsame]; exact hself)]
      exact hdescribes.sighted hsame.symm
    · have hother : ¬ (g.name == s.name) = true := by
        rw [h.told htold g (hcase.resolve_right hsame)]
        exact hsame
      rw [if_neg hother]
      exact hdescribes.of_other (Ne.symm hsame)

theorem records_foldl (htold : TellsApart sightings) :
    Records clues sightings (sightings.foldl (record clues) []) := by
  have hgeneral (done rest : List Sighting) (groups : List Group) (hsplit : sightings = done ++ rest)
      (h : Records clues done groups) :
      Records clues sightings (rest.foldl (record clues) groups) := by
    induction rest generalizing done groups with
    | nil =>
      rw [List.append_nil] at hsplit
      rwa [hsplit]
    | cons s rest ih =>
      have htold' : TellsApart (done ++ [s]) := by
        intro t ht u hu
        have hsub : ∀ v ∈ done ++ [s], v ∈ sightings := by
          rw [hsplit]
          simp only [List.mem_append, List.mem_cons]
          tauto
        exact htold t (hsub t ht) u (hsub u hu)
      exact ih (done ++ [s]) (record clues groups s) (by simpa using hsplit) (h.record htold')
  exact hgeneral [] sightings [] rfl records_nil

private theorem not_decide_lt_iff {a b : String} : (!decide (b < a)) = true ↔ a ≤ b := by
  rw [Bool.not_eq_true', decide_eq_false_iff_not, String.not_lt]

theorem sortTexts_perm (xs : List String) : (sortTexts xs).Perm xs :=
  List.mergeSort_perm xs _

theorem pairwise_sortTexts (xs : List String) : (sortTexts xs).Pairwise (· ≤ ·) := by
  have hsorted : (sortTexts xs).Pairwise fun a b => (!decide (b < a)) = true := by
    apply List.pairwise_mergeSort
    · intro a b c hab hbc
      rw [not_decide_lt_iff] at *
      exact String.le_trans hab hbc
    · intro a b
      rw [Bool.or_eq_true, not_decide_lt_iff, not_decide_lt_iff]
      exact String.le_total a b
  exact hsorted.imp not_decide_lt_iff.mp

private theorem sortTexts_eq_of_perm {ys : List String} (h : xs.Perm ys) : sortTexts xs = sortTexts ys := by
  have hsame := (sortTexts_perm xs).trans (h.trans (sortTexts_perm ys).symm)
  refine List.Perm.eq_of_pairwise ?_ (pairwise_sortTexts xs) (pairwise_sortTexts ys) hsame
  exact fun a b _ _ hab hba => String.le_antisymm hab hba

/-- What counts of a group: its sets in order, and of its paths whether they name an incident. -/
def Group.normal (g : Group) : Group :=
  { g with
    paths := if g.namesIncident then [["Incident"]] else []
    hits := sortTexts g.hits
    shared := sortTexts g.shared }

private theorem sortTexts_sortTexts (xs : List String) : sortTexts (sortTexts xs) = sortTexts xs :=
  sortTexts_eq_of_perm (sortTexts_perm xs)

theorem length_sortTexts (xs : List String) : (sortTexts xs).length = xs.length :=
  List.length_mergeSort xs

private theorem namesIncident_normal (g : Group) : g.normal.namesIncident = g.namesIncident := by
  unfold Group.normal
  cases g.namesIncident with
  | true =>
    change [["Incident"]].any (·.any (Text.contains "Incident")) = true
    decide +kernel
  | false => rfl

def reported (count : Nat) (g : Group) : Except Failure Fields := do
  return (← Finding.ofGroup count g).toFields

private theorem reported_normal (count : Nat) (g : Group) : reported count g.normal = reported count g := by
  have hscore : g.normal.score count = g.score count := by
    unfold Group.score Group.breadth Group.sharing
    rw [namesIncident_normal]
    simp only [Group.normal, length_sortTexts]
  unfold reported Finding.ofGroup
  rw [hscore]
  cases g.score count with
  | error e => rfl
  | ok raw => simp [Finding.toFields, Finding.matchesText, Finding.evidence, Group.normal,
      sortTexts_sortTexts]

/-- Two descriptions of a group by the same sightings say the same. -/
theorem Describes.normal_eq {sightings' : List Sighting} {g' : Group}
    (hsame : ∀ s, s ∈ sightings ↔ s ∈ sightings') (h : Describes clues sightings g)
    (h' : Describes clues sightings' g') (hname : g.name = g'.name) : g.normal = g'.normal := by
  have hseen (p : Sighting → Prop) : Seen sightings' g'.name p ↔ Seen sightings g.name p := by
    simp only [Seen, hsame, hname]
  have hnearest : g.nearest = g'.nearest := by
    obtain ⟨d, hd, hmost, hleast, hmet⟩ := h.nearest
    obtain ⟨d', hd', hmost', hleast', hmet'⟩ := h'.nearest
    rw [hseen] at hleast' hmet'
    have hle {a b : Int} (hb : b ≤ 999) (hleast : ¬ Seen sightings g.name (·.distance < b))
        (hmet : a = 999 ∨ Seen sightings g.name (·.distance = a)) : b ≤ a := by
      rcases hmet with rfl | ⟨s, hs, hsname, rfl⟩
      · exact hb
      · exact not_lt.mp fun hless => hleast ⟨s, hs, hsname, hless⟩
    rw [hd, hd', le_antisymm (hle hmost hleast hmet') (hle hmost' hleast' hmet)]
  have hhits : g.hits.Perm g'.hits := by
    rw [List.perm_ext_iff_of_nodup h.distinctHits h'.distinctHits]
    intro x
    rw [h.hits, h'.hits, hseen]
  have hshared : g.shared.Perm g'.shared := by
    rw [List.perm_ext_iff_of_nodup h.distinctShared h'.distinctShared]
    intro x
    rw [h.shared, h'.shared, hseen, hname]
  have hincident : g.namesIncident = g'.namesIncident := by
    rw [Bool.eq_iff_iff, h.incident, h'.incident, hseen]
  unfold Group.normal
  rw [hname, hnearest, hincident, sortTexts_eq_of_perm hhits, sortTexts_eq_of_perm hshared]

theorem Records.nodup_normal (h : Records clues sightings groups) : (groups.map Group.normal).Nodup := by
  apply List.Nodup.of_map Group.name
  rw [List.map_map]
  exact h.distinct

/-- The records of the same sightings, in whatever order these came, hold the same. -/
theorem Records.perm_normal {sightings' : List Sighting} {groups' : List Group}
    (hsame : ∀ s, s ∈ sightings ↔ s ∈ sightings') (h : Records clues sightings groups)
    (h' : Records clues sightings' groups') : (groups.map Group.normal).Perm (groups'.map Group.normal) := by
  have hsub {xs ys : List Sighting} {gs hs : List Group} (hsame : ∀ s, s ∈ xs ↔ s ∈ ys)
      (h : Records clues xs gs) (h' : Records clues ys hs) {n : Group}
      (hn : n ∈ gs.map Group.normal) : n ∈ hs.map Group.normal := by
    obtain ⟨g, hg, rfl⟩ := List.mem_map.mp hn
    obtain ⟨s, hs, hsname⟩ := h.sighted g hg
    obtain ⟨g', hg', hname⟩ := h'.complete s ((hsame s).mp hs)
    refine List.mem_map.mpr ⟨g', hg', ?_⟩
    have hnames := hsname.symm.trans hname.symm
    exact ((h.describes g hg).normal_eq hsame (h'.describes g' hg') hnames).symm
  rw [List.perm_ext_iff_of_nodup h.nodup_normal h'.nodup_normal]
  intro n
  exact ⟨hsub hsame h h', hsub (fun s => (hsame s).symm) h' h⟩

private theorem mapM_reported (count : Nat) (groups : List Group) :
    (groups.map Group.normal).mapM (reported count) =
      (groups.mapM (Finding.ofGroup count)).map (List.map Finding.toFields) := by
  induction groups with
  | nil => rfl
  | cons g groups ih =>
    rw [List.map_cons, List.mapM_cons, List.mapM_cons, reported_normal, ih]
    unfold reported
    cases Finding.ofGroup count g with
    | error e => rfl
    | ok f => cases groups.mapM (Finding.ofGroup count) <;> rfl

/-- Groups that hold the same are reported with the same fields, if they can be. -/
theorem findings_perm {count : Nat} {groups' : List Group} {findings : List Finding}
    (hperm : (groups.map Group.normal).Perm (groups'.map Group.normal))
    (h : groups.mapM (Finding.ofGroup count) = .ok findings) :
    ∃ findings', groups'.mapM (Finding.ofGroup count) = .ok findings' ∧
      (findings.map Finding.toFields).Perm (findings'.map Finding.toFields) := by
  have hreported : (groups.map Group.normal).mapM (reported count) =
      .ok (findings.map Finding.toFields) := by
    rw [mapM_reported, h]
    rfl
  obtain ⟨fields, hfields, hsame⟩ := mapM_perm hperm hreported
  rw [mapM_reported] at hfields
  cases hfindings : groups'.mapM (Finding.ofGroup count) with
  | error e =>
    rw [hfindings] at hfields
    cases hfields
  | ok findings' =>
    rw [hfindings] at hfields
    cases hfields
    exact ⟨findings', rfl, hsame⟩

end ThreatAtlas.Correlation
