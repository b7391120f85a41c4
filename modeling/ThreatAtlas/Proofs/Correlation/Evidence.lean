import ThreatAtlas.Proofs.Correlation.Leads
import ThreatAtlas.Proofs.Correlation.Ranking
import ThreatAtlas.Proofs.Text.Case

/-!
# Evidence

The clues that a finding lists are those whose values meet a node on the way to the group, each in the
spelling given last; the shared nodes are those on the way that are labelled as knowledge and meet no
clue. A score is raised when a node on the way has a name with "Incident" in it, whatever its labels.
-/

namespace ThreatAtlas.Correlation

open Job (Returns)

/-! Clues -/

/-- The value is given, and not given again in any spelling after that. -/
def LastSpelling (values : List String) (v : String) : Prop :=
  ∃ before after, values = before ++ v :: after ∧ ∀ u ∈ after, Text.lower u ≠ Text.lower v

variable {values : List String} {v : Value} {leads : Row → Value → Prop} {count : ℕ}

private theorem lastSpelling_append_singleton {u v : String} :
    LastSpelling (values ++ [u]) v ↔ v = u ∨ LastSpelling values v ∧ Text.lower v ≠ Text.lower u := by
  constructor
  · intro h
    obtain ⟨before, after, hsplit, hlast⟩ := h
    rcases List.eq_nil_or_concat after with rfl | ⟨after, last, rfl⟩
    · obtain ⟨-, hv⟩ := List.append_inj' hsplit rfl
      exact .inl (List.cons.inj hv).1.symm
    · rw [List.concat_eq_append, ← List.cons_append, ← List.append_assoc] at hsplit
      obtain ⟨rfl, hu⟩ := List.append_inj' hsplit rfl
      have hlast' := hlast last (by simp)
      rw [← (List.cons.inj hu).1] at hlast'
      exact .inr ⟨⟨before, after, rfl, fun x hx => hlast x (by simp [hx])⟩, hlast'.symm⟩
  · intro h
    rcases h with rfl | ⟨⟨before, after, rfl, hlast⟩, hne⟩
    · exact ⟨values, [], rfl, nofun⟩
    · refine ⟨before, after ++ [u], by simp, fun x hx => ?_⟩
      rcases List.mem_append.mp hx with hx | hx
      · exact hlast x hx
      · rw [List.mem_singleton.mp hx]
        exact hne.symm

namespace Clues

theorem mem_add_iff {clues : Clues} (h : (clues.map Prod.fst).Nodup) {v : String} {e : String × String} :
    e ∈ clues.add v ↔ e = (Text.lower v, v) ∨ e ∈ clues ∧ e.1 ≠ Text.lower v := by
  induction clues with
  | nil => simp [add]
  | cons first rest ih =>
    obtain ⟨low, old⟩ := first
    rw [List.map_cons, List.nodup_cons] at h
    rw [add]
    by_cases hlow : low = Text.lower v
    · -- the other clues have other keys, so they all stay
      have hrest : e ∈ rest → e.1 ≠ Text.lower v := by
        intro he hkey
        exact h.1 (List.mem_map.mpr ⟨e, he, hkey.trans hlow.symm⟩)
      rw [if_pos (beq_iff_eq.mpr hlow), List.mem_cons, List.mem_cons, hlow]
      constructor
      · rintro (rfl | he)
        · exact .inl rfl
        · exact .inr ⟨.inr he, hrest he⟩
      · rintro (rfl | ⟨rfl | he, hkey⟩)
        · exact .inl rfl
        · exact absurd rfl hkey
        · exact .inr he
    · rw [if_neg (by simpa using hlow), List.mem_cons, List.mem_cons, ih h.2]
      constructor
      · rintro (rfl | rfl | he)
        · exact .inr ⟨.inl rfl, hlow⟩
        · exact .inl rfl
        · exact .inr ⟨.inr he.1, he.2⟩
      · rintro (rfl | ⟨rfl | he, hkey⟩)
        · exact .inr (.inl rfl)
        · exact .inl rfl
        · exact .inr (.inr ⟨he, hkey⟩)

/-- The clues are the values in the spelling given last, each under its lower case form. -/
theorem mem_ofValues_iff {values : List String} {e : String × String} :
    e ∈ ofValues values ↔ e.1 = Text.lower e.2 ∧ LastSpelling values e.2 := by
  induction values using List.reverseRecOn with
  | nil => simp [ofValues, LastSpelling]
  | append_singleton values u ih =>
    have hadd : ofValues (values ++ [u]) = (ofValues values).add u := by
      simp [ofValues, List.foldl_append]
    rw [hadd, mem_add_iff (keyed_ofValues values).nodup, ih, lastSpelling_append_singleton]
    obtain ⟨key, v⟩ := e
    simp only [Prod.mk.injEq]
    constructor
    · rintro (⟨rfl, rfl⟩ | ⟨⟨rfl, hlast⟩, hne⟩)
      · exact ⟨rfl, .inl rfl⟩
      · exact ⟨rfl, .inr ⟨hlast, hne⟩⟩
    · rintro ⟨rfl, rfl | ⟨hlast, hne⟩⟩
      · exact .inl ⟨rfl, rfl⟩
      · exact .inr ⟨⟨rfl, hlast⟩, hne⟩

end Clues

/-- Ignoring upper and lower case, one of the texts contains the other. -/
def Touches (a b : String) : Prop :=
  (Text.lower a).toList <:+: (Text.lower b).toList ∨ (Text.lower b).toList <:+: (Text.lower a).toList

theorem overlap_lower_iff {a b : String} : overlap (Text.lower a) (Text.lower b) = true ↔ Touches a b := by
  rw [overlap, Bool.or_eq_true, Text.contains_iff_infix, Text.contains_iff_infix, Touches]

private theorem touches_empty (a : String) : Touches a "" := by
  right
  rw [Text.lower_eq_empty_iff.mpr rfl]
  exact List.nil_infix

private theorem mem_clueHits_ofValues {name x : String} : x ∈ clueHits (.ofValues values) name ↔
      LastSpelling values x ∧ x ≠ "" ∧ name ≠ "" ∧ Touches x name := by
  have hempty (s : String) : (!(Text.lower s).isEmpty) = true ↔ s ≠ "" := by
    rw [Bool.not_eq_true', Bool.eq_false_iff, ne_eq, String.isEmpty_iff, Text.lower_eq_empty_iff]
  unfold clueHits
  rw [List.mem_map]
  constructor
  · rintro ⟨e, he, rfl⟩
    rw [List.mem_filter, Bool.and_eq_true, Bool.and_eq_true, Clues.mem_ofValues_iff] at he
    obtain ⟨⟨hkey, hlast⟩, ⟨hvalue, hname⟩, htouches⟩ := he
    rw [hkey] at hvalue htouches
    exact ⟨hlast, (hempty _).mp hvalue, (hempty _).mp hname, overlap_lower_iff.mp htouches⟩
  · rintro ⟨hlast, hvalue, hname, htouches⟩
    refine ⟨(Text.lower x, x), ?_, rfl⟩
    rw [List.mem_filter, Bool.and_eq_true, Bool.and_eq_true, Clues.mem_ofValues_iff]
    exact ⟨⟨rfl, hlast⟩, ⟨(hempty _).mpr hvalue, (hempty _).mpr hname⟩, overlap_lower_iff.mpr htouches⟩

private theorem isShared_ofValues {group : Value} {node : PathNode} :
    isShared (.ofValues values) group node = true ↔ node.isClue = true ∧
      (∀ v ∈ values, ¬ Touches v node.name) ∧ group ≠ .text node.name := by
  have hany : (∃ e ∈ Clues.ofValues values, overlap e.1 (Text.lower node.name) = true) ↔
      ∃ v ∈ values, Touches v node.name := by
    constructor
    · rintro ⟨e, he, htouches⟩
      obtain ⟨hkey, before, after, rfl, -⟩ := Clues.mem_ofValues_iff.mp he
      rw [hkey, overlap_lower_iff] at htouches
      exact ⟨e.2, by simp, htouches⟩
    · rintro ⟨v, hv, htouches⟩
      obtain ⟨e, he, hkey⟩ := List.mem_map.mp (Clues.lower_mem_ofValues hv)
      exact ⟨e, he, by rwa [hkey, overlap_lower_iff]⟩
  unfold isShared
  rw [Bool.and_eq_true, Bool.and_eq_true, Bool.not_eq_true', Bool.not_eq_true', Bool.eq_false_iff,
    Bool.eq_false_iff, ne_eq, ne_eq, Value.text_beq_iff, List.any_eq_true, and_assoc]
  refine and_congr_right fun _ => and_congr_left fun _ => (not_congr hany).trans ?_
  simp only [not_exists, not_and]

/-! Paths -/

structure Waypoint where
  name : String
  labels : List String

def sharedLabels : List String :=
  ["Malware", "Vulnerability", "AttackTechnique", "Indicator", "Tool"]

def textOf : Value → String
  | .text s => s
  | _ => ""

def itemsOf : Value → List Value
  | .list vs => vs
  | _ => []

def fieldOf (v : Value) (name : String) : Value :=
  match v with
  | .record fields => Fields.get fields name
  | _ => .null

def Waypoint.ofValue (v : Value) : Waypoint :=
  ⟨textOf (fieldOf v "name"), (itemsOf (fieldOf v "labels")).map textOf⟩

def wayOf (row : Row) : List Waypoint :=
  (itemsOf (row.get "path_nodes")).map Waypoint.ofValue

def isText : Value → Bool
  | .text _ => true
  | _ => false

def isTextOrNone : Value → Bool
  | .null => true
  | v => isText v

def isListOf (test : Value → Bool) : Value → Bool
  | .null => true
  | .list vs => vs.all test
  | _ => false

/-- A record with a name and a list of labels, which are texts; both may be left out. -/
def isNode : Value → Bool
  | .record fields =>
    isTextOrNone (Fields.get fields "name") && isListOf isText (Fields.get fields "labels")
  | _ => false

def tellsWay (row : Row) : Bool :=
  isListOf isNode (row.get "path_nodes")

def Waypoint.pathNode (n : Waypoint) : PathNode :=
  ⟨n.name, n.labels.any sharedLabels.contains⟩

private theorem eq_text_of_isText (h : isText v = true) : v = .text (textOf v) := by
  cases v with
  | text s => rfl
  | _ => cases h

private theorem elements_of_isListOf {test : Value → Bool} (h : isListOf test v = true) :
    (v.orElse (.list [])).elements = .ok (itemsOf v) ∧ ∀ x ∈ itemsOf v, test x = true := by
  cases v with
  | null => exact ⟨rfl, nofun⟩
  | list vs =>
    refine ⟨?_, List.all_eq_true.mp h⟩
    cases vs with
    | nil => rfl
    | cons x xs => rfl
  | _ => cases h

private theorem asText_of_isTextOrNone (h : isTextOrNone v = true) :
    (v.orElse (.text "")).asText "lower" = .ok (textOf v) := by
  cases v with
  | null => rfl
  | text s =>
    rw [Value.orElse_empty_text]
    rfl
  | _ => cases h

private theorem any_clueLabels_eq {l : Value} (h : isText l = true) :
    clueLabels.any (· == l) = sharedLabels.contains (textOf l) := by
  rw [eq_text_of_isText h, show clueLabels = sharedLabels.map .text from rfl, List.any_map,
    Bool.eq_iff_iff, List.any_eq_true, List.contains_iff_mem]
  simp [textOf]

private theorem pathNode_of_isNode (h : isNode v = true) :
    Correlation.pathNode v = .ok (Waypoint.ofValue v).pathNode := by
  cases v with
  | record fields =>
    rw [isNode, Bool.and_eq_true] at h
    obtain ⟨hlabels, htexts⟩ := elements_of_isListOf h.2
    have hhashable : (itemsOf (Fields.get fields "labels")).mapM Value.hashable =
        .ok (itemsOf (Fields.get fields "labels")) := by
      rw [mapM_eq_ok, List.forall₂_same]
      intro x hx
      rw [eq_text_of_isText (htexts x hx)]
      rfl
    have hlabelled : (itemsOf (Fields.get fields "labels")).any (fun l => clueLabels.any (· == l)) =
        ((itemsOf (Fields.get fields "labels")).map textOf).any sharedLabels.contains := by
      rw [List.any_map, Bool.eq_iff_iff, List.any_eq_true, List.any_eq_true]
      refine exists_congr fun l => and_congr_right fun hl => ?_
      rw [any_clueLabels_eq (htexts l hl)]
      rfl
    change ((Fields.get fields "name").orElse (.text "")).asText "lower" >>= _ = _
    rw [asText_of_isTextOrNone h.1]
    change ((Fields.get fields "labels").orElse (.list [])).elements >>= _ = _
    rw [hlabels]
    change List.mapM Value.hashable _ >>= _ = _
    rw [hhashable]
    change Except.ok _ = _
    rw [hlabelled]
    rfl
  | _ => cases h

private theorem pathOf_of_tellsWay {row : Row} (h : tellsWay row = true) :
    pathOf row = .ok ((wayOf row).map Waypoint.pathNode) := by
  obtain ⟨helements, hnodes⟩ := elements_of_isListOf h
  unfold pathOf
  rw [helements]
  change List.mapM Correlation.pathNode _ = _
  rw [mapM_eq_ok, wayOf, List.map_map, List.forall₂_map_right_iff, List.forall₂_same]
  exact fun v hv => pathNode_of_isNode (hnodes v hv)

/-- A row that leads to the group passes through the node. -/
def Passes (leads : Row → Value → Prop) (group : Value) (n : Waypoint) : Prop :=
  ∃ row name, leads row name ∧ (group == name) = true ∧ n ∈ wayOf row

private theorem exists_reaches_iff {group : Value} {p : PathNode → Prop}
    (hleads : ∀ row name, leads row name → tellsWay row = true) :
    (∃ path, Reaches leads group path ∧ ∃ n ∈ path, p n) ↔
      ∃ n, Passes leads group n ∧ p n.pathNode := by
  constructor
  · rintro ⟨path, ⟨row, name, hlead, hname, hpath⟩, n, hn, hp⟩
    rw [pathOf_of_tellsWay (hleads row name hlead), Except.ok.injEq] at hpath
    obtain ⟨m, hm, rfl⟩ := List.mem_map.mp (hpath ▸ hn)
    exact ⟨m, ⟨row, name, hlead, hname, hm⟩, hp⟩
  · rintro ⟨n, ⟨row, name, hlead, hname, hn⟩, hp⟩
    exact ⟨_, ⟨row, name, hlead, hname, pathOf_of_tellsWay (hleads row name hlead)⟩, n.pathNode,
      List.mem_map_of_mem hn, hp⟩

/-! Findings -/

/-- The finding lists the clues that meet a node on the way to its group, each in its last spelling, and
the nodes of knowledge on the way that meet no clue; of these it shows the first five. -/
structure ExactlyBacked (values : List String) (leads : Row → Value → Prop) (f : Finding) : Prop where
  sortedHits : f.hits.Pairwise (· < ·)
  hits : ∀ x, x ∈ f.hits ↔ LastSpelling values x ∧ x ≠ "" ∧
    ∃ n, Passes leads f.group n ∧ n.name ≠ "" ∧ Touches x n.name
  sortedShared : f.shared.Pairwise (· < ·)
  shared : ∀ x, x ∈ f.shared ↔ x ≠ "" ∧ f.group ≠ .text x ∧ (∀ v ∈ values, ¬ Touches v x) ∧
    ∃ n, Passes leads f.group n ∧ n.name = x ∧ ∃ l ∈ n.labels, l ∈ sharedLabels
  shownHits : f.hits ≠ [] → Fields.get f.toFields "matches" = .text (" | ".intercalate f.hits)
  shownShared : Fields.get f.toFields "evidence" = .text (", ".intercalate (f.shared.take 5))

theorem pairwise_lt_sortTexts {xs : List String} (h : xs.Nodup) : (sortTexts xs).Pairwise (· < ·) := by
  have hnodup : (sortTexts xs).Nodup := (sortTexts_perm xs).nodup_iff.mpr h
  refine ((pairwise_sortTexts xs).and hnodup).imp ?_
  intro a b hab
  exact lt_of_le_of_ne hab.1 hab.2

private theorem Relays.exactlyBacked {g : Group} {f : Finding} (h : Relays (.ofValues values) leads g)
    (hvalues : values ≠ []) (hleads : ∀ row name, leads row name → tellsWay row = true)
    (hf : Finding.ofGroup count g = .ok f) : ExactlyBacked values leads f := by
  obtain ⟨raw, -, hf⟩ := bind_eq_ok.mp hf
  rw [← pure_eq_ok.mp hf]
  refine ⟨pairwise_lt_sortTexts h.distinctHits, fun x => ?_, pairwise_lt_sortTexts h.distinctShared,
    fun x => ?_, fun hsome => congrArg Value.text (if_neg ?_), rfl⟩
  · rw [(sortTexts_perm g.hits).mem_iff, h.hits, exists_reaches_iff hleads]
    simp only [mem_clueHits_ofValues]
    constructor
    · rintro ⟨n, hpasses, hlast, hvalue, hname, htouches⟩
      exact ⟨hlast, hvalue, n, hpasses, hname, htouches⟩
    · rintro ⟨hlast, hvalue, n, hpasses, hname, htouches⟩
      exact ⟨n, hpasses, hlast, hvalue, hname, htouches⟩
  · rw [(sortTexts_perm g.shared).mem_iff, h.shared, exists_reaches_iff hleads]
    simp only [isShared_ofValues]
    have hlabelled (n : Waypoint) : n.pathNode.isClue = true ↔ ∃ l ∈ n.labels, l ∈ sharedLabels := by
      simp only [Waypoint.pathNode, List.any_eq_true, List.contains_iff_mem]
    constructor
    · rintro ⟨n, hpasses, ⟨hclue, hapart, hother⟩, rfl⟩
      refine ⟨?_, hother, hapart, n, hpasses, rfl, (hlabelled n).mp hclue⟩
      intro hempty
      obtain ⟨v, hv⟩ := List.exists_mem_of_ne_nil values hvalues
      exact hapart v hv (hempty ▸ touches_empty v)
    · rintro ⟨-, hother, hapart, n, hpasses, rfl, hclue⟩
      exact ⟨n, hpasses, ⟨(hlabelled n).mpr hclue, hapart, hother⟩, rfl⟩
  · rw [List.isEmpty_iff]
    exact hsome

/-! Runs -/

variable {σ : Type} [Outside σ]

def Resolved (artifacts : Value) (o : Options) (w : World σ) (row : Row) (name : Value) : Prop :=
  ∃ found w₁, Returns (search artifacts o) w (some found) w₁ ∧
    LeadsTo found.clues found.rows w₁ row name

def records (artifacts : Value) (o : Options) : Job σ (List Group) := do
  match ← search artifacts o with
  | none => return []
  | some found => gather found.clues found.rows [] []

variable {items : List Value} {o : Options} {w w' : World σ}

private theorem not_search_nil {found : Search} : ¬ Returns (search (.list []) o) w (some found) w' := by
  intro h
  unfold search at h
  rw [Job.returns_lift_bind] at h
  obtain ⟨loose, -, h⟩ := h
  obtain ⟨index, w₁, -, h⟩ := Job.returns_bind.mp h
  rw [Job.returns_lift_bind] at h
  obtain ⟨_, ⟨⟩, h⟩ := h
  rw [Job.returns_lift_bind] at h
  obtain ⟨_, ⟨⟩, h⟩ := h
  cases (Job.returns_pure.mp h).1

private theorem ledger_of_records {groups : List Group} (hvalues : items.mapM clueValue = .ok values)
    (h : Returns (records (.list items) o) w groups w') :
    Ledger (.ofValues values) (Resolved (.list items) o w) groups ∧ (groups ≠ [] → values ≠ []) := by
  obtain ⟨found?, w₁, hsearch, h⟩ := Job.returns_bind.mp h
  cases found? with
  | none =>
    obtain ⟨rfl, -⟩ := Job.returns_pure.mp h
    refine ⟨ledger_nil fun row name hlead => ?_, fun hne => absurd rfl hne⟩
    obtain ⟨found, w₂, hfound, -⟩ := hlead
    cases hsearch.symm.trans hfound
  | some found =>
    have hitems : items ≠ [] := by
      rintro rfl
      exact not_search_nil hsearch
    obtain ⟨_, values', ⟨⟩, -, hvalues', hclues⟩ := search_returns hitems hsearch
    cases hvalues.symm.trans hvalues'
    have hne : values ≠ [] := by
      rintro rfl
      exact hitems (List.length_eq_zero_iff.mp (mapM_eq_ok.mp hvalues).length_eq)
    dsimp only at h
    rw [gather_eq found.clues found.rows {}] at h
    obtain ⟨s, w₂, hrows, h⟩ := Job.returns_bind.mp h
    obtain ⟨rfl, -⟩ := Job.returns_pure.mp h
    refine ⟨?_, fun _ => hne⟩
    rw [← hclues]
    apply (ledger_of_returns hrows).congr
    intro row name
    constructor
    · exact fun hlead => ⟨found, w₁, hsearch, hlead⟩
    · rintro ⟨_, _, hfound, hlead⟩
      cases hsearch.symm.trans hfound
      exact hlead

private theorem run_returns {results : List Finding} {report : Value}
    (h : Returns (run (.list items) o) w (results, report) w') :
    ∃ values groups w₁ all, items.mapM clueValue = .ok values ∧
      Returns (records (.list items) o) w groups w₁ ∧
      groups.mapM (Finding.ofGroup items.length) = .ok all ∧ results = Finding.rank all := by
  rw [run_eq_runIn] at h
  obtain ⟨⟨ranked, _⟩, w₁, hrun, hresults⟩ := Job.returns_bind.mp h
  obtain ⟨hresults, -⟩ := Job.returns_pure.mp hresults
  rw [← (Prod.mk.inj hresults).1]
  unfold runIn at hrun
  obtain ⟨found?, w₂, hsearch, h⟩ := Job.returns_bind.mp hrun
  cases found? with
  | none =>
    obtain ⟨⟨⟩, -⟩ := Job.returns_pure.mp h
    have hitems : items = [] := by
      by_contra hne
      obtain ⟨_, _, ⟨⟩, -⟩ := search_returns hne hsearch
    refine ⟨[], [], w₂, [], by rw [hitems]; rfl, ?_, rfl, by simp [Finding.rank]⟩
    exact (Job.returns_bind_of_returns hsearch).mpr (Job.returns_pure.mpr ⟨rfl, rfl⟩)
  | some found =>
    have hitems : items ≠ [] := by
      rintro rfl
      exact not_search_nil hsearch
    obtain ⟨_, values, ⟨⟩, hcount, hvalues, -⟩ := search_returns hitems hsearch
    dsimp only at h
    obtain ⟨groups, w₃, hgroups, h⟩ := Job.returns_bind.mp h
    rw [Job.returns_lift_bind, hcount] at h
    obtain ⟨all, hall, h⟩ := h
    refine ⟨values, groups, w₃, all.map floating.finding, hvalues, ?_, ?_, ?_⟩
    · exact (Job.returns_bind_of_returns hsearch).mpr hgroups
    · rw [mapM_ofGroup_eq, hall]
      rfl
    · rw [rank_map_finding, concludeIn_returns h]

/-- Matches and evidence are exact. When the rows that lead to groups are well typed, there is one finding
for each group that is led to; it lists exactly the clues, in their last spelling, that meet a node on the
way to the group, and exactly the nodes of shared knowledge on the way. -/
theorem run_exactlyBacked {results : List Finding} {report : Value}
    (h : Returns (run (.list items) o) w (results, report) w')
    (hrows : ∀ row name, Resolved (.list items) o w row name → tellsWay row = true) :
    ∃ values all, items.mapM clueValue = .ok values ∧ results = Finding.rank all ∧
      (all.map Finding.group).Nodup ∧
      (∀ row name, Resolved (.list items) o w row name → ∃ f ∈ all, (f.group == name) = true) ∧
      ∀ f ∈ all, ExactlyBacked values (Resolved (.list items) o w) f := by
  obtain ⟨values, groups, w₁, all, hvalues, hgroups, hall, hresults⟩ := run_returns h
  obtain ⟨hledger, hne⟩ := ledger_of_records hvalues hgroups
  have hnames := groups_of_mapM_ofGroup hall
  refine ⟨values, all, hvalues, hresults, hnames ▸ hledger.distinct.nodup, fun row name hlead => ?_,
    fun f hf => ?_⟩
  · obtain ⟨g, hg, hname⟩ := hledger.complete row name hlead
    obtain ⟨f, hf, hsame⟩ := List.mem_map.mp (hnames ▸ List.mem_map_of_mem hg)
    exact ⟨f, hf, by rwa [hsame]⟩
  · obtain ⟨g, hg, hfound⟩ := exists_left_of_forall₂ (mapM_eq_ok.mp hall) hf
    exact (hledger.relays g hg).exactlyBacked (hne (List.ne_nil_of_mem hg)) hrows hfound

def findsWays (artifacts : Value) (o : Options) (w : World σ) : Bool :=
  match (Job.outcome (search artifacts o) w).1 with
  | .ok (some found) => found.rows.all tellsWay
  | _ => true

private theorem tellsWay_of_findsWays {artifacts : Value} (h : findsWays artifacts o w = true) (row : Row)
    (name : Value) (hlead : Resolved artifacts o w row name) : tellsWay row = true := by
  obtain ⟨found, w₁, hsearch, before, after, -, -, -, -, -, hrows, -⟩ := hlead
  unfold findsWays at h
  rw [show Job.outcome (search artifacts o) w = _ from hsearch] at h
  exact List.all_eq_true.mp h row (by simp [hrows])

def behindNodes (nodes : List (String × String)) (q : Query) : Answer :=
  if q.params.isEmpty then
    .rows [[("label", .text "APT1"), ("type", .text "ThreatGroup"), ("dist", .int 1),
      ("path_nodes", .list (nodes.map fun n =>
        .record [("name", .text n.1), ("labels", .list [.text n.2])]))]]
  else .rows []

def evilClue (spelling : String) : Value :=
  .record [("type", .text "Malware"), ("value", .text spelling)]

/-- Of two spellings the last is listed; the malware on the way is shared knowledge, the group is not. -/
theorem run_exactlyBacked_evil :
    let w : World Tabulated :=
      { outside := ⟨behindNodes [("evil.com", "Indicator"), ("Remcos", "Malware"), ("APT1", "Tool")]⟩ }
    let clues : Value := .list [evilClue "Evil", evilClue "EVIL"]
    ∃ results report w', Returns (run clues {}) w (results, report) w' ∧
      results.map (fun f => (f.hits, f.shared)) = [(["EVIL"], ["Remcos"])] ∧
      ∀ f ∈ results, ExactlyBacked ["Evil", "EVIL"] (Resolved clues {} w) f := by
  intro w clues
  have hlists : (Job.outcome (run clues {}) w).1.toOption.map
      (fun r => r.1.map fun f => (f.hits, f.shared)) = some [(["EVIL"], ["Remcos"])] := by
    decide +kernel
  have hways : findsWays clues {} w = true := by decide +kernel
  obtain ⟨⟨results, report⟩, w', hrun, hlists⟩ := Job.exists_returns_of_map hlists
  obtain ⟨values, all, hvalues, hranked, -, -, hbacked⟩ :=
    run_exactlyBacked hrun (tellsWay_of_findsWays hways)
  cases hvalues
  refine ⟨results, report, w', hrun, hlists, fun f hf => hbacked f ?_⟩
  exact mem_of_mem_rank (hranked ▸ hf)

/-! The factor for incidents -/

def Group.plainScore (g : Group) (count : ℕ) : Except Failure Float := do
  return combine weights (← proximity g.nearest) (g.breadth count) g.sharing false

/-- On the way to the group there is a node with "Incident" in its name. -/
def NamesIncident (leads : Row → Value → Prop) (group : Value) : Prop :=
  ∃ path, Reaches leads group path ∧ ∃ n ∈ path, "Incident".toList <:+: n.name.toList

/-- The finding has the score of the record, which is raised if an incident is named on the way. -/
structure RaisedByName (count : ℕ) (leads : Row → Value → Prop) (g : Group) (f : Finding) : Prop where
  group : f.group = g.name
  score : ∃ plain raw, g.plainScore count = .ok plain ∧ f.score = Number.round 3 raw ∧
    (NamesIncident leads g.name ∧ raw = plain * 1.15 ∨ ¬ NamesIncident leads g.name ∧ raw = plain)

private theorem Relays.raisedByName {clues : Clues} {g : Group} {f : Finding} (h : Relays clues leads g)
    (hf : Finding.ofGroup count g = .ok f) : RaisedByName count leads g f := by
  have hnames : g.namesIncident = true ↔ NamesIncident leads g.name := by
    rw [h.incident]
    simp only [Text.contains_iff_infix]
    rfl
  obtain ⟨raw, hraw, hf⟩ := bind_eq_ok.mp hf
  obtain ⟨x, hx, hraw⟩ := bind_eq_ok.mp hraw
  rw [← pure_eq_ok.mp hf]
  refine ⟨rfl, combine weights x (g.breadth count) g.sharing false, raw, ?_, rfl, ?_⟩
  · rw [Group.plainScore, hx]
    rfl
  · rw [← pure_eq_ok.mp hraw, ← hnames]
    cases g.namesIncident with
    | true => exact .inl ⟨rfl, rfl⟩
    | false => exact .inr ⟨Bool.false_ne_true, rfl⟩

/-- The factor for incidents follows the names on the way: a score is raised by 1.15 if and only if a row
that leads to the group passes through a node with "Incident" in its name. Labels count for nothing. -/
theorem run_raisedByName {results : List Finding} {report : Value}
    (h : Returns (run (.list items) o) w (results, report) w') :
    ∃ groups w₁ all, Returns (records (.list items) o) w groups w₁ ∧ results = Finding.rank all ∧
      all.map Finding.group = groups.map Group.name ∧
      ∀ f ∈ all, ∃ g ∈ groups, RaisedByName items.length (Resolved (.list items) o w) g f := by
  obtain ⟨values, groups, w₁, all, hvalues, hgroups, hall, hresults⟩ := run_returns h
  obtain ⟨hledger, -⟩ := ledger_of_records hvalues hgroups
  refine ⟨groups, w₁, all, hgroups, hresults, groups_of_mapM_ofGroup hall, fun f hf => ?_⟩
  obtain ⟨g, hg, hfound⟩ := exists_left_of_forall₂ (mapM_eq_ok.mp hall) hf
  exact ⟨g, hg, (hledger.relays g hg).raisedByName hfound⟩

/-- A node labelled as an incident raises no score; a tool with an incident in its name does. -/
theorem run_raisedByName_breach :
    let breach : World Tabulated := { outside := ⟨behindNodes [("Breach", "Incident")]⟩ }
    let tool : World Tabulated := { outside := ⟨behindNodes [("Incident Response Kit", "Tool")]⟩ }
    let clues : Value := .list [evilClue "evil"]
    (∃ results report w', Returns (run clues {}) breach (results, report) w' ∧
      marks results = [(0.1, 10.0)] ∧
      ∀ f ∈ results, ∃ g, RaisedByName 1 (Resolved clues {} breach) g f) ∧
    ∃ results report w', Returns (run clues {}) tool (results, report) w' ∧
      marks results = [(0.138, 13.8)] ∧
      ∀ f ∈ results, ∃ g, RaisedByName 1 (Resolved clues {} tool) g f := by
  intro breach tool clues
  have hraised (w : World Tabulated) {scores : List (Float × Float)}
      (hmarks : (Job.outcome (run clues {}) w).1.toOption.map (marks ·.1) = some scores) :
      ∃ results report w', Returns (run clues {}) w (results, report) w' ∧ marks results = scores ∧
        ∀ f ∈ results, ∃ g, RaisedByName 1 (Resolved clues {} w) g f := by
    obtain ⟨⟨results, report⟩, w', hrun, hmarks⟩ := Job.exists_returns_of_map hmarks
    obtain ⟨groups, w₁, all, -, hranked, -, hall⟩ := run_raisedByName hrun
    refine ⟨results, report, w', hrun, hmarks, fun f hf => ?_⟩
    obtain ⟨g, -, hg⟩ := hall f (mem_of_mem_rank (hranked ▸ hf))
    exact ⟨g, hg⟩
  constructor
  · apply hraised
    decide +kernel
  · apply hraised
    decide +kernel

end ThreatAtlas.Correlation
