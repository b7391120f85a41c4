import ThreatAtlas.Proofs.Correlation.Encounters

/-!
# What speaks for a group

When its turn comes, a row leads to names of groups. The record of a group holds what the paths of the
rows say that led to it, and nothing else; there is one record for each group that was led to.
-/

namespace ThreatAtlas.Correlation

open Job (Returns)

variable {σ : Type} [Outside σ]

/-- When its turn comes, after the rows before it, the row leads to the name. -/
def LeadsTo (clues : Clues) (rows : List Row) (w : World σ) (row : Row) (name : Value) : Prop :=
  ∃ before after s w₁ names seen w₂, rows = before ++ row :: after ∧
    Returns (before.foldlM (advance clues) {}) w s w₁ ∧
    Returns (groupsOf s.seen row) w₁ (names, seen) w₂ ∧ name ∈ names ∧ name.truthy = true

section

variable {clues : Clues} {rows : List Row} {w : World σ}

private theorem not_leadsTo_nil {row : Row} {name : Value} : ¬ LeadsTo clues [] w row name := by
  intro h
  obtain ⟨before, after, -, -, -, -, -, hsplit, -⟩ := h
  exact List.append_ne_nil_of_right_ne_nil before (List.cons_ne_nil row after) hsplit.symm

private theorem leadsTo_append_singleton {row : Row} {s : Progress} {w₁ w₂ : World σ} {names : List Value}
    {seen : Lookups} (hrows : Returns (rows.foldlM (advance clues) {}) w s w₁)
    (hnames : Returns (groupsOf s.seen row) w₁ (names, seen) w₂) (r : Row) (n : Value) :
    LeadsTo clues (rows ++ [row]) w r n ↔
      LeadsTo clues rows w r n ∨ r = row ∧ n ∈ names ∧ n.truthy = true := by
  constructor
  · intro h
    obtain ⟨before, after, s', w₁', names', seen', w₂', hsplit, hbefore, hrow, hmem, htruthy⟩ := h
    rcases List.eq_nil_or_concat after with rfl | ⟨after, last, rfl⟩
    · obtain ⟨rfl, hlast⟩ := List.append_inj' hsplit rfl
      cases hlast
      cases hrows.symm.trans hbefore
      cases hnames.symm.trans hrow
      exact .inr ⟨rfl, hmem, htruthy⟩
    · rw [List.concat_eq_append, ← List.cons_append, ← List.append_assoc] at hsplit
      obtain ⟨rfl, -⟩ := List.append_inj' hsplit rfl
      exact .inl ⟨before, after, s', w₁', names', seen', w₂', rfl, hbefore, hrow, hmem, htruthy⟩
  · intro h
    rcases h with h | ⟨rfl, hmem, htruthy⟩
    · obtain ⟨before, after, s', w₁', names', seen', w₂', rfl, hrest⟩ := h
      exact ⟨before, after ++ [row], s', w₁', names', seen', w₂', by simp, hrest⟩
    · exact ⟨rows, [], s, w₁, names, seen, w₂, rfl, hrows, hnames, hmem, htruthy⟩

end

def Reaches (leads : Row → Value → Prop) (group : Value) (path : List PathNode) : Prop :=
  ∃ row name, leads row name ∧ (group == name) = true ∧ pathOf row = .ok path

structure Relays (clues : Clues) (leads : Row → Value → Prop) (g : Group) : Prop where
  distinctHits : g.hits.Nodup
  hits : ∀ x, x ∈ g.hits ↔
    ∃ path, Reaches leads g.name path ∧ ∃ n ∈ path, x ∈ clueHits clues n.name
  distinctShared : g.shared.Nodup
  shared : ∀ x, x ∈ g.shared ↔
    ∃ path, Reaches leads g.name path ∧ ∃ n ∈ path, isShared clues g.name n = true ∧ n.name = x
  incident : g.namesIncident = true ↔
    ∃ path, Reaches leads g.name path ∧ ∃ n ∈ path, Text.contains "Incident" n.name = true

variable {clues : Clues} {leads leads' : Row → Value → Prop} {g g' : Group} {row : Row} {name : Value}
  {groups groups' : List Group} {w w' : World σ}

private theorem relays_new (h : ∀ path, ¬ Reaches leads name path) : Relays clues leads { name } := by
  have hnone (p : List PathNode → Prop) : ¬ ∃ path, Reaches leads name path ∧ p path := by
    intro hsome
    obtain ⟨path, hreaches, -⟩ := hsome
    exact h path hreaches
  exact ⟨List.nodup_nil, fun _ => ⟨nofun, fun hsome => absurd hsome (hnone _)⟩, List.nodup_nil,
    fun _ => ⟨nofun, fun hsome => absurd hsome (hnone _)⟩, nofun, fun hsome => absurd hsome (hnone _)⟩

private theorem Relays.of_other (h : Relays clues leads g)
    (hreaches : ∀ path, Reaches leads' g.name path ↔ Reaches leads g.name path) :
    Relays clues leads' g where
  distinctHits := h.distinctHits
  hits := by simpa only [hreaches] using h.hits
  distinctShared := h.distinctShared
  shared := by simpa only [hreaches] using h.shared
  incident := by simpa only [hreaches] using h.incident

private theorem Relays.sight (h : Relays clues leads g) (hsight : sight clues row g = .ok g')
    (hreaches : ∀ path, Reaches leads' g.name path ↔ Reaches leads g.name path ∨ pathOf row = .ok path) :
    Relays clues leads' g' := by
  obtain ⟨v, path, -, hpath, rfl⟩ := sight_eq_ok hsight
  have hsome (p : List PathNode → Prop) : (∃ path, Reaches leads' g.name path ∧ p path) ↔
      (∃ path, Reaches leads g.name path ∧ p path) ∨ p path := by
    simp only [hreaches, hpath, Except.ok.injEq, or_and_right, exists_or, exists_eq_left']
  refine ⟨nodup_foldl_insertNew h.distinctHits _, fun x => ?_, nodup_foldl_insertNew h.distinctShared _,
    fun x => ?_, ?_⟩
  · change x ∈ List.foldl insertNew g.hits _ ↔ ∃ path, Reaches leads' g.name path ∧ _
    rw [hsome, mem_foldl_insertNew, h.hits, List.mem_flatMap]
  · change x ∈ List.foldl insertNew g.shared _ ↔ ∃ path, Reaches leads' g.name path ∧ _
    rw [hsome, mem_foldl_insertNew, h.shared, List.mem_map]
    simp only [List.mem_filter, and_assoc]
    rfl
  · change _ ↔ ∃ path, Reaches leads' g.name path ∧ _
    rw [hsome, namesIncident_absorb, ← h.incident]
    rfl

/-- There is one record for each group that is led to, and it holds what the paths to the group say. -/
structure Ledger (clues : Clues) (leads : Row → Value → Prop) (groups : List Group) : Prop where
  distinct : Distinct groups
  complete : ∀ row name, leads row name → ∃ g ∈ groups, (g.name == name) = true
  reached : ∀ g ∈ groups, ∃ row name, leads row name ∧ (g.name == name) = true
  relays : ∀ g ∈ groups, Relays clues leads g

theorem ledger_nil (h : ∀ row name, ¬ leads row name) : Ledger clues leads [] :=
  ⟨distinct_nil, fun row name hleads => absurd hleads (h row name), nofun, nofun⟩

def withLead (leads : Row → Value → Prop) (row : Row) (name : Value) (r : Row) (n : Value) : Prop :=
  leads r n ∨ r = row ∧ n = name

private theorem reaches_withLead {group : Value} {path : List PathNode} :
    Reaches (withLead leads row name) group path ↔
      Reaches leads group path ∨ (group == name) = true ∧ pathOf row = .ok path := by
  constructor
  · intro h
    obtain ⟨r, n, hleads | ⟨rfl, rfl⟩, hname, hpath⟩ := h
    · exact .inl ⟨r, n, hleads, hname, hpath⟩
    · exact .inr ⟨hname, hpath⟩
  · intro h
    rcases h with ⟨r, n, hleads, hname, hpath⟩ | ⟨hname, hpath⟩
    · exact ⟨r, n, .inl hleads, hname, hpath⟩
    · exact ⟨row, name, .inr ⟨rfl, rfl⟩, hname, hpath⟩

private theorem Ledger.not_reaches (h : Ledger clues leads groups) (hname : name.hashable = .ok name)
    (hnew : groups.any (·.name == name) = false) (path : List PathNode) : ¬ Reaches leads name path := by
  intro hreaches
  obtain ⟨r, n, hleads, hsame, -⟩ := hreaches
  obtain ⟨g, hg, hgn⟩ := h.complete r n hleads
  have hgname := Value.beq_of_beq_of_beq (h.distinct.hashable g hg) hname hgn hsame
  exact List.any_eq_false.mp hnew g hg hgname

/-- The records, of which one may be new, with a name that is met: one has the name, those there were
are still there, and all hold what the paths so far say. -/
structure Enlisted (clues : Clues) (leads : Row → Value → Prop) (groups : List Group) (row : Row)
    (name : Value) (known : List Group) : Prop where
  named : ∃ g ∈ known, (g.name == name) = true
  kept : groups ⊆ known
  reached : ∀ g ∈ known, ∃ r n, withLead leads row name r n ∧ (g.name == n) = true
  relays : ∀ g ∈ known, Relays clues leads g

private theorem Ledger.enlisted (h : Ledger clues leads groups) (hname : name.hashable = .ok name) (row : Row)
    {known : List Group} (hknown : groups.any (·.name == name) = true ∧ known = groups ∨
      groups.any (·.name == name) = false ∧ known = groups ++ [{ name := name }]) :
    Enlisted clues leads groups row name known := by
  have hreached : ∀ g ∈ groups, ∃ r n, withLead leads row name r n ∧ (g.name == n) = true := by
    intro g hg
    obtain ⟨r, n, hleads, hgn⟩ := h.reached g hg
    exact ⟨r, n, .inl hleads, hgn⟩
  rcases hknown with ⟨hold, rfl⟩ | ⟨hnew, rfl⟩
  · exact ⟨List.any_eq_true.mp hold, fun g hg => hg, hreached, h.relays⟩
  · have hself := Value.beq_self hname
    refine ⟨⟨{ name }, by simp, hself⟩, List.subset_append_left _ _, fun g hg => ?_, fun g hg => ?_⟩
    · rcases List.mem_append.mp hg with hg | hg
      · exact hreached g hg
      · rw [List.mem_singleton.mp hg]
        exact ⟨row, name, .inr ⟨rfl, rfl⟩, hself⟩
    · rcases List.mem_append.mp hg with hg | hg
      · exact h.relays g hg
      · rw [List.mem_singleton.mp hg]
        exact relays_new (h.not_reaches hname hnew)

private theorem Ledger.meet (h : Ledger clues leads groups) (htruthy : name.truthy = true)
    (hmeet : Returns (meet clues row groups name) w groups' w') :
    Ledger clues (withLead leads row name) groups' := by
  have hdistinct := distinct_meet hmeet h.distinct
  rcases meet_returns hmeet with ⟨hempty, -⟩ | ⟨-, hhashable, known, hknown, hsights⟩
  · rw [htruthy] at hempty
    cases hempty
  have henlisted := h.enlisted hhashable row hknown
  have hside := forall₂_of_sightAll hsights
  have hnames : ∀ g g', ((g.name == name) = true ∧ sight clues row g = .ok g' ∨
      (g.name == name) = false ∧ g' = g) → g'.name = g.name := by
    intro g g' hcase
    rcases hcase with ⟨-, hsight⟩ | ⟨-, rfl⟩
    · exact name_of_sight hsight
    · rfl
  refine ⟨hdistinct, fun r n hlead => ?_, fun g' hg' => ?_, fun g' hg' => ?_⟩
  · have hgroup : ∃ g ∈ known, (g.name == n) = true := by
      rcases hlead with hlead | ⟨-, rfl⟩
      · obtain ⟨g, hg, hgn⟩ := h.complete r n hlead
        exact ⟨g, henlisted.kept hg, hgn⟩
      · exact henlisted.named
    obtain ⟨g, hg, hgn⟩ := hgroup
    obtain ⟨g', hg', hcase⟩ := exists_right_of_forall₂ hside hg
    exact ⟨g', hg', by rwa [hnames g g' hcase]⟩
  · obtain ⟨g, hg, hcase⟩ := exists_left_of_forall₂ hside hg'
    rw [hnames g g' hcase]
    exact henlisted.reached g hg
  · obtain ⟨g, hg, ⟨hname, hsight⟩ | ⟨hname, rfl⟩⟩ := exists_left_of_forall₂ hside hg'
    · apply (henlisted.relays g hg).sight hsight
      intro path
      rw [reaches_withLead, hname]
      simp only [true_and]
    · apply (henlisted.relays g' hg).of_other
      intro path
      rw [reaches_withLead, hname]
      simp only [Bool.false_eq_true, false_and, or_false]

theorem Ledger.congr (h : Ledger clues leads groups) (hsame : ∀ r n, leads r n ↔ leads' r n) :
    Ledger clues leads' groups := by
  have heq : leads = leads' := by
    funext r n
    exact propext (hsame r n)
  exact heq ▸ h

private theorem Ledger.meetAll {names : List Value} (h : Ledger clues leads groups)
    (hmeet : Returns (meetAll clues row names groups) w groups' w') :
    Ledger clues (fun r n => leads r n ∨ r = row ∧ n ∈ names ∧ n.truthy = true) groups' := by
  induction names generalizing groups w leads with
  | nil =>
    obtain ⟨rfl, -⟩ := Job.returns_pure.mp hmeet
    simpa using h
  | cons name names ih =>
    rw [Correlation.meetAll] at hmeet
    obtain ⟨met, w₁, hmet, hrest⟩ := Job.returns_bind.mp hmeet
    cases htruthy : name.truthy with
    | false =>
      rw [meet_of_not_truthy _ _ _ htruthy] at hmet
      obtain ⟨rfl, rfl⟩ := Job.returns_pure.mp hmet
      apply (ih h hrest).congr
      intro r n
      have hne : n.truthy = true → n ≠ name := by
        rintro hn rfl
        rw [htruthy] at hn
        cases hn
      rw [List.mem_cons]
      tauto
    | true =>
      apply (ih (h.meet htruthy hmet) hrest).congr
      intro r n
      have hname : n = name → n.truthy = true := fun hn => hn ▸ htruthy
      rw [List.mem_cons, withLead]
      tauto

/-- All rows leave one record for each group that one of them led to. -/
theorem ledger_of_returns {rows : List Row} {s : Progress}
    (h : Returns (rows.foldlM (advance clues) {}) w s w') :
    Ledger clues (LeadsTo clues rows w) s.groups := by
  induction rows using List.reverseRecOn generalizing s w' with
  | nil =>
    obtain ⟨rfl, -⟩ := Job.returns_pure.mp h
    exact ledger_nil fun row name => not_leadsTo_nil
  | append_singleton rows row ih =>
    rw [List.foldlM_append] at h
    obtain ⟨s₁, w₁, hrows, h⟩ := Job.returns_bind.mp h
    rw [List.foldlM_cons] at h
    obtain ⟨s₂, w₂, hrow, h⟩ := Job.returns_bind.mp h
    obtain ⟨rfl, rfl⟩ := Job.returns_pure.mp h
    obtain ⟨found, w₃, hnames, hrow⟩ := Job.returns_bind.mp hrow
    obtain ⟨met, w₄, hmet, hrow⟩ := Job.returns_bind.mp hrow
    obtain ⟨rfl, -⟩ := Job.returns_pure.mp hrow
    apply ((ih hrows).meetAll hmet).congr
    exact fun r n => (leadsTo_append_singleton hrows hnames r n).symm

end ThreatAtlas.Correlation
