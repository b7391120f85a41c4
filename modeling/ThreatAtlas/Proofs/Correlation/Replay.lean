import ThreatAtlas.Proofs.Answering
import ThreatAtlas.Proofs.Correlation.Abreast
import ThreatAtlas.Proofs.Correlation.Sightings

/-!
# Rows that come again

With a graph whose answers depend on the queries alone, a row that was taken into account leads to the
same groups when it comes again, whatever came between, and adds nothing to their records but a path they
already have.
-/

namespace ThreatAtlas.Correlation

open Job (Ensures Relates SeeAlike Sees Settles)
open Number (Amount)
open Value (Weighs)

/-! Records -/

/-- The record of a group has taken a row with this path into account. -/
structure Covers (clues : Clues) (row : Row) (path : List PathNode) (g : Group) : Prop where
  nearest : ∃ p, Weighs g.nearest p ∧ g.nearest.lesser (distanceOf row) = .ok g.nearest
  hits : ∀ x ∈ path.flatMap fun n => clueHits clues n.name, x ∈ g.hits
  shared : ∀ x ∈ (path.filter (isShared clues g.name)).map PathNode.name, x ∈ g.shared
  paths : path.map PathNode.name ∈ g.paths

def Group.withPath (g : Group) (path : List PathNode) : Group :=
  { g with paths := g.paths ++ [path.map PathNode.name] }

variable {clues : Clues} {row other : Row} {path : List PathNode} {g g' : Group}

private theorem foldl_insertNew_of_subset {xs ys : List String} (h : ∀ y ∈ ys, y ∈ xs) :
    ys.foldl insertNew xs = xs := by
  induction ys with
  | nil => rfl
  | cons y ys ih =>
    have hy : insertNew xs y = xs := by
      unfold insertNew
      rw [if_pos (List.contains_iff_mem.mpr (h y List.mem_cons_self))]
    rw [List.foldl_cons, hy]
    exact ih fun z hz => h z (List.mem_cons_of_mem y hz)

theorem sight_eq_ok (h : sight clues row g = .ok g') :
    ∃ v path, g.nearest.lesser (distanceOf row) = .ok v ∧ pathOf row = .ok path ∧
      g' = { g with nearest := v }.absorb clues path := by
  obtain ⟨v, hv, h⟩ := bind_eq_ok.mp h
  obtain ⟨path, hpath, h⟩ := bind_eq_ok.mp h
  exact ⟨v, path, hv, hpath, (pure_eq_ok.mp h).symm⟩

private theorem covers_of_sight {p : Amount} (hg : Weighs g.nearest p) (h : sight clues row g = .ok g') :
    ∃ path, pathOf row = .ok path ∧ Covers clues row path g' := by
  obtain ⟨v, path, hv, hpath, rfl⟩ := sight_eq_ok h
  obtain ⟨q, hq, -, hagain⟩ := Value.lesser_again hg hv
  refine ⟨path, hpath, ⟨q, hq, hagain⟩, fun x hx => ?_, fun x hx => ?_, ?_⟩
  · exact mem_foldl_insertNew.mpr (.inr hx)
  · exact mem_foldl_insertNew.mpr (.inr hx)
  · exact List.mem_append_right _ (List.mem_singleton_self _)

private theorem Covers.sight (hg : Covers clues row path g) (h : sight clues other g = .ok g') :
    Covers clues row path g' := by
  obtain ⟨v, path', hv, -, rfl⟩ := sight_eq_ok h
  obtain ⟨p, hp, hkept⟩ := hg.nearest
  obtain ⟨q, hq, hle, -⟩ := Value.lesser_again hp hv
  refine ⟨⟨q, hq, Value.lesser_of_le hp hkept hq hle⟩, fun x hx => ?_, fun x hx => ?_, ?_⟩
  · exact mem_foldl_insertNew.mpr (.inl (hg.hits x hx))
  · exact mem_foldl_insertNew.mpr (.inl (hg.shared x hx))
  · exact List.mem_append_left _ hg.paths

private theorem Covers.sight_again (hg : Covers clues row path g) (hpath : pathOf row = .ok path) :
    Correlation.sight clues row g = .ok (g.withPath path) := by
  obtain ⟨-, -, hkept⟩ := hg.nearest
  unfold Correlation.sight
  rw [hkept, hpath]
  change Except.ok (g.absorb clues path) = _
  unfold Group.absorb Group.withPath
  rw [foldl_insertNew_of_subset hg.hits, foldl_insertNew_of_subset hg.shared]

private theorem Covers.withPath (hg : Covers clues row path g) (path' : List PathNode) :
    Covers clues row path (g.withPath path') :=
  ⟨hg.nearest, hg.hits, hg.shared, List.mem_append_left _ hg.paths⟩

/-! Groups of a name -/

/-- Groups with names that can be told apart and with distances that are numbers. -/
structure Orderly (groups : List Group) : Prop where
  distinct : Distinct groups
  nearest : ∀ g ∈ groups, ∃ p, Weighs g.nearest p

theorem orderly_nil : Orderly [] :=
  ⟨distinct_nil, nofun⟩

structure Met (clues : Clues) (row : Row) (groups : List Group) (name : Value) : Prop where
  hashable : name.hashable = .ok name
  known : groups.any (·.name == name) = true
  covers : ∃ path, pathOf row = .ok path ∧ ∀ g ∈ groups, (g.name == name) = true →
    Covers clues row path g

/-- Of the groups later, all have taken into account what those before had. -/
def Later (clues : Clues) (groups groups' : List Group) : Prop :=
  ∀ row name, Met clues row groups name → Met clues row groups' name

variable {groups groups' groups'' : List Group} {name : Value}

private theorem Later.trans (h : Later clues groups groups') (h' : Later clues groups' groups'') :
    Later clues groups groups'' :=
  fun row name hmet => h' row name (h row name hmet)

private theorem Met.of_forall₂ (h : Met clues row groups name)
    (hgroups : List.Forall₂ (fun g g' => g'.name = g.name ∧
      ∀ path, Covers clues row path g → Covers clues row path g') groups groups') :
    Met clues row groups' name := by
  obtain ⟨path, hpath, hcovers⟩ := h.covers
  refine ⟨h.hashable, ?_, path, hpath, fun g' hg' hname => ?_⟩
  · obtain ⟨g, hg, hname⟩ := List.any_eq_true.mp h.known
    obtain ⟨g', hg', hsame, -⟩ := exists_right_of_forall₂ hgroups hg
    refine List.any_eq_true.mpr ⟨g', hg', ?_⟩
    rwa [hsame]
  · obtain ⟨g, hg, hsame, hkeeps⟩ := exists_left_of_forall₂ hgroups hg'
    rw [hsame] at hname
    exact hkeeps path (hcovers g hg hname)

private theorem later_append (h : Orderly groups) (hname : name.hashable = .ok name)
    (hnew : groups.any (·.name == name) = false) :
    Later clues groups (groups ++ [{ name := name }]) := by
  intro row name' hmet
  obtain ⟨path, hpath, hcovers⟩ := hmet.covers
  refine ⟨hmet.hashable, ?_, path, hpath, fun g hg hsame => ?_⟩
  · rw [List.any_append, hmet.known, Bool.true_or]
  · rcases List.mem_append.mp hg with hg | hg
    · exact hcovers g hg hsame
    · rw [List.mem_singleton.mp hg] at hsame
      obtain ⟨g₀, hg₀, hknown⟩ := List.any_eq_true.mp hmet.known
      have hequal := Value.beq_of_beq_of_beq (h.distinct.hashable g₀ hg₀) hname hknown hsame
      exact absurd hequal (List.any_eq_false.mp hnew g₀ hg₀)

private theorem Orderly.append (h : Orderly groups) (hname : name.hashable = .ok name)
    (hnew : groups.any (·.name == name) = false) : Orderly (groups ++ [{ name := name }]) := by
  refine ⟨h.distinct.append hname hnew, fun g hg => ?_⟩
  rcases List.mem_append.mp hg with hg | hg
  · exact h.nearest g hg
  · rw [List.mem_singleton.mp hg]
    exact ⟨_, Value.weighs_int 999⟩

theorem forall₂_of_sightAll (h : sightAll clues row name groups = .ok groups') :
    List.Forall₂ (fun g g' => (g.name == name) = true ∧ sight clues row g = .ok g' ∨
      (g.name == name) = false ∧ g' = g) groups groups' := by
  refine List.Forall₂.imp (fun g g' hg => ?_) (mapM_eq_ok.mp h)
  split at hg
  case isTrue hname => exact .inl ⟨hname, hg⟩
  case isFalse hname => exact .inr ⟨Bool.eq_false_iff.mpr hname, (pure_eq_ok.mp hg).symm⟩

private theorem later_sightAll (h : sightAll clues row name groups = .ok groups') :
    Later clues groups groups' := by
  intro row' name' hmet
  refine hmet.of_forall₂ (List.Forall₂.imp (fun g g' hg => ?_) (forall₂_of_sightAll h))
  rcases hg with ⟨-, hsight⟩ | ⟨-, rfl⟩
  · exact ⟨name_of_sight hsight, fun path hcovers => hcovers.sight hsight⟩
  · exact ⟨rfl, fun path hcovers => hcovers⟩

theorem Orderly.sightAll (h : Orderly groups) (hsights : sightAll clues row name groups = .ok groups') :
    Orderly groups' := by
  refine ⟨h.distinct.of_names (names_of_sightAll hsights), fun g' hg' => ?_⟩
  obtain ⟨g, hg, ⟨-, hsight⟩ | ⟨-, rfl⟩⟩ := exists_left_of_forall₂ (forall₂_of_sightAll hsights) hg'
  · obtain ⟨p, hp⟩ := h.nearest g hg
    obtain ⟨v, path, hv, -, rfl⟩ := sight_eq_ok hsight
    obtain ⟨q, hq, -, -⟩ := Value.lesser_again hp hv
    exact ⟨q, hq⟩
  · exact h.nearest g' hg

private theorem met_sightAll (h : Orderly groups) (hhashable : name.hashable = .ok name)
    (hknown : groups.any (·.name == name) = true)
    (hsights : sightAll clues row name groups = .ok groups') :
    Met clues row groups' name := by
  have hall := forall₂_of_sightAll hsights
  obtain ⟨g₀, hg₀, hname₀⟩ := List.any_eq_true.mp hknown
  obtain ⟨g₁, hg₁, hsight₁⟩ := exists_right_of_forall₂ hall hg₀
  have hsight₁ : sight clues row g₀ = .ok g₁ := by
    rcases hsight₁ with ⟨-, hsight⟩ | ⟨hother, -⟩
    · exact hsight
    · rw [hname₀] at hother
      cases hother
  obtain ⟨-, path, -, hpath, -⟩ := sight_eq_ok hsight₁
  refine ⟨hhashable, ?_, path, hpath, fun g' hg' hname => ?_⟩
  · refine List.any_eq_true.mpr ⟨g₁, hg₁, ?_⟩
    rwa [name_of_sight hsight₁]
  · obtain ⟨g, hg, ⟨-, hsight⟩ | ⟨hother, rfl⟩⟩ := exists_left_of_forall₂ hall hg'
    · obtain ⟨p, hp⟩ := h.nearest g hg
      obtain ⟨path', hpath', hcovers⟩ := covers_of_sight hp hsight
      rw [hpath] at hpath'
      cases hpath'
      exact hcovers
    · rw [hother] at hname
      cases hname

variable {σ : Type} [Outside σ]

/-! What a row leaves behind -/

structure After (clues : Clues) (row : Row) (groups : List Group) (names : List Value)
    (groups' : List Group) : Prop where
  orderly : Orderly groups'
  later : Later clues groups groups'
  met : ∀ name ∈ names, name.truthy = true → Met clues row groups' name

section

variable {J : World σ → Prop} (hcheck : ∀ name, Ensures J (fun _ => True) (checkAliases name))

include hcheck

private theorem ensures_enlist (clues : Clues) (h : Orderly groups) (hname : name.hashable = .ok name) :
    Ensures J (fun found => Orderly found ∧ Later clues groups found ∧
      found.any (·.name == name) = true) (enlist groups name) := by
  unfold enlist
  split
  case isTrue hknown => exact Job.ensures_pure ⟨h, fun _ _ hmet => hmet, hknown⟩
  case isFalse hnew =>
    have hnew := Bool.eq_false_iff.mpr hnew
    refine Job.ensures_bind (hcheck name) fun _ _ => Job.ensures_pure ⟨?_, ?_, ?_⟩
    · exact h.append hname hnew
    · exact later_append h hname hnew
    · rw [List.any_append, List.any_cons, Value.beq_self hname, Bool.true_or, Bool.or_true]

private theorem ensures_meet (h : Orderly groups) (name : Value) :
    Ensures J (After clues row groups [name]) (meet clues row groups name) := by
  cases htruthy : name.truthy with
  | false =>
    rw [meet_of_not_truthy _ _ _ htruthy]
    refine Job.ensures_pure ⟨h, fun _ _ hmet => hmet, fun name' hname' htruthy' => ?_⟩
    rw [List.mem_singleton.mp hname', htruthy] at htruthy'
    cases htruthy'
  | true =>
    rw [meet_eq _ _ _ htruthy]
    refine Job.ensures_bind (P := fun v => v = name ∧ v.hashable = .ok v)
      (Job.ensures_lift fun v hv => ⟨(Value.eq_of_hashable hv).symm, Value.hashable_of_hashable hv⟩) ?_
    rintro v ⟨rfl, hhashable⟩
    refine Job.ensures_bind (ensures_enlist hcheck clues h hhashable) fun found hfound => ?_
    obtain ⟨hfound, hlater, hknown⟩ := hfound
    refine Job.ensures_lift fun groups' hsights => ⟨hfound.sightAll hsights, ?_, ?_⟩
    · exact hlater.trans (later_sightAll hsights)
    · intro name' hname' _
      rw [List.mem_singleton.mp hname']
      exact met_sightAll hfound hhashable hknown hsights

private theorem ensures_meetAll (h : Orderly groups) (names : List Value) :
    Ensures J (After clues row groups names) (meetAll clues row names groups) := by
  induction names generalizing groups with
  | nil => exact Job.ensures_pure ⟨h, fun _ _ hmet => hmet, nofun⟩
  | cons name names ih =>
    rw [meetAll]
    intro w hw groups₂ w₂ hrun
    obtain ⟨groups₁, w₁, hmeet, hrest⟩ := Job.returns_bind.mp hrun
    obtain ⟨hfirst, hw₁⟩ := ensures_meet hcheck h name w hw groups₁ w₁ hmeet
    obtain ⟨hlast, hw₂⟩ := ih hfirst.orderly w₁ hw₁ groups₂ w₂ hrest
    refine ⟨⟨hlast.orderly, hfirst.later.trans hlast.later, fun name' hname' htruthy => ?_⟩, hw₂⟩
    rcases List.mem_cons.mp hname' with rfl | hname'
    · exact hlast.later _ _ (hfirst.met _ (List.mem_singleton_self _) htruthy)
    · exact hlast.met name' hname' htruthy

theorem ensures_orderly_foldlM
    (hgroups : ∀ seen row, Ensures J (fun _ => True) (groupsOf (σ := σ) seen row)) {s : Progress}
    (h : Orderly s.groups) (rows : List Row) :
    Ensures J (fun s => Orderly s.groups) (rows.foldlM (advance clues) s) := by
  refine Job.ensures_foldlM (fun s hs row _ => ?_) h
  unfold advance
  refine Job.ensures_bind (hgroups s.seen row) fun found _ => ?_
  refine Job.ensures_bind (ensures_meetAll hcheck hs found.1) fun groups hafter => ?_
  exact Job.ensures_pure hafter.orderly

end

/-! Look-ups -/

def Extends (seen seen' : Lookups) : Prop :=
  ∀ key groups, seen.lookup key = some groups → seen'.lookup key = some groups

private theorem extends_cons {seen : Lookups} {key : String} (h : seen.lookup key = none)
    (groups : List Value) : Extends seen ((key, groups) :: seen) := by
  intro key' groups' hlookup
  have hne : key' ≠ key := by
    rintro rfl
    rw [h] at hlookup
    cases hlookup
  rw [List.lookup_cons, beq_false_of_ne hne]
  exact hlookup

variable {f : Query → Answer} {connected : Bool}

def lookupKey (label : Value) (kind : String) : String :=
  let label := label.orElse (.text "")
  s!"{label.display}_{kind}"

private theorem groupsBehind_eq (seen : Lookups) (label : Value) (kind : String) :
    groupsBehind (σ := σ) seen label kind =
      (match seen.lookup (lookupKey label kind) with
      | some groups => pure (groups, seen)
      | none => do
        let rows ← Job.ask (if kind == "Incident" then groupsOfIncident else groupsOfNode)
          [("val", label.orElse (.text ""))]
        let groups := (rows.map (·.get "tgname")).filter Value.truthy
        pure (groups, (lookupKey label kind, groups) :: seen)) :=
  rfl

private theorem ensures_groupsBehind (seen : Lookups) (label : Value) (kind : String) :
    Ensures (Sees (σ := σ) f connected) (fun found => Extends seen found.2 ∧
      ∀ seen', Extends found.2 seen' →
        groupsBehind (σ := σ) seen' label kind = pure (found.1, seen'))
      (groupsBehind seen label kind) := by
  have hagain {seen' : Lookups} {groups : List Value}
      (h : seen'.lookup (lookupKey label kind) = some groups) :
      groupsBehind (σ := σ) seen' label kind = pure (groups, seen') := by
    rw [groupsBehind_eq, h]
  cases hlookup : seen.lookup (lookupKey label kind) with
  | some groups =>
    rw [hagain hlookup]
    exact Job.ensures_pure ⟨fun _ _ h => h, fun seen' h => hagain (h _ _ hlookup)⟩
  | none =>
    rw [groupsBehind_eq, hlookup]
    refine Job.ensures_bind (Job.settles_ask _ _).ensures fun rows _ => ?_
    refine Job.ensures_pure ⟨extends_cons hlookup _, fun seen' h => hagain (h _ _ ?_)⟩
    exact List.lookup_cons_self

/-- With look-ups that extend those known the row leads to these names. -/
def Leads (σ : Type) [Outside σ] (f : Query → Answer) (connected : Bool) (seen : Lookups) (row : Row)
    (names : List Value) : Prop :=
  ∀ seen', Extends seen seen' →
    Settles (σ := σ) f connected (groupsOf seen' row) (.ok (names, seen'))

private theorem ensures_groupsOf (seen : Lookups) (row : Row) :
    Ensures (Sees (σ := σ) f connected)
      (fun found => Extends seen found.2 ∧ Leads σ f connected found.2 row found.1)
      (groupsOf seen row) := by
  unfold Leads groupsOf
  refine Job.ensures_bind (Job.settles_lift _).ensures fun kind hkind => ?_
  dsimp only
  rw [hkind]
  by_cases hgroup : (Text.strip kind == "ThreatGroup") = true
  · rw [if_pos hgroup]
    refine Job.ensures_bind (Job.settles_ask _ _).ensures fun rows hrows => ?_
    have hask : Settles (σ := σ) f connected
        (Job.ask canonicalGroup [("val", row.get "label")]) (.ok rows) := by
      rw [← hrows]
      exact Job.settles_ask _ _
    cases rows with
    | nil =>
      refine Job.ensures_pure ⟨fun _ _ h => h, fun seen' _ => ?_⟩
      refine Job.settles_bind_ok (Job.settles_pure kind) ?_
      rw [if_pos hgroup]
      exact Job.settles_bind_ok hask (Job.settles_pure _)
    | cons first rows =>
      refine Job.ensures_bind (Job.settles_lift _).ensures fun names hnames => ?_
      refine Job.ensures_pure ⟨fun _ _ h => h, fun seen' _ => ?_⟩
      refine Job.settles_bind_ok (Job.settles_pure kind) ?_
      rw [if_pos hgroup]
      refine Job.settles_bind_ok hask ?_
      dsimp only
      rw [hnames]
      exact Job.settles_bind_ok (Job.settles_pure names) (Job.settles_pure _)
  · rw [if_neg hgroup]
    intro w hw found w' hrun
    obtain ⟨⟨hextends, hagain⟩, hafter⟩ := ensures_groupsBehind seen _ _ w hw found w' hrun
    refine ⟨⟨hextends, fun seen' hseen' => ?_⟩, hafter⟩
    refine Job.settles_bind_ok (Job.settles_pure kind) ?_
    rw [if_neg hgroup, hagain seen' hseen']
    exact Job.settles_pure _

/-- The row was taken into account: it leads to names whose groups have met it. -/
def Absorbed (σ : Type) [Outside σ] (f : Query → Answer) (connected : Bool) (clues : Clues) (row : Row)
    (s : Progress) : Prop :=
  ∃ names, Leads σ f connected s.seen row names ∧
    ∀ name ∈ names, name.truthy = true → Met clues row s.groups name

variable {s s' : Progress}

private theorem Absorbed.later (h : Absorbed σ f connected clues row s) (hseen : Extends s.seen s'.seen)
    (hlater : Later clues s.groups s'.groups) : Absorbed σ f connected clues row s' := by
  obtain ⟨names, hleads, hmet⟩ := h
  refine ⟨names, fun seen hextends => hleads seen ?_, fun name hname htruthy => ?_⟩
  · exact fun key groups hlookup => hextends key groups (hseen key groups hlookup)
  · exact hlater row name (hmet name hname htruthy)

private theorem ensures_advance (h : Orderly s.groups) (row : Row) :
    Ensures (Sees (σ := σ) f connected) (fun s' => Orderly s'.groups ∧
        (∀ other, Absorbed σ f connected clues other s → Absorbed σ f connected clues other s') ∧
        Absorbed σ f connected clues row s')
      (advance clues s row) := by
  have hask (text : String) (params : Fields) : Relates (SeeAlike f connected) Eq
      (Job.ask (σ := σ) text params) (Job.ask text params) :=
    (Job.settles_ask text params).relates_self
  have hcheck (name : Value) := (relates_checkAliases hask name).ensures
  unfold advance
  refine Job.ensures_bind (ensures_groupsOf s.seen row) fun found hfound => ?_
  obtain ⟨hextends, hleads⟩ := hfound
  refine Job.ensures_bind (ensures_meetAll hcheck h found.1) fun groups' hafter => ?_
  refine Job.ensures_pure ⟨hafter.orderly, fun other hother => ?_, found.1, hleads, hafter.met⟩
  exact hother.later hextends hafter.later

theorem ensures_absorbed (h : Orderly s.groups) (rows : List Row) :
    Ensures (Sees (σ := σ) f connected) (fun s' => Orderly s'.groups ∧
        (∀ other, Absorbed σ f connected clues other s → Absorbed σ f connected clues other s') ∧
        ∀ row ∈ rows, Absorbed σ f connected clues row s')
      (rows.foldlM (advance clues) s) := by
  induction rows generalizing s with
  | nil => exact Job.ensures_pure ⟨h, fun _ hother => hother, nofun⟩
  | cons row rows ih =>
    rw [List.foldlM_cons]
    intro w hw s₂ w₂ hrun
    obtain ⟨s₁, w₁, hadvance, hrest⟩ := Job.returns_bind.mp hrun
    obtain ⟨⟨horderly, hkept, hrow⟩, hw₁⟩ := ensures_advance h row w hw s₁ w₁ hadvance
    obtain ⟨⟨horderly₂, hkept₂, hrows⟩, hw₂⟩ := ih horderly w₁ hw₁ s₂ w₂ hrest
    refine ⟨⟨horderly₂, fun other hother => hkept₂ other (hkept other hother), ?_⟩, hw₂⟩
    intro row' hrow'
    rcases List.mem_cons.mp hrow' with rfl | hrow'
    · exact hkept₂ _ hrow
    · exact hrows row' hrow'

/-! The row again -/

/-- The records are alike but for the number of paths. -/
structure Unmoved (g g' : Group) : Prop where
  name : g'.name = g.name
  nearest : g'.nearest = g.nearest
  hits : g'.hits = g.hits
  shared : g'.shared = g.shared
  incident : g'.namesIncident = g.namesIncident

private theorem Unmoved.refl (g : Group) : Unmoved g g :=
  ⟨rfl, rfl, rfl, rfl, rfl⟩

private theorem Unmoved.trans {g g' g'' : Group} (h : Unmoved g g') (h' : Unmoved g' g'') : Unmoved g g'' :=
  ⟨h'.name.trans h.name, h'.nearest.trans h.nearest, h'.hits.trans h.hits, h'.shared.trans h.shared,
    h'.incident.trans h.incident⟩

private theorem Covers.unmoved (h : Covers clues row path g) : Unmoved g (g.withPath path) := by
  refine ⟨rfl, rfl, rfl, rfl, ?_⟩
  unfold Group.namesIncident Group.withPath
  rw [List.any_append, List.any_cons, List.any_nil, Bool.or_false, Bool.or_eq_left_iff_imp]
  exact fun hincident => List.any_eq_true.mpr ⟨_, h.paths, hincident⟩

def withPaths (name : Value) (path : List PathNode) (groups : List Group) : List Group :=
  groups.map fun g => if g.name == name then g.withPath path else g

private theorem settles_meet_again (f : Query → Answer) (connected : Bool) (h : Met clues row groups name)
    (htruthy : name.truthy = true) :
    ∃ path, Settles (σ := σ) f connected (meet clues row groups name)
        (.ok (withPaths name path groups)) ∧
      List.Forall₂ Unmoved groups (withPaths name path groups) ∧
      Later clues groups (withPaths name path groups) := by
  obtain ⟨path, hpath, hcovers⟩ := h.covers
  refine ⟨path, ?_, ?_, fun row' name' hmet => ?_⟩
  · rw [meet_eq _ _ _ htruthy, h.hashable]
    refine Job.settles_bind_ok (Job.settles_pure name) ?_
    unfold enlist
    rw [if_pos h.known]
    refine Job.settles_bind_ok (Job.settles_pure groups) ?_
    have hsights : sightAll clues row name groups = .ok (withPaths name path groups) := by
      refine mapM_eq_ok.mpr ?_
      unfold withPaths
      rw [List.forall₂_map_right_iff, List.forall₂_same]
      intro g hg
      split
      case isTrue hname => exact (hcovers g hg hname).sight_again hpath
      case isFalse => rfl
    rw [hsights]
    exact Job.settles_pure _
  · unfold withPaths
    rw [List.forall₂_map_right_iff, List.forall₂_same]
    intro g hg
    split
    case isTrue hname => exact (hcovers g hg hname).unmoved
    case isFalse => exact .refl g
  · refine hmet.of_forall₂ ?_
    unfold withPaths
    rw [List.forall₂_map_right_iff, List.forall₂_same]
    intro g _
    split
    · exact ⟨rfl, fun path' hcovers' => hcovers'.withPath path⟩
    · exact ⟨rfl, fun path' hcovers' => hcovers'⟩

private theorem settles_meetAll_again (f : Query → Answer) (connected : Bool) {names : List Value}
    (h : ∀ name ∈ names, name.truthy = true → Met clues row groups name) :
    ∃ groups', Settles (σ := σ) f connected (meetAll clues row names groups) (.ok groups') ∧
      List.Forall₂ Unmoved groups groups' ∧ Later clues groups groups' := by
  induction names generalizing groups with
  | nil =>
    exact ⟨groups, Job.settles_pure _, List.forall₂_same.mpr fun g _ => .refl g, fun _ _ hmet => hmet⟩
  | cons name names ih =>
    rw [meetAll]
    cases htruthy : name.truthy with
    | false =>
      obtain ⟨groups', hsettles, hrest⟩ := ih fun name hname => h name (List.mem_cons_of_mem _ hname)
      refine ⟨groups', ?_, hrest⟩
      rw [meet_of_not_truthy _ _ _ htruthy, pure_bind]
      exact hsettles
    | true =>
      obtain ⟨path, hmeet, hunmoved, hlater⟩ :=
        settles_meet_again (σ := σ) f connected (h name List.mem_cons_self htruthy) htruthy
      obtain ⟨groups', hsettles, hunmoved', hlater'⟩ := ih fun name' hname' htruthy' =>
        hlater row name' (h name' (List.mem_cons_of_mem _ hname') htruthy')
      refine ⟨groups', Job.settles_bind_ok hmeet hsettles, ?_, hlater.trans hlater'⟩
      exact forall₂_comp (R := Unmoved) (S := Unmoved) (fun _ _ _ h h' => h.trans h') hunmoved hunmoved'

/-- A row that was taken into account leads to the same groups and moves none of them. -/
theorem settles_advance_again (h : Absorbed σ f connected clues row s) :
    ∃ s', Settles (σ := σ) f connected (advance clues s row) (.ok s') ∧ Abreast Unmoved s s' ∧
      ∀ other, Absorbed σ f connected clues other s → Absorbed σ f connected clues other s' := by
  obtain ⟨names, hleads, hmet⟩ := h
  obtain ⟨groups', hsettles, hunmoved, hlater⟩ :=
    settles_meetAll_again (σ := σ) f connected hmet
  refine ⟨⟨s.seen, groups'⟩, ?_, ⟨rfl, hunmoved⟩, fun other hother => ?_⟩
  · unfold advance
    refine Job.settles_bind_ok (hleads s.seen fun _ _ hlookup => hlookup) ?_
    exact Job.settles_bind_ok hsettles (Job.settles_pure _)
  · exact hother.later (fun _ _ hlookup => hlookup) hlater

theorem settles_foldlM_again {rows : List Row} (h : ∀ row ∈ rows, Absorbed σ f connected clues row s) :
    ∃ s', Settles (σ := σ) f connected (rows.foldlM (advance clues) s) (.ok s') ∧
      Abreast Unmoved s s' := by
  induction rows generalizing s with
  | nil => exact ⟨s, Job.settles_pure s, rfl, List.forall₂_same.mpr fun g _ => .refl g⟩
  | cons row rows ih =>
    obtain ⟨s₁, hadvance, hfirst, hkept⟩ := settles_advance_again (h row List.mem_cons_self)
    obtain ⟨s₂, hrest, hlast⟩ := ih fun row' hrow' => hkept row' (h row' (List.mem_cons_of_mem _ hrow'))
    refine ⟨s₂, ?_, hlast.seen.trans hfirst.seen, ?_⟩
    · rw [List.foldlM_cons]
      exact Job.settles_bind_ok hadvance hrest
    · exact forall₂_comp (R := Unmoved) (S := Unmoved) (fun _ _ _ h h' => h.trans h') hfirst.groups
        hlast.groups

end ThreatAtlas.Correlation
