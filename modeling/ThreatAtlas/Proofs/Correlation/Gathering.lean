import ThreatAtlas.Correlation.Run
import ThreatAtlas.Proofs.Answering
import ThreatAtlas.Proofs.Correlation.Sightings
import ThreatAtlas.Proofs.Text.Replace

/-!
# Gathering groups from rows

With a graph whose answers depend on the queries alone, every row stands for sightings of its own:
what was looked up before changes neither the groups a row leads to nor what is found out about them.
The groups gathered are then the records of all sightings, whatever the order of the rows.
-/

namespace ThreatAtlas.Correlation

open Job (Returns Sees Settles)

/-- A row whose look-ups can be told apart and whose distance is a number. -/
structure WellTyped (row : Row) : Prop where
  label : row.get "label" = .null ∨ ∃ s, row.get "label" = .text s
  kind : ∀ s, row.get "type" = .text s → '_' ∉ s.toList
  distance : row.get "dist" = .null ∨ ∃ d, row.get "dist" = .int d

def groupNames (rows : List Row) : List Value :=
  (rows.map (·.get "tgname")).filter Value.truthy

def behind (answer : Query → Except Failure (List Row)) (label : Value) (kind : String) :
    Except Failure (List Value) :=
  groupNames <$> answer ⟨if kind == "Incident" then groupsOfIncident else groupsOfNode,
    [("val", label.orElse (.text ""))]⟩

def leads (answer : Query → Except Failure (List Row)) (row : Row) :
    Except Failure (List Value) := do
  let kind ← ((row.get "type").orElse (.text "")).asText "strip"
  if Text.strip kind == "ThreatGroup" then
    match ← answer ⟨canonicalGroup, [("val", row.get "label")]⟩ with
    | [] => return [row.get "label"]
    | rows => Row.column "name" rows
  else behind answer (row.get "label") (Text.strip kind)

def stepsOf (row : Row) : Int :=
  match distanceOf row with
  | .int d => d
  | _ => 0

variable {row : Row} {kind : String} {seen : Lookups}

private theorem WellTyped.distanceOf (h : WellTyped row) : distanceOf row = .int (stepsOf row) := by
  unfold stepsOf Correlation.distanceOf
  rcases h.distance with hnull | ⟨d, hd⟩
  · rw [hnull]
    rfl
  · rw [hd]
    unfold Value.orElse
    split
    · rfl
    · rfl

/-- What a row says about a group, whose other names are checked by `check`. -/
def sightingOf (check : Value → Except Failure Unit) (row : Row) (name : Value) :
    Except Failure Sighting := do
  let name ← name.hashable
  check name
  return ⟨name, stepsOf row, ← pathOf row⟩

def sightingsOf (answer : Query → Except Failure (List Row)) (check : Value → Except Failure Unit)
    (row : Row) : Except Failure (List Sighting) := do
  ((← leads answer row).filter Value.truthy).mapM (sightingOf check row)

/-- The groups after the rows, with nothing remembered from one row to the next. -/
def gathered (answer : Query → Except Failure (List Row)) (check : Value → Except Failure Unit)
    (clues : Clues) (groups : List Group) (rows : List Row) : Except Failure (List Group) := do
  let found ← rows.mapM (sightingsOf answer check)
  return found.flatten.foldl (record clues) groups

private theorem gathered_cons (answer : Query → Except Failure (List Row))
    (check : Value → Except Failure Unit) (clues : Clues) (groups : List Group) (row : Row)
    (rows : List Row) :
    gathered answer check clues groups (row :: rows) = (do
      let sightings ← sightingsOf answer check row
      gathered answer check clues (sightings.foldl (record clues) groups) rows) := by
  unfold gathered
  rw [List.mapM_cons]
  cases sightingsOf answer check row with
  | error e => rfl
  | ok sightings =>
    cases rows.mapM (sightingsOf answer check) with
    | error e => rfl
    | ok found => exact congrArg Except.ok List.foldl_append

def Sound (answer : Query → Except Failure (List Row)) (seen : Lookups) : Prop :=
  ∀ key groups, seen.lookup key = some groups → ∀ label kind : String, '_' ∉ kind.toList →
    key = s!"{label}_{kind}" → behind answer (.text label) kind = .ok groups

theorem sound_nil (answer : Query → Except Failure (List Row)) : Sound answer [] :=
  nofun

private theorem key_injective {label other otherKind : String} (hkind : '_' ∉ kind.toList)
    (hotherKind : '_' ∉ otherKind.toList) (h : s!"{label}_{kind}" = s!"{other}_{otherKind}") :
    label = other ∧ kind = otherKind := by
  have hchars : label.toList ++ '_' :: kind.toList = other.toList ++ '_' :: otherKind.toList := by
    change label ++ "_" ++ kind = other ++ "_" ++ otherKind at h
    simpa [String.toList_append] using congrArg String.toList h
  obtain ⟨hlabel, hkinds⟩ := Text.eq_of_append_cons_eq hkind hotherKind hchars
  exact ⟨String.toList_inj.mp hlabel, String.toList_inj.mp hkinds⟩

theorem Sound.remember {answer : Query → Except Failure (List Row)} (h : Sound answer seen) {label : String}
    (hkind : '_' ∉ kind.toList) {groups : List Value}
    (hgroups : behind answer (.text label) kind = .ok groups) :
    Sound answer ((s!"{label}_{kind}", groups) :: seen) := by
  intro key groups' hlookup label' kind' hkind' hkey
  rw [List.lookup_cons] at hlookup
  by_cases hsame : key = s!"{label}_{kind}"
  · rw [beq_iff_eq.mpr hsame] at hlookup
    cases hlookup
    obtain ⟨rfl, rfl⟩ := key_injective hkind hkind' (hsame.symm.trans hkey)
    exact hgroups
  · rw [beq_false_of_ne hsame] at hlookup
    exact h key groups' hlookup label' kind' hkind' hkey

private theorem orElse_orElse (v w : Value) : (v.orElse w).orElse w = v.orElse w := by
  unfold Value.orElse
  split
  · rfl
  · exact ite_self w

private theorem orElse_empty {label : Value} (h : label = .null ∨ ∃ s, label = .text s) :
    ∃ s, label.orElse (.text "") = .text s := by
  rcases h with rfl | ⟨s, rfl⟩
  · exact ⟨"", rfl⟩
  · unfold Value.orElse
    split
    · exact ⟨s, rfl⟩
    · exact ⟨"", rfl⟩

variable {σ : Type} [Outside σ] {f : Query → Answer} {connected : Bool}

private theorem settles_groupsBehind (hseen : Sound (answered f connected) seen) {label : Value}
    (hlabel : label = .null ∨ ∃ s, label = .text s) (hkind : '_' ∉ kind.toList) :
    ∃ seen', Sound (answered f connected) seen' ∧
      Settles (σ := σ) f connected (groupsBehind seen label kind)
        (do return (← behind (answered f connected) label kind, seen')) := by
  obtain ⟨s, hs⟩ := orElse_empty hlabel
  have hbehind : behind (answered f connected) label kind =
      behind (answered f connected) (.text s) kind := by
    unfold behind
    rw [← hs, orElse_orElse]
  have htext : (Value.text s).orElse (.text "") = .text s := by
    rw [← hs, orElse_orElse]
  unfold groupsBehind
  rw [hs, hbehind]
  dsimp only
  cases hlookup : seen.lookup s!"{(Value.text s).display}_{kind}" with
  | some groups =>
    refine ⟨seen, hseen, ?_⟩
    rw [hseen _ groups hlookup s kind hkind rfl]
    exact Job.settles_pure _
  | none =>
    have hask : Settles (σ := σ) f connected (do
        let rows ← Job.ask (if kind == "Incident" then groupsOfIncident else groupsOfNode)
          [("val", .text s)]
        pure (groupNames rows, (s!"{(Value.text s).display}_{kind}", groupNames rows) :: seen)) _ :=
      Job.settles_bind (Job.settles_ask _ _) fun rows _ => Job.settles_pure _
    cases hanswer : answered f connected
        ⟨if kind == "Incident" then groupsOfIncident else groupsOfNode, [("val", .text s)]⟩ with
    | error e =>
      refine ⟨seen, hseen, hask.congr ?_⟩
      rw [behind, htext, hanswer]
      rfl
    | ok rows =>
      have hfound : behind (answered f connected) (.text s) kind = .ok (groupNames rows) := by
        rw [behind, htext, hanswer]
        rfl
      refine ⟨_, hseen.remember hkind hfound, hask.congr ?_⟩
      rw [hfound, hanswer]
      rfl

private theorem WellTyped.plain (h : WellTyped row)
    (hkind : ((row.get "type").orElse (.text "")).asText "strip" = .ok kind) :
    '_' ∉ (Text.strip kind).toList := by
  have htext := Value.asText_eq_ok hkind
  intro hmem
  have hmem := (Text.strip_sublist kind).subset hmem
  unfold Value.orElse at htext
  split at htext
  · exact h.kind kind htext hmem
  · cases htext
    exact absurd hmem (by decide)

private theorem settles_groupsOf (hseen : Sound (answered f connected) seen) (hrow : WellTyped row) :
    ∃ seen', Sound (answered f connected) seen' ∧
      Settles (σ := σ) f connected (groupsOf seen row)
        (do return (← leads (answered f connected) row, seen')) := by
  unfold groupsOf leads
  cases hkind : ((row.get "type").orElse (.text "")).asText "strip" with
  | error e => exact ⟨seen, hseen, fun _ hw => ⟨rfl, hw⟩⟩
  | ok kind =>
    by_cases hgroup : (Text.strip kind == "ThreatGroup") = true
    · refine ⟨seen, hseen, ?_⟩
      rw [bind_assoc]
      refine Job.settles_bind (Job.settles_lift _) ?_
      rintro _ ⟨⟩
      dsimp only
      rw [if_pos hgroup, if_pos hgroup, bind_assoc]
      refine Job.settles_bind (Job.settles_ask _ _) fun rows _ => ?_
      cases rows with
      | nil => exact Job.settles_pure _
      | cons _ _ => exact Job.settles_bind (Job.settles_lift _) fun _ _ => Job.settles_pure _
    · obtain ⟨seen', hseen', hbehind⟩ :=
        settles_groupsBehind (σ := σ) hseen hrow.label (hrow.plain hkind)
      refine ⟨seen', hseen', ?_⟩
      rw [bind_assoc]
      refine Job.settles_bind (Job.settles_lift _) ?_
      rintro _ ⟨⟩
      dsimp only
      rw [if_neg hgroup, if_neg hgroup]
      exact hbehind

/-- Whatever the graph answers, it is settled whether the other names of a group can be used. -/
theorem exists_settles_checkAliases (f : Query → Answer) (connected : Bool) :
    ∃ check : Value → Except Failure Unit,
      ∀ name, Settles (σ := σ) f connected (checkAliases name) (check name) := by
  refine Classical.skolem.mp fun name => ?_
  unfold checkAliases
  refine Job.exists_settles_bind ⟨_, Job.settles_ask _ _⟩ fun rows => ?_
  cases rows with
  | nil => exact ⟨_, Job.settles_pure _⟩
  | cons row _ =>
    refine Job.exists_settles_bind ⟨_, Job.settles_lift _⟩ fun aliases => ?_
    split
    · refine Job.exists_settles_bind ⟨_, Job.settles_lift _⟩ fun _ => ?_
      refine Job.exists_settles_bind ⟨_, Job.settles_lift _⟩ fun _ => ?_
      split
      · exact ⟨_, Job.settles_pure _⟩
      · exact ⟨_, Job.settles_throw _⟩
    · exact ⟨_, Job.settles_pure _⟩

/-- A group of a known name that passed the check, with a distance that is a number. -/
structure Ready (check : Value → Except Failure Unit) (Known : Value → Prop) (g : Group) : Prop where
  passed : check g.name = .ok ()
  known : Known g.name
  nearest : ∃ d, g.nearest = .int d

variable {check : Value → Except Failure Unit} {Known : Value → Prop} {clues : Clues} {row : Row}
  {groups : List Group} {name : Value}

private theorem Ready.sighted {g : Group} (h : Ready check Known g) (s : Sighting) :
    Ready check Known (g.sighted clues s) := by
  obtain ⟨d, hd⟩ := h.nearest
  refine ⟨h.passed, h.known, min d s.distance, ?_⟩
  simp only [Group.sighted, Group.absorb, hd, closer]

private theorem ready_enrol (h : ∀ g ∈ groups, Ready check Known g) (hcheck : check name = .ok ())
    (hknown : Known name) : ∀ g ∈ enrol groups name, Ready check Known g := by
  unfold enrol
  split
  · exact h
  · intro g hg
    rcases List.mem_append.mp hg with hg | hg
    · exact h g hg
    · rw [List.mem_singleton.mp hg]
      exact ⟨hcheck, hknown, 999, rfl⟩

private theorem ready_record (h : ∀ g ∈ groups, Ready check Known g) {s : Sighting}
    (hcheck : check s.name = .ok ()) (hknown : Known s.name) :
    ∀ g ∈ record clues groups s, Ready check Known g := by
  intro g' hg'
  obtain ⟨g, hg, rfl⟩ := List.mem_map.mp hg'
  have hready := ready_enrol h hcheck hknown g hg
  split
  · exact hready.sighted s
  · exact hready

private theorem ready_foldl {sightings : List Sighting} (h : ∀ g ∈ groups, Ready check Known g)
    (hpassed : ∀ s ∈ sightings, check s.name = .ok () ∧ Known s.name) :
    ∀ g ∈ sightings.foldl (record clues) groups, Ready check Known g := by
  induction sightings generalizing groups with
  | nil => exact h
  | cons s sightings ih =>
    obtain ⟨hcheck, hknown⟩ := hpassed s List.mem_cons_self
    exact ih (ready_record h hcheck hknown) fun t ht => hpassed t (List.mem_cons_of_mem _ ht)

private theorem sight_eq (hrow : WellTyped row) {g : Group} (hnearest : ∃ d, g.nearest = .int d)
    (name : Value) :
    sight clues row g =
      (pathOf row).map fun path => g.sighted clues ⟨name, stepsOf row, path⟩ := by
  obtain ⟨d, hd⟩ := hnearest
  unfold sight Group.sighted
  rw [hrow.distanceOf, hd, lesser_int]
  cases pathOf row with
  | error e => rfl
  | ok path => rfl

private theorem mapM_sight (hrow : WellTyped row) (hnearest : ∀ g ∈ groups, ∃ d, g.nearest = .int d)
    (hknown : groups.any (·.name == name) = true) :
    (groups.mapM fun g => if g.name == name then sight clues row g else pure g).toOption =
      ((pathOf row).map fun path => groups.map fun g =>
        if g.name == name then g.sighted clues ⟨name, stepsOf row, path⟩ else g).toOption := by
  cases hpath : pathOf row with
  | ok path =>
    refine congrArg Except.toOption (mapM_eq_ok.mpr ?_)
    rw [List.forall₂_map_right_iff, List.forall₂_same]
    intro g hg
    split
    · rw [sight_eq hrow (hnearest g hg) name, hpath]
      rfl
    · rfl
  | error e =>
    cases hall : groups.mapM fun g => if g.name == name then sight clues row g else pure g with
    | error _ => rfl
    | ok groups' =>
      obtain ⟨g, hg, hname⟩ := List.any_eq_true.mp hknown
      obtain ⟨g', -, hsight⟩ := exists_right_of_forall₂ (mapM_eq_ok.mp hall) hg
      rw [if_pos hname, sight_eq hrow (hnearest g hg) name, hpath] at hsight
      cases hsight

private theorem any_enrol (hself : (name == name) = true) :
    (enrol groups name).any (·.name == name) = true := by
  unfold enrol
  split
  case isTrue hknown => exact hknown
  case isFalse => simp [hself]

theorem passed_of_sightingOf {s : Sighting} (h : sightingOf check row name = .ok s) :
    s.name = name ∧ check name = .ok () := by
  obtain ⟨name', hname, h⟩ := bind_eq_ok.mp h
  obtain rfl := Value.eq_of_hashable hname
  obtain ⟨_, hcheck, h⟩ := bind_eq_ok.mp h
  obtain ⟨path, -, h⟩ := bind_eq_ok.mp h
  obtain rfl := pure_eq_ok.mp h
  exact ⟨rfl, hcheck⟩

variable (hcheck : ∀ name, Settles (σ := σ) f connected (checkAliases name) (check name))
  (htold : ∀ v w, Known v → Known w → ((v == w) = true ↔ v = w))

include hcheck htold

/-- A name that is met is recorded as a sighting. A known group would pass the check again. -/
theorem settles_meet (hrow : WellTyped row) (hready : ∀ g ∈ groups, Ready check Known g)
    (htruthy : name.truthy = true) (hknown : Known name) :
    Settles (σ := σ) f connected (meet clues row groups name)
      (do return record clues groups (← sightingOf check row name)) := by
  unfold meet enlist sightAll sightingOf
  rw [htruthy, bind_assoc]
  refine Job.settles_bind (Job.settles_lift _) fun name' hname' => ?_
  obtain rfl := Value.eq_of_hashable hname'
  have hsights (hpassed : check name = .ok ()) : Settles (σ := σ) f connected
      (liftM ((enrol groups name).mapM fun g =>
        if g.name == name then sight clues row g else pure g))
      (do return record clues groups ⟨name, stepsOf row, ← pathOf row⟩) := by
    have hnearest : ∀ g ∈ enrol groups name, ∃ d, g.nearest = .int d :=
      fun g hg => (ready_enrol hready hpassed hknown g hg).nearest
    have hany : (enrol groups name).any (·.name == name) = true :=
      any_enrol ((htold name name hknown hknown).mpr rfl)
    refine (Job.settles_lift _).congr ((mapM_sight hrow hnearest hany).trans ?_)
    cases pathOf row with
    | error e => rfl
    | ok path => rfl
  rw [bind_assoc]
  unfold enrol at hsights
  split
  case isTrue hmet =>
    obtain ⟨g, hg, hname⟩ := List.any_eq_true.mp hmet
    obtain ⟨hpassed, hgknown, -⟩ := hready g hg
    rw [(htold g.name name hgknown hknown).mp hname] at hpassed
    rw [if_pos hmet] at hsights
    rw [pure_bind, hpassed]
    exact (hsights hpassed).congr (by rw [bind_assoc]; rfl)
  case isFalse hnew =>
    rw [if_neg hnew] at hsights
    rw [bind_assoc]
    refine Job.settles_bind (hcheck name) fun _ hpassed => ?_
    rw [pure_bind]
    exact (hsights hpassed).congr (by rw [bind_assoc]; rfl)

private theorem settles_meetAll (hrow : WellTyped row) {names : List Value}
    (hready : ∀ g ∈ groups, Ready check Known g)
    (hknown : ∀ name ∈ names, name.truthy = true → Known name) :
    Settles (σ := σ) f connected (meetAll clues row names groups)
      (do return ((← (names.filter Value.truthy).mapM (sightingOf check row)).foldl
        (record clues) groups)) := by
  induction names generalizing groups with
  | nil => exact Job.settles_pure _
  | cons name names ih =>
    have hrest := fun name hname => hknown name (List.mem_cons_of_mem _ hname)
    by_cases htruthy : name.truthy = true
    · have hname := hknown name List.mem_cons_self htruthy
      rw [List.filter_cons_of_pos htruthy, List.mapM_cons, meetAll]
      have hmeet : Settles (σ := σ) f connected (meet clues row groups name) _ :=
        settles_meet hcheck htold hrow hready htruthy hname
      refine (Job.settles_bind hmeet fun groups' hgroups' => ih ?_ hrest).congr ?_
      · obtain ⟨s, hs, hgroups'⟩ := bind_eq_ok.mp hgroups'
        obtain rfl := pure_eq_ok.mp hgroups'
        obtain ⟨rfl, hpassed⟩ := passed_of_sightingOf hs
        exact ready_record hready hpassed hname
      · cases sightingOf check row name with
        | error e => rfl
        | ok s => cases (names.filter Value.truthy).mapM (sightingOf check row) <;> rfl
    · rw [List.filter_cons_of_neg htruthy, meetAll]
      have hskip : meet (σ := σ) clues row groups name = pure groups := by
        rw [meet, Bool.not_eq_true _ |>.mp htruthy]
        rfl
      rw [hskip, pure_bind]
      exact ih hready hrest

/-- The rows are taken one after the other; what was looked up before makes no difference. -/
theorem settles_gather {rows : List Row} (hseen : Sound (answered f connected) seen)
    (hready : ∀ g ∈ groups, Ready check Known g) (hrows : ∀ row ∈ rows, WellTyped row)
    (hknown : ∀ row ∈ rows, ∀ names, leads (answered f connected) row = .ok names →
      ∀ name ∈ names, name.truthy = true → Known name) :
    Settles (σ := σ) f connected (gather clues rows seen groups)
      (gathered (answered f connected) check clues groups rows) := by
  induction rows generalizing seen groups with
  | nil => exact Job.settles_pure _
  | cons row rows ih =>
    have hrow := hrows row List.mem_cons_self
    have hrest := fun row hmem => hrows row (List.mem_cons_of_mem _ hmem)
    have hrestKnown := fun row hmem => hknown row (List.mem_cons_of_mem _ hmem)
    obtain ⟨seen', hseen', hgroups⟩ := settles_groupsOf (σ := σ) hseen hrow
    rw [gather, gathered_cons, sightingsOf, bind_assoc]
    refine (Job.settles_bind hgroups (k := fun found => do
      let sightings ← (found.1.filter Value.truthy).mapM (sightingOf check row)
      gathered (answered f connected) check clues (sightings.foldl (record clues) groups) rows)
      ?_).congr (by rw [bind_assoc]; rfl)
    rintro ⟨names, _⟩ hfound
    obtain ⟨_, hleads, hfound⟩ := bind_eq_ok.mp hfound
    cases pure_eq_ok.mp hfound
    have hnames := hknown row List.mem_cons_self names hleads
    have hmeet : Settles (σ := σ) f connected (meetAll clues row names groups) _ :=
      settles_meetAll hcheck htold hrow hready hnames
    refine (Job.settles_bind hmeet fun groups' hgroups' => ih hseen' ?_ hrest hrestKnown).congr
      (by rw [bind_assoc]; rfl)
    obtain ⟨sightings, hsightings, hgroups'⟩ := bind_eq_ok.mp hgroups'
    obtain rfl := pure_eq_ok.mp hgroups'
    refine ready_foldl hready fun s hs => ?_
    obtain ⟨name, hname, hs⟩ := exists_left_of_forall₂ (mapM_eq_ok.mp hsightings) hs
    obtain ⟨hmem, htruthy⟩ := List.mem_filter.mp hname
    obtain ⟨rfl, hpassed⟩ := passed_of_sightingOf hs
    exact ⟨hpassed, hnames _ hmem htruthy⟩

end ThreatAtlas.Correlation
