import ThreatAtlas.Feed.AttackBundle
import ThreatAtlas.Proofs.Files

/-!
# The graph of a bundle

The tables that are made of a bundle form a graph when the objects have ids of their own: no two nodes
have one id, every link joins two nodes, and no node comes from a retired object.
-/

namespace ThreatAtlas.Feed.AttackBundle

open Job (Returns)

def Tables.ids (t : Tables) : List String :=
  t.nodes.map fun n => Csv.cell n.id

def textId? (o : Value) : Option String :=
  match o.get "id" with
  | .ok (.text id) => some id
  | _ => none

variable {o : Value} {objects : List Value}

theorem textId?_eq_some_iff {id : String} : textId? o = some id ↔ o.get "id" = .ok (.text id) := by
  unfold textId?
  split
  case h_1 id' hid => rw [hid, Option.some.injEq, Except.ok.injEq, Value.text.injEq]
  case h_2 hother => exact ⟨nofun, fun h => absurd h (hother id)⟩

/-- The objects have texts as ids, no two the same, and none that is kept for aliases. -/
structure Identified (objects : List Value) : Prop where
  textual : ∀ o ∈ objects, ∃ id, textId? o = some id ∧ Text.startsWith "alias--" id = false
  distinct : (objects.map textId?).Nodup

theorem Identified.eq_of_id (h : Identified objects) {o' : Value} (ho : o ∈ objects) (ho' : o' ∈ objects)
    (hid : o.get "id" = o'.get "id") : o = o' := by
  apply List.inj_on_of_nodup_map h.distinct ho ho'
  rw [textId?, textId?, hid]

theorem identified_of_textIds {ids : List String} (h : objects.map textId? = ids.map some)
    (hdistinct : ids.Nodup) (hplain : ∀ id ∈ ids, Text.startsWith "alias--" id = false) :
    Identified objects where
  textual := by
    intro o ho
    have hid : textId? o ∈ ids.map some := h ▸ List.mem_map_of_mem ho
    obtain ⟨id, hid, hsome⟩ := List.mem_map.mp hid
    exact ⟨id, hsome.symm, hplain id hid⟩
  distinct := by
    rw [h]
    exact hdistinct.map (Option.some_injective _)

private theorem startsWith_aliasId (name : String) : ∃ id, aliasId name = .text id ∧
    Text.startsWith "alias--" id = true := by
  refine ⟨_, rfl, ?_⟩
  rw [Text.startsWith, String.toList_append, List.isPrefixOf_iff_prefix]
  exact List.prefix_append _ _

theorem Identified.ne_aliasId (h : Identified objects) {id : Value} (ho : o ∈ objects)
    (hid : o.get "id" = .ok id) (name : String) : id ≠ aliasId name := by
  rintro rfl
  obtain ⟨s, hs, hplain⟩ := h.textual o ho
  obtain ⟨a, ha, hstarts⟩ := startsWith_aliasId name
  rw [textId?_eq_some_iff, hid, ha, Except.ok.injEq, Value.text.injEq] at hs
  rw [hs, hplain] at hstarts
  cases hstarts

def Tables.Has (t : Tables) (id : Value) : Prop :=
  ∃ n ∈ t.nodes, (n.id == id) = true

/-- The link is the one that a relationship of the bundle asks for. -/
structure Relates (o : Value) (l : Link) : Prop where
  type : o.get "type" = .ok (.text "relationship")
  source : o.get "source_ref" = .ok l.source
  target : o.get "target_ref" = .ok l.target
  name : ∃ s, o.get "relationship_type" = .ok (.text s) ∧ l.type = Text.replace "-" "_" (Text.upper s)

theorem Relates.unique {l l' : Link} (h : Relates o l) (h' : Relates o l') : l = l' := by
  obtain ⟨s, hs, htype⟩ := h.name
  obtain ⟨s', hs', htype'⟩ := h'.name
  obtain ⟨source, target, type⟩ := l
  obtain ⟨source', target', type'⟩ := l'
  obtain rfl : source = source' := Except.ok.inj (h.source.symm.trans h'.source)
  obtain rfl : target = target' := Except.ok.inj (h.target.symm.trans h'.target)
  obtain rfl : s = s' := Value.text.inj (Except.ok.inj (hs.symm.trans hs'))
  rw [show type = type' from htype.trans htype'.symm]

def Named (o : Value) (name : String) : Prop :=
  o.getD "name" (.text "Unknown") = .ok (.text name)

def ownName (o : Value) : String :=
  match o.getD "name" (.text "Unknown") with
  | .ok (.text name) => name
  | _ => ""

theorem Named.ownName_eq {name : String} (h : Named o name) : ownName o = name := by
  rw [ownName, show o.getD "name" _ = _ from h]

def labelOf (o : Value) : Option String :=
  match (do label? (← o.get "type") : Except Failure (Option String)) with
  | .ok label => label
  | .error _ => none

private theorem labelOf_eq {type : Value} {label : Option String} (htype : o.get "type" = .ok type)
    (hlabel : label? type = .ok label) : labelOf o = label := by
  have : (do label? (← o.get "type") : Except Failure (Option String)) = .ok label :=
    bind_eq_ok.mpr ⟨type, htype, hlabel⟩
  rw [labelOf, this]

def aliasNode (o : Value) (name : String) : Node :=
  { id := aliasId name, label := (labelOf o).getD "BaseNode", name, attackId := .text "Alias",
    description := s!"Alias for '{ownName o}'" }

def aliasesOf (o : Value) : Except Failure (List Value) := do
  if ← isRetired o then return []
  let aliases ← o.getD "aliases" (.list [])
  let aliases ← if aliases.truthy then .ok aliases else o.getD "x_mitre_aliases" (.list [])
  if !aliases.truthy then return []
  aliases.elements

/-- The tables form a graph, whose nodes come from the objects and their aliases. -/
structure Sound (objects : List Value) (t : Tables) : Prop where
  textual : ∀ n ∈ t.nodes, ∃ id, n.id = .text id
  distinct : t.ids.Nodup
  origin : ∀ n ∈ t.nodes, (∃ o ∈ objects, isRetired o = .ok false ∧ o.get "id" = .ok n.id) ∨
    ∃ name, n.id = aliasId name
  known : ∀ low id, (low, id) ∈ t.idByName → (∃ n ∈ t.nodes, n.id = id) ∧
    ∃ o ∈ objects, o.get "id" = .ok id ∧ ∃ name, Named o name ∧ Text.lower name = low
  ends : ∀ l ∈ t.links, (∃ n ∈ t.nodes, n.id = l.source) ∧ ∃ n ∈ t.nodes, n.id = l.target
  loops : ∀ l ∈ t.links, l.source = l.target → ∃ o ∈ objects, Relates o l

section

variable {t t' : Tables}
variable {id o : Value} {name : String}

theorem has_of_hasId {b : Bool} (h : t.hasId id = .ok b) : t.Has id ↔ b = true := by
  obtain ⟨id', hid, h⟩ := bind_eq_ok.mp h
  cases h
  rw [Tables.Has, Value.eq_of_hashable hid, List.any_eq_true]

private theorem hasId_iff (htextual : ∀ n ∈ t.nodes, ∃ id, n.id = .text id) {v : Value} {b : Bool}
    (h : t.hasId v = .ok b) : b = true ↔ ∃ n ∈ t.nodes, n.id = v := by
  rw [← has_of_hasId h]
  constructor
  · intro hhas
    obtain ⟨n, hn, hsame⟩ := hhas
    obtain ⟨s, hs⟩ := htextual n hn
    rw [hs, Value.text_beq_iff] at hsame
    exact ⟨n, hn, by rw [hs, hsame]⟩
  · intro hnode
    obtain ⟨n, hn, rfl⟩ := hnode
    obtain ⟨s, hs⟩ := htextual n hn
    exact ⟨n, hn, by rw [hs, Value.text_beq_iff]⟩

private theorem mem_ids_iff (htextual : ∀ n ∈ t.nodes, ∃ id, n.id = .text id) {id : String} :
    id ∈ t.ids ↔ ∃ n ∈ t.nodes, n.id = .text id := by
  unfold Tables.ids
  rw [List.mem_map]
  constructor
  · intro hmem
    obtain ⟨n, hn, hcell⟩ := hmem
    obtain ⟨s, hs⟩ := htextual n hn
    rw [hs] at hcell
    cases hcell
    exact ⟨n, hn, hs⟩
  · intro hmem
    obtain ⟨n, hn, hid⟩ := hmem
    exact ⟨n, hn, by rw [hid]; rfl⟩

private theorem nodeOf_eq_ok {type : Value} {label : String} {n : Node} (h : nodeOf o type label = .ok n) :
    o.get "id" = .ok n.id ∧ n.id.hashable = .ok n.id ∧ Named o n.name ∧ n.label = label := by
  obtain ⟨id, hid, h⟩ := bind_eq_ok.mp h
  obtain ⟨own, hown, h⟩ := bind_eq_ok.mp h
  obtain ⟨name, hname, h⟩ := bind_eq_ok.mp h
  obtain ⟨description, -, h⟩ := bind_eq_ok.mp h
  obtain ⟨description, -, h⟩ := bind_eq_ok.mp h
  obtain ⟨found, -, h⟩ := bind_eq_ok.mp h
  rw [Value.asText_eq_ok hname] at hown
  have hend (attackId : Value) (hrun : (do
      let id ← id.hashable
      return ⟨id, label, name, attackId, Text.take 1000 description⟩) = Except.ok n) :
      o.get "id" = .ok n.id ∧ n.id.hashable = .ok n.id ∧ Named o n.name ∧ n.label = label := by
    obtain ⟨id', hid', hrun⟩ := bind_eq_ok.mp hrun
    cases hrun
    obtain rfl := Value.eq_of_hashable hid'
    exact ⟨hid, hid', hown, rfl⟩
  dsimp only at h
  split at h
  all_goals
    obtain ⟨attackId, -, h⟩ := bind_eq_ok.mp h
    exact hend attackId h

structure MadeOf (o : Value) (n : Node) : Prop where
  live : isRetired o = .ok false
  id : o.get "id" = .ok n.id
  hashable : n.id.hashable = .ok n.id
  named : Named o n.name
  label : labelOf o = some n.label

/-- The first pass leaves the tables alone, or adds the node of an object that is not retired. -/
theorem addMain_cases (h : addMain t o = .ok t') : (t' = t ∧ (isRetired o = .ok true ∨ labelOf o = none)) ∨
    ∃ n, MadeOf o n ∧
      t' = { t.addNode n with idByName := (Text.lower n.name, n.id) :: t.idByName } := by
  obtain ⟨type, htype, h⟩ := bind_eq_ok.mp h
  obtain ⟨retired, hretired, h⟩ := bind_eq_ok.mp h
  cases retired with
  | true =>
    cases h
    exact .inl ⟨rfl, .inl hretired⟩
  | false =>
    obtain ⟨label, hlabel, h⟩ := bind_eq_ok.mp h
    have hlabelOf := labelOf_eq htype hlabel
    cases label with
    | none =>
      cases h
      exact .inl ⟨rfl, .inr hlabelOf⟩
    | some label =>
      obtain ⟨n, hn, h⟩ := bind_eq_ok.mp h
      cases h
      obtain ⟨hid, hhashable, hname, rfl⟩ := nodeOf_eq_ok hn
      exact .inr ⟨n, ⟨hretired, hid, hhashable, hname, hlabelOf⟩, rfl⟩

/-- The node an alias leads to: one that goes by this name, or the node of the alias, which may be new. -/
inductive Leads (t : Tables) (o : Value) (name : String) : Value → Tables → Prop
  | named {id : Value} (h : t.idByName.lookup (Text.lower name) = some id) : Leads t o name id t
  | known (h : t.idByName.lookup (Text.lower name) = none)
      (hknown : t.hasId (aliasId name) = .ok true) : Leads t o name (aliasId name) t
  | new (h : t.idByName.lookup (Text.lower name) = none)
      (hfree : t.hasId (aliasId name) = .ok false) :
      Leads t o name (aliasId name) (t.addNode (aliasNode o name))

/-- An alias that is the object's own name is passed over. Of another one the node is found or made, and
the object is linked to it if both are nodes. -/
theorem addAlias_cases (h : addAlias o t name = .ok t') :
    ∃ own, Named o own ∧ ((Text.lower name = Text.lower own ∧ t' = t) ∨
      Text.lower name ≠ Text.lower own ∧ ∃ target t₁ id begins ends, Leads t o name target t₁ ∧
        o.get "id" = .ok id ∧ t₁.hasId id = .ok begins ∧ t₁.hasId target = .ok ends ∧
        t' = if begins && ends then t₁.addLink ⟨id, target, "ALIASED_AS"⟩ else t₁) := by
  obtain ⟨own, hown, h⟩ := bind_eq_ok.mp h
  obtain ⟨ownName, hownName, h⟩ := bind_eq_ok.mp h
  obtain rfl := Value.asText_eq_ok hownName
  refine ⟨ownName, hown, ?_⟩
  split at h
  case isTrue hsame =>
    cases h
    exact .inl ⟨by simpa using hsame, rfl⟩
  case isFalse hother =>
    refine .inr ⟨by simpa using hother, ?_⟩
    have hend {target : Value} {t₁ : Tables} (hleads : Leads t o name target t₁) (hrun : (do
        let id ← o.get "id"
        if (← t₁.hasId id) && (← t₁.hasId target) then return t₁.addLink ⟨id, target, "ALIASED_AS"⟩
        else return t₁) = Except.ok t') :
        ∃ target t₁ id begins ends, Leads t o name target t₁ ∧
          o.get "id" = .ok id ∧ t₁.hasId id = .ok begins ∧ t₁.hasId target = .ok ends ∧
          t' = if begins && ends then t₁.addLink ⟨id, target, "ALIASED_AS"⟩ else t₁ := by
      obtain ⟨id, hid, hrun⟩ := bind_eq_ok.mp hrun
      obtain ⟨begins, hbegins, hrun⟩ := bind_eq_ok.mp hrun
      obtain ⟨ends, hends, hrun⟩ := bind_eq_ok.mp hrun
      refine ⟨target, t₁, id, begins, ends, hleads, hid, hbegins, hends, ?_⟩
      by_cases hboth : (begins && ends) = true
      · rw [if_pos hboth] at hrun ⊢
        cases hrun
        rfl
      · rw [if_neg hboth] at hrun ⊢
        cases hrun
        rfl
    cases hlookup : t.idByName.lookup (Text.lower name) with
    | some id =>
      rw [hlookup] at h
      exact hend (.named hlookup) h
    | none =>
      rw [hlookup] at h
      obtain ⟨known, hknown, h⟩ := bind_eq_ok.mp h
      cases known with
      | true => exact hend (.known hlookup hknown) h
      | false =>
        obtain ⟨type, htype, h⟩ := bind_eq_ok.mp h
        obtain ⟨label, hlabel, h⟩ := bind_eq_ok.mp h
        have hleads := Leads.new (o := o) hlookup hknown
        rw [aliasNode, labelOf_eq htype hlabel, Named.ownName_eq hown] at hleads
        exact hend hleads h

theorem addAliases_eq_ok (h : addAliases t o = .ok t') : ∃ names, aliasesOf o = .ok names ∧
    names.foldlM (fun t name => do addAlias o t (← name.asText "lower")) t = .ok t' := by
  obtain ⟨retired, hretired, h⟩ := bind_eq_ok.mp h
  unfold aliasesOf
  rw [hretired]
  cases retired with
  | true =>
    cases h
    exact ⟨[], rfl, rfl⟩
  | false =>
    have hend (aliases : Value) (hrun : (if !aliases.truthy then return t else do
        (← aliases.elements).foldlM (fun t name => do addAlias o t (← name.asText "lower")) t) =
          Except.ok t') : ∃ names,
        (if !aliases.truthy then return [] else aliases.elements) = Except.ok names ∧
        names.foldlM (fun t name => do addAlias o t (← name.asText "lower")) t = .ok t' := by
      by_cases hnone : (!aliases.truthy) = true
      · rw [if_pos hnone] at hrun ⊢
        cases hrun
        exact ⟨[], rfl, rfl⟩
      · rw [if_neg hnone] at hrun ⊢
        exact bind_eq_ok.mp hrun
    obtain ⟨aliases, haliases, h⟩ := bind_eq_ok.mp h
    dsimp only at h
    split at h
    case isTrue hlisted =>
      obtain ⟨_, hsame, h⟩ := bind_eq_ok.mp h
      cases hsame
      obtain ⟨names, hnames, hfold⟩ := hend aliases h
      refine ⟨names, bind_eq_ok.mpr ⟨false, rfl, bind_eq_ok.mpr ⟨aliases, haliases, ?_⟩⟩, hfold⟩
      rw [if_pos hlisted]
      exact hnames
    case isFalse hlisted =>
      obtain ⟨others, hothers, h⟩ := bind_eq_ok.mp h
      obtain ⟨names, hnames, hfold⟩ := hend others h
      refine ⟨names, bind_eq_ok.mpr ⟨false, rfl, bind_eq_ok.mpr ⟨aliases, haliases, ?_⟩⟩, hfold⟩
      rw [if_neg hlisted]
      exact bind_eq_ok.mpr ⟨others, hothers, hnames⟩

theorem addRelationship_cases (h : addRelationship t o = .ok t') :
    (t' = t ∧ ∀ l, Relates o l → t.Has l.source → ¬ t.Has l.target) ∨
    ∃ l, Relates o l ∧ t.hasId l.source = .ok true ∧ t.hasId l.target = .ok true ∧
      t' = t.addLink l := by
  obtain ⟨type, htype, h⟩ := bind_eq_ok.mp h
  split at h
  case isTrue hother =>
    cases h
    refine .inl ⟨rfl, fun l hrelates => ?_⟩
    obtain rfl : type = .text "relationship" := Except.ok.inj (htype.symm.trans hrelates.type)
    exact absurd hother (by decide)
  case isFalse hrelationship =>
    obtain ⟨source, hsource, h⟩ := bind_eq_ok.mp h
    obtain ⟨target, htarget, h⟩ := bind_eq_ok.mp h
    have hname : type = .text "relationship" := by
      rw [← Value.beq_text_iff]
      simpa [bne] using hrelationship
    obtain ⟨begins, hbegins, h⟩ := bind_eq_ok.mp h
    cases begins with
    | false =>
      cases h
      refine .inl ⟨rfl, fun l hrelates hl => ?_⟩
      rw [← Except.ok.inj (hsource.symm.trans hrelates.source), has_of_hasId hbegins] at hl
      cases hl
    | true =>
      obtain ⟨ends, hends, h⟩ := bind_eq_ok.mp h
      cases ends with
      | false =>
        cases h
        refine .inl ⟨rfl, fun l hrelates _ hl => ?_⟩
        rw [← Except.ok.inj (htarget.symm.trans hrelates.target), has_of_hasId hends] at hl
        cases hl
      | true =>
        obtain ⟨word, hword, h⟩ := bind_eq_ok.mp h
        obtain ⟨s, hs, h⟩ := bind_eq_ok.mp h
        cases h
        rw [Value.asText_eq_ok hs] at hword
        exact .inr ⟨⟨source, target, _⟩, ⟨hname ▸ htype, hsource, htarget, s, hword, rfl⟩, hbegins,
          hends, rfl⟩

/-! What keeps tables sound -/

variable {objects : List Value}

private theorem sound_empty : Sound objects {} := by
  constructor <;> simp [Tables.ids]

private theorem Sound.addNode (h : Sound objects t) {n : Node} {id : String} (hid : n.id = .text id)
    (hfresh : ∀ m ∈ t.nodes, m.id ≠ n.id)
    (horigin : (∃ o ∈ objects, isRetired o = .ok false ∧ o.get "id" = .ok n.id) ∨
      ∃ name, n.id = aliasId name) : Sound objects (t.addNode n) where
  textual := by
    intro m hm
    rcases List.mem_append.mp hm with hm | hm
    · exact h.textual m hm
    · rw [List.mem_singleton.mp hm]
      exact ⟨id, hid⟩
  distinct := by
    have hnew : Csv.cell n.id ∉ t.ids := by
      rw [hid]
      intro hmem
      obtain ⟨m, hm, hsame⟩ := (mem_ids_iff h.textual).mp hmem
      exact hfresh m hm (hsame.trans hid.symm)
    have hids : (t.addNode n).ids = t.ids ++ [Csv.cell n.id] := by
      simp [Tables.ids, Tables.addNode]
    rw [hids, ← List.concat_eq_append, List.nodup_concat]
    exact ⟨hnew, h.distinct⟩
  origin := by
    intro m hm
    rcases List.mem_append.mp hm with hm | hm
    · exact h.origin m hm
    · rw [List.mem_singleton.mp hm]
      exact horigin
  known := by
    intro low id hknown
    obtain ⟨⟨m, hm, hsame⟩, howner⟩ := h.known low id hknown
    exact ⟨⟨m, List.mem_append_left _ hm, hsame⟩, howner⟩
  ends := by
    intro l hl
    obtain ⟨⟨a, ha, hsource⟩, b, hb, htarget⟩ := h.ends l hl
    exact ⟨⟨a, List.mem_append_left _ ha, hsource⟩, b, List.mem_append_left _ hb, htarget⟩
  loops := h.loops

private theorem Sound.addLink (h : Sound objects t) {l : Link}
    (hends : (∃ n ∈ t.nodes, n.id = l.source) ∧ ∃ n ∈ t.nodes, n.id = l.target)
    (hloop : l.source = l.target → ∃ o ∈ objects, Relates o l) : Sound objects (t.addLink l) where
  textual := h.textual
  distinct := h.distinct
  origin := h.origin
  known := h.known
  ends := by
    intro k hk
    rcases List.mem_append.mp hk with hk | hk
    · exact h.ends k hk
    · rw [List.mem_singleton.mp hk]
      exact hends
  loops := by
    intro k hk
    rcases List.mem_append.mp hk with hk | hk
    · exact h.loops k hk
    · rw [List.mem_singleton.mp hk]
      exact hloop

private theorem Sound.addName (h : Sound objects t) {low : String} (hnode : ∃ n ∈ t.nodes, n.id = id)
    (howner : ∃ o ∈ objects, o.get "id" = .ok id ∧ ∃ name, Named o name ∧ Text.lower name = low) :
    Sound objects { t with idByName := (low, id) :: t.idByName } where
  textual := h.textual
  distinct := h.distinct
  origin := h.origin
  known := by
    intro low' id' hknown
    rcases List.mem_cons.mp hknown with hnew | hold
    · cases hnew
      exact ⟨hnode, howner⟩
    · exact h.known low' id' hold
  ends := h.ends
  loops := h.loops

/-! The three passes -/

private theorem mainNodes_sound (hids : Identified objects) (h : mainNodes objects = .ok t) :
    Sound objects t := by
  have hpass : Sound objects t ∧ ∀ n ∈ t.nodes, ∃ o ∈ objects, o.get "id" = .ok n.id := by
    refine foldlM_induction (P := fun done t => Sound objects t ∧
      ∀ n ∈ t.nodes, ∃ o ∈ done, o.get "id" = .ok n.id) h ⟨sound_empty, by simp⟩ ?_
    intro done o rest t t' hobjects hinv hstep
    obtain ⟨hsound, hdone⟩ := hinv
    have ho : o ∈ objects := by simp [hobjects]
    rcases addMain_cases hstep with ⟨rfl, -⟩ | ⟨n, ⟨hlive, hid, -, hname, -⟩, rfl⟩
    · refine ⟨hsound, fun n hn => ?_⟩
      obtain ⟨o', ho', hid⟩ := hdone n hn
      exact ⟨o', List.mem_append_left _ ho', hid⟩
    · obtain ⟨id, htext, -⟩ := hids.textual o ho
      have hnid : n.id = .text id := Except.ok.inj (hid.symm.trans (textId?_eq_some_iff.mp htext))
      have hfresh : ∀ m ∈ t.nodes, m.id ≠ n.id := by
        intro m hm hsame
        obtain ⟨o', ho', hid'⟩ := hdone m hm
        have hdistinct := hids.distinct
        rw [hobjects, List.map_append, List.map_cons, List.nodup_append] at hdistinct
        refine hdistinct.2.2 _ (List.mem_map_of_mem ho') _ List.mem_cons_self ?_
        rw [textId?, textId?, hid', hid, hsame]
      have hadded := hsound.addNode hnid hfresh (.inl ⟨o, ho, hlive, hid⟩)
      have hnode : n ∈ (t.addNode n).nodes := by simp [Tables.addNode]
      refine ⟨hadded.addName ⟨n, hnode, rfl⟩ ⟨o, ho, hid, n.name, hname, rfl⟩, ?_⟩
      intro m hm
      rcases List.mem_append.mp hm with hm | hm
      · obtain ⟨o', ho', hid'⟩ := hdone m hm
        exact ⟨o', List.mem_append_left _ ho', hid'⟩
      · rw [List.mem_singleton.mp hm]
        exact ⟨o, by simp, hid⟩
  exact hpass.1

theorem Leads.sound {target : Value} {t₁ : Tables} (h : Leads t o name target t₁) (hsound : Sound objects t) :
    Sound objects t₁ := by
  cases h with
  | named _ => exact hsound
  | known _ _ => exact hsound
  | new _ hfree =>
    refine hsound.addNode (n := aliasNode o name) rfl ?_ (.inr ⟨name, rfl⟩)
    intro m hm hsame
    have := (hasId_iff hsound.textual hfree).mpr ⟨m, hm, hsame⟩
    cases this

/-- No alias leads an object back to itself: the alias is another name than its own, and the ids of
aliases are not those of objects. -/
theorem Leads.ne_id (hids : Identified objects) (hsound : Sound objects t) (ho : o ∈ objects) {own : String}
    {target : Value} {t₁ : Tables} (h : Leads t o name target t₁) (hown : Named o own)
    (hother : Text.lower name ≠ Text.lower own) (hid : o.get "id" = .ok id) : id ≠ target := by
  cases h with
  | named hlookup =>
    intro hsame
    obtain ⟨before, after, hsplit, -⟩ := List.lookup_eq_some_iff.mp hlookup
    obtain ⟨-, o', ho', hid', name', hname', hlow⟩ :=
      hsound.known (Text.lower name) target (by simp [hsplit])
    obtain rfl : o' = o := hids.eq_of_id ho' ho (by rw [hid', hid, hsame])
    have : name' = own := by
      have := hname'.symm.trans hown
      rwa [Except.ok.injEq, Value.text.injEq] at this
    exact hother (by rw [← hlow, this])
  | known _ _ => exact hids.ne_aliasId ho hid name
  | new _ _ => exact hids.ne_aliasId ho hid name

private theorem Sound.alias (hids : Identified objects) (hsound : Sound objects t) (ho : o ∈ objects)
    (h : addAlias o t name = .ok t') : Sound objects t' := by
  obtain ⟨own, hown, ⟨-, rfl⟩ |
    ⟨hother, target, t₁, id, begins, ends, hleads, hid, hbegins, hends, rfl⟩⟩ := addAlias_cases h
  · exact hsound
  · have hsound₁ := hleads.sound hsound
    split
    case isFalse => exact hsound₁
    case isTrue hboth =>
      rw [Bool.and_eq_true] at hboth
      refine hsound₁.addLink ⟨?_, ?_⟩ ?_
      · exact (hasId_iff hsound₁.textual hbegins).mp hboth.1
      · exact (hasId_iff hsound₁.textual hends).mp hboth.2
      · intro hloop
        exact absurd hloop (hleads.ne_id hids hsound ho hown hother hid)

private theorem withAliases_sound (hids : Identified objects) (hsound : Sound objects t)
    (h : withAliases objects t = .ok t') : Sound objects t' := by
  refine foldlM_induction (P := fun _ t => Sound objects t) h hsound ?_
  intro done o rest t t' hobjects hsound hstep
  have ho : o ∈ objects := by simp [hobjects]
  obtain ⟨names, -, hfold⟩ := addAliases_eq_ok hstep
  refine foldlM_induction (P := fun _ t => Sound objects t) hfold hsound ?_
  intro _ name _ t t' _ hsound hstep
  obtain ⟨name, -, hstep⟩ := bind_eq_ok.mp hstep
  exact hsound.alias hids ho hstep

private theorem withRelationships_sound (hsound : Sound objects t)
    (h : withRelationships objects t = .ok t') : Sound objects t' := by
  refine foldlM_induction (P := fun _ t => Sound objects t) h hsound ?_
  intro done o rest t t' hobjects hsound hstep
  have ho : o ∈ objects := by simp [hobjects]
  rcases addRelationship_cases hstep with ⟨rfl, -⟩ | ⟨l, hrelates, hsource, htarget, rfl⟩
  · exact hsound
  · refine hsound.addLink ⟨?_, ?_⟩ fun _ => ⟨o, ho, hrelates⟩
    · exact (hasId_iff hsound.textual hsource).mp rfl
    · exact (hasId_iff hsound.textual htarget).mp rfl

/-- The tables of a bundle whose objects have ids of their own form a graph. -/
theorem tablesOf_sound (hids : Identified objects) (h : tablesOf objects = .ok t) :
    Sound objects t := by
  obtain ⟨t₁, hmain, h⟩ := bind_eq_ok.mp h
  obtain ⟨t₂, haliases, h⟩ := bind_eq_ok.mp h
  exact withRelationships_sound (withAliases_sound hids (mainNodes_sound hids hmain) haliases) h

end

/-! What a run writes -/

def Bundles (files : Files) (objects : List Value) : Prop :=
  ∃ bundle v, files.Holds source bundle ∧ bundle.getD "objects" (.list []) = .ok v ∧
    v.elements = .ok objects

theorem Bundles.unique {files : Files} {objects' : List Value} (h : Bundles files objects)
    (h' : Bundles files objects') : objects = objects' := by
  obtain ⟨bundle, v, hholds, hv, helements⟩ := h
  obtain ⟨bundle', v', hholds', hv', helements'⟩ := h'
  obtain rfl := hholds.unique hholds'
  rw [hv, Except.ok.injEq] at hv'
  subst hv'
  rwa [helements, Except.ok.injEq] at helements'

def Written (files : Files) (t : Tables) : Prop :=
  files.place nodeTarget = .file (.text (Csv.write (nodeRecords t))) ∧
    files.place linkTarget = .file (.text (Csv.write (linkRecords t)))

variable {σ : Type}

theorem load_returns {w w' : World σ} (h : Returns load w objects w') : Bundles w.files objects := by
  unfold load at h
  rw [Job.returns_bind_of_returns (Job.outcome_fileExists source w)] at h
  dsimp only at h
  split at h
  case isTrue =>
    rw [Job.returns_bind_of_returns (Job.outcome_shownPath source w), Job.returns_say_bind,
      Job.returns_say_bind] at h
    exact absurd h Job.returns_throw
  case isFalse =>
    rw [Job.returns_bind_of_returns (Job.outcome_shownPath source w), Job.returns_say_bind] at h
    obtain ⟨bundle, w₁, hread, h⟩ := Job.returns_bind.mp h
    obtain ⟨hholds, rfl⟩ := Job.readJson_returns_iff.mp hread
    obtain ⟨v, hv, h⟩ := Job.returns_lift_bind.mp h
    rw [Job.returns_say_bind] at h
    obtain ⟨helements, -⟩ := Job.returns_lift.mp h
    exact ⟨bundle, v, hholds, hv, helements⟩

/-- A run that ends has made the tables of the bundle and written both of them. -/
theorem process_returns {w w' : World σ} (h : Returns process w () w') :
    ∃ objects w₁ t, Returns load w objects w₁ ∧ tablesOf objects = .ok t ∧ Written w'.files t := by
  unfold process at h
  obtain ⟨objects, w₁, hload, h⟩ := Job.returns_bind.mp h
  obtain ⟨t₁, hmain, h⟩ := Job.returns_lift_bind.mp h
  rw [Job.returns_say_bind] at h
  obtain ⟨t₂, haliases, h⟩ := Job.returns_lift_bind.mp h
  rw [Job.returns_say_bind] at h
  obtain ⟨t, hrelationships, h⟩ := Job.returns_lift_bind.mp h
  refine ⟨objects, w₁, t, hload, ?_, ?_⟩
  · exact bind_eq_ok.mpr ⟨t₁, hmain, bind_eq_ok.mpr ⟨t₂, haliases, hrelationships⟩⟩
  obtain ⟨_, w₂, -, h⟩ := Job.returns_bind.mp h
  rw [Job.returns_bind_of_returns (Job.outcome_shownPath nodeTarget w₂), Job.returns_say_bind] at h
  obtain ⟨_, w₃, hnodes, h⟩ := Job.returns_bind.mp h
  rw [Job.returns_bind_of_returns (Job.outcome_shownPath linkTarget w₃), Job.returns_say_bind] at h
  obtain ⟨_, w₄, hlinks, h⟩ := Job.returns_bind.mp h
  obtain rfl := Job.returns_say.mp h
  have hnodePlace := Job.place_of_writeText hnodes (by decide +kernel)
  have hlinkPlace := Job.place_of_writeText hlinks (by decide +kernel)
  refine ⟨?_, hlinkPlace⟩
  change w₄.files.place nodeTarget = _
  rw [(Job.writeText_returns hlinks).1]
  exact Files.place_put_of_ne _ hnodePlace (by decide +kernel) (by decide +kernel)

/-- What is written for a bundle whose objects have ids of their own is a graph: the ids of the nodes are
distinct, every link begins and ends at a node, and no retired object is a node. A node is linked to
itself as its own alias only where a relationship of the bundle says so. -/
theorem process_writes_graph {w w' : World σ} {objects : List Value} (hbundle : Bundles w.files objects)
    (hids : Identified objects) (hrun : Returns process w () w') :
    ∃ t, tablesOf objects = .ok t ∧ Written w'.files t ∧ t.ids.Nodup ∧
      (∀ l ∈ t.links, Csv.cell l.source ∈ t.ids ∧ Csv.cell l.target ∈ t.ids) ∧
      (∀ o ∈ objects, isRetired o = .ok true → ∀ id, textId? o = some id → id ∉ t.ids) ∧
      ∀ l ∈ t.links, l.type = "ALIASED_AS" → Csv.cell l.source = Csv.cell l.target →
        ∃ o ∈ objects, Relates o l := by
  obtain ⟨objects', w₁, t, hload, htables, hwritten⟩ := process_returns hrun
  obtain rfl := hbundle.unique (load_returns hload)
  have hsound := tablesOf_sound hids htables
  refine ⟨t, htables, hwritten, hsound.distinct, ?_, ?_, ?_⟩
  · intro l hl
    obtain ⟨⟨a, ha, hsource⟩, b, hb, htarget⟩ := hsound.ends l hl
    rw [← hsource, ← htarget]
    exact ⟨List.mem_map_of_mem ha, List.mem_map_of_mem hb⟩
  · intro o ho hretired id hid hmem
    obtain ⟨n, hn, hnid⟩ := (mem_ids_iff hsound.textual).mp hmem
    rw [textId?_eq_some_iff] at hid
    rcases hsound.origin n hn with ⟨o', ho', hlive, hid'⟩ | ⟨name, halias⟩
    · obtain rfl : o' = o := hids.eq_of_id ho' ho (by rw [hid', hid, hnid])
      rw [hretired] at hlive
      cases hlive
    · exact hids.ne_aliasId ho hid name (hnid.symm.trans halias)
  · intro l hl _ hsame
    obtain ⟨⟨a, ha, hsource⟩, b, hb, htarget⟩ := hsound.ends l hl
    obtain ⟨s, hs⟩ := hsound.textual a ha
    obtain ⟨s', hs'⟩ := hsound.textual b hb
    rw [← hsource, ← htarget, hs, hs'] at hsame
    apply hsound.loops l hl
    rw [← hsource, ← htarget, hs, hs']
    exact congrArg Value.text hsame

/-- One object has another's name among its aliases, and a third is retired. -/
theorem process_writes_graph_alias_of_other :
    let w : World Steady :=
      { outside := ⟨.rows [], .content .null⟩
        files := ⟨[(source, .text ("\x7b\"objects\":[\x7b\"id\":\"a\",\"type\":\"tool\",\"aliases\":[\"B\"]\x7d," ++
          "\x7b\"id\":\"b\",\"type\":\"tool\",\"name\":\"b\"\x7d,\x7b\"id\":\"c\",\"type\":\"tool\",\"revoked\":1\x7d]\x7d"))],
          [targetDirectory]⟩ }
    ∃ objects w' t, Bundles w.files objects ∧ Identified objects ∧ Returns process w () w' ∧
      Written w'.files t ∧ t.ids = ["a", "b"] ∧ t.ids.Nodup ∧ t.links ≠ [] ∧
      ∀ l ∈ t.links, Csv.cell l.source ∈ t.ids ∧ Csv.cell l.target ∈ t.ids := by
  intro w
  obtain ⟨hok, hseen⟩ : (Job.outcome process w).1.isOk = true ∧
      (Job.outcome load w).1.toOption.map (fun objects => (objects.map textId?,
        (tablesOf objects).toOption.map fun t => (t.ids, t.links.isEmpty))) =
          some (["a", "b", "c"].map some, some (["a", "b"], false)) := by decide +kernel
  obtain ⟨_, w', hrun⟩ := Job.exists_returns_iff.mpr hok
  obtain ⟨objects, w₁, t, hload, htables, -⟩ := process_returns hrun
  rw [show Job.outcome _ _ = _ from hload, Except.toOption, Option.map_some, htables,
    Option.some.injEq, Prod.mk.injEq] at hseen
  obtain ⟨htextIds, htable⟩ := hseen
  have hids := identified_of_textIds htextIds (by decide) (by decide +kernel)
  obtain ⟨t', htables', hwritten, hdistinct, hends, -⟩ :=
    process_writes_graph (load_returns hload) hids hrun
  obtain rfl : t = t' := Except.ok.inj (htables.symm.trans htables')
  obtain ⟨hnodes, hlinks⟩ : t.ids = ["a", "b"] ∧ t.links.isEmpty = false := by
    simpa only [Except.toOption, Option.map_some, Option.some.injEq, Prod.mk.injEq] using htable
  refine ⟨objects, w', t, load_returns hload, hids, hrun, hwritten, hnodes, hdistinct, ?_, hends⟩
  exact List.isEmpty_eq_false_iff.mp hlinks

/-- A relationship that makes a node an alias of itself is written as it is. -/
theorem process_writes_loop :
    let w : World Steady :=
      { outside := ⟨.rows [], .content .null⟩
        files := ⟨[(source, .text ("\x7b\"objects\":[\x7b\"id\":\"a\",\"type\":\"tool\"\x7d," ++
          "\x7b\"id\":\"r\",\"type\":\"relationship\",\"source_ref\":\"a\",\"target_ref\":\"a\"," ++
          "\"relationship_type\":\"aliased-as\"\x7d]\x7d"))],
          [targetDirectory]⟩ }
    ∃ objects w' t, Bundles w.files objects ∧ Identified objects ∧ Returns process w () w' ∧
      Written w'.files t ∧ ∃ l ∈ t.links, l.type = "ALIASED_AS" ∧
        Csv.cell l.source = Csv.cell l.target := by
  intro w
  obtain ⟨hok, hseen⟩ : (Job.outcome process w).1.isOk = true ∧
      (Job.outcome load w).1.toOption.map (fun objects => (objects.map textId?,
        (tablesOf objects).toOption.map fun t => t.links.any fun l =>
          l.type == "ALIASED_AS" && Csv.cell l.source == Csv.cell l.target)) =
            some (["a", "r"].map some, some true) := by decide +kernel
  obtain ⟨_, w', hrun⟩ := Job.exists_returns_iff.mpr hok
  obtain ⟨objects, w₁, t, hload, htables, hwritten⟩ := process_returns hrun
  rw [show Job.outcome _ _ = _ from hload, Except.toOption, Option.map_some, htables,
    Option.some.injEq, Prod.mk.injEq] at hseen
  obtain ⟨htextIds, hloop⟩ := hseen
  have hids := identified_of_textIds htextIds (by decide) (by decide +kernel)
  have hloop : (t.links.any fun l =>
      l.type == "ALIASED_AS" && Csv.cell l.source == Csv.cell l.target) = true := by
    simpa only [Except.toOption, Option.map_some, Option.some.injEq] using hloop
  obtain ⟨l, hl, hboth⟩ := List.any_eq_true.mp hloop
  rw [Bool.and_eq_true, beq_iff_eq, beq_iff_eq] at hboth
  exact ⟨objects, w', t, load_returns hload, hids, hrun, hwritten, l, hl, hboth⟩

end ThreatAtlas.Feed.AttackBundle
