import ThreatAtlas.Proofs.Feed.AttackBundle
import ThreatAtlas.Proofs.Value.Comparison

/-!
# Aliases in the graph of a bundle

The second pass goes through the aliases of all objects in one order, and what a mention of an alias does
depends on the mentions before it. A mention makes a node if no object's node goes by the alias and no
mention before has made it. It makes a link if its own object is a node by then. So the nodes and links of
aliases can be read off from the list of mentions.
-/

namespace ThreatAtlas.Feed.AttackBundle

open Job (Returns)

/-- An object that is not retired, and an alias of it that is not its own name. -/
structure Mention where
  object : Value
  name : String

namespace Mention

/-- The last of the objects' nodes that goes by the alias, in whatever case. -/
def bearer (main : List Node) (m : Mention) : Option Node :=
  main.reverse.find? fun n => Text.lower n.name == Text.lower m.name

def source (m : Mention) : Value :=
  match m.object.get "id" with
  | .ok id => id
  | .error _ => .null

def target (main : List Node) (m : Mention) : Value :=
  ((m.bearer main).map Node.id).getD (aliasId m.name)

def node (m : Mention) : Node :=
  aliasNode m.object m.name

def link (main : List Node) (m : Mention) : Link :=
  ⟨m.source, m.target main, "ALIASED_AS"⟩

end Mention

def mentionsAmong (o : Value) (names : List Value) : List Mention :=
  names.filterMap fun
    | .text name => if Text.lower name = Text.lower (ownName o) then none else some ⟨o, name⟩
    | _ => none

def mentionsOf (o : Value) : List Mention :=
  match aliasesOf o with
  | .ok names => mentionsAmong o names
  | .error _ => []

def mentions (objects : List Value) : List Mention :=
  objects.flatMap mentionsOf

/-- There is a node of this id once these mentions have been met. -/
def Present (main : List Node) (done : List Mention) (id : Value) : Prop :=
  (∃ n ∈ main, (n.id == id) = true) ∨ ∃ m ∈ done, m.bearer main = none ∧ id = aliasId m.name

/-- A mention makes a node: no node goes by the alias, and none has its id. -/
def Coins (main : List Node) (before : List Mention) (m : Mention) : Prop :=
  m.bearer main = none ∧ ¬ Present main before (aliasId m.name)

private theorem present_concat {main : List Node} {done : List Mention} {m : Mention} {id : Value} :
    Present main (done ++ [m]) id ↔
      Present main done id ∨ (m.bearer main = none ∧ id = aliasId m.name) := by
  simp only [Present, List.mem_append, List.mem_singleton, or_and_right, exists_or, exists_eq_left,
    or_assoc]

structure NodesMet (main : List Node) (done : List Mention) (t : Tables) : Prop where
  names : t.idByName = main.reverse.map fun n => (Text.lower n.name, n.id)
  nodes : ∀ n, n ∈ t.nodes ↔ n ∈ main ∨
    ∃ before m, before ++ [m] <+: done ∧ Coins main before m ∧ n = m.node
  present : ∀ id, t.Has id ↔ Present main done id

structure Met (main : List Node) (done : List Mention) (t : Tables) : Prop extends
    NodesMet main done t where
  links : ∀ l, l ∈ t.links ↔ ∃ before m, before ++ [m] <+: done ∧
    Present main (before ++ [m]) m.source ∧ l = m.link main

section

variable {main : List Node} {done : List Mention} {m : Mention} {t t' : Tables}

private theorem concat_prefix_concat {α : Type} {before done : List α} {x y : α} :
    before ++ [x] <+: done ++ [y] ↔ (before = done ∧ x = y) ∨ before ++ [x] <+: done := by
  rw [List.prefix_concat_iff, ← List.concat_eq_append, ← List.concat_eq_append, List.concat_inj]

private theorem NodesMet.lookup (h : NodesMet main done t) (m : Mention) :
    t.idByName.lookup (Text.lower m.name) = (m.bearer main).map Node.id := by
  rw [h.names, Mention.bearer]
  induction main.reverse with
  | nil => rfl
  | cons n rest ih =>
    rw [List.map_cons, List.lookup_cons, List.find?_cons, ih, Bool.beq_comm]
    cases Text.lower n.name == Text.lower m.name <;> rfl

private theorem NodesMet.leads (h : NodesMet main done t) {target : Value} {t₁ : Tables}
    (hleads : Leads t m.object m.name target t₁) :
    NodesMet main (done ++ [m]) t₁ ∧ target = m.target main ∧ t₁.links = t.links := by
  have hlookup := h.lookup m
  have hkept (hcoins : ¬ Coins main done m) : NodesMet main (done ++ [m]) t := by
    refine ⟨h.names, fun n => ?_, fun id => ?_⟩
    · rw [h.nodes]
      simp only [concat_prefix_concat]
      grind
    · rw [h.present, present_concat]
      grind [Coins]
  cases hleads with
  | named hnamed =>
    rw [hnamed] at hlookup
    refine ⟨hkept ?_, ?_, rfl⟩
    · rintro ⟨hnone, -⟩
      rw [hnone] at hlookup
      cases hlookup
    · rw [Mention.target, ← hlookup]
      rfl
  | known hunnamed hknown =>
    refine ⟨hkept ?_, ?_, rfl⟩
    · rintro ⟨-, hfree⟩
      exact hfree ((h.present _).mp ((has_of_hasId hknown).mpr rfl))
    · rw [Mention.target, ← hlookup, hunnamed]
      rfl
  | new hunnamed hfree =>
    have hbearer : m.bearer main = none := by
      rw [hunnamed] at hlookup
      exact Option.map_eq_none_iff.mp hlookup.symm
    have hcoins : Coins main done m := by
      refine ⟨hbearer, fun hpresent => ?_⟩
      rw [← h.present, has_of_hasId hfree] at hpresent
      cases hpresent
    refine ⟨⟨h.names, fun n => ?_, fun id => ?_⟩, ?_, rfl⟩
    · simp only [Tables.addNode, List.mem_append, List.mem_singleton, h.nodes, concat_prefix_concat]
      grind [Mention.node]
    · rw [present_concat, ← h.present]
      simp only [Tables.Has, Tables.addNode, aliasNode, List.mem_append, List.mem_singleton,
        or_and_right, exists_or, exists_eq_left, aliasId, Value.text_beq_iff, hbearer, true_and]
    · rw [Mention.target, ← hlookup, hunnamed]
      rfl

private theorem present_target (m : Mention) (done : List Mention)
    (hmain : ∀ n ∈ main, n.id.hashable = .ok n.id) : Present main (done ++ [m]) (m.target main) := by
  cases hbearer : m.bearer main with
  | none => exact present_concat.mpr (.inr ⟨hbearer, by rw [Mention.target, hbearer]; rfl⟩)
  | some n =>
    have hn : n ∈ main := List.mem_reverse.mp (List.mem_of_find?_eq_some hbearer)
    refine .inl ⟨n, hn, ?_⟩
    rw [Mention.target, hbearer]
    exact Value.beq_self (hmain n hn)

/-- The step of the second pass: a mention adds its node and its link, or what of them is due. -/
theorem Met.addAlias (h : Met main done t) (hmain : ∀ n ∈ main, n.id.hashable = .ok n.id) {o : Value}
    {name : String} (hstep : AttackBundle.addAlias o t name = .ok t') :
    Met main (done ++ mentionsAmong o [.text name]) t' := by
  obtain ⟨own, hown, ⟨hsame, rfl⟩ |
    ⟨hother, target, t₁, id, begins, ends, hleads, hid, hbegins, hends, rfl⟩⟩ := addAlias_cases hstep
  · have : mentionsAmong o [.text name] = [] := by simp [mentionsAmong, hown.ownName_eq, hsame]
    rwa [this, List.append_nil]
  · have hmention : mentionsAmong o [.text name] = [⟨o, name⟩] := by
      simp [mentionsAmong, hown.ownName_eq, hother]
    rw [hmention]
    obtain ⟨hnodes, rfl, hlinks⟩ := h.toNodesMet.leads (m := ⟨o, name⟩) hleads
    have hsource : Mention.source ⟨o, name⟩ = id := by rw [Mention.source, hid]
    have hends : ends = true := by
      rw [← has_of_hasId hends, hnodes.present]
      exact present_target _ done hmain
    have hbegins : begins = true ↔ Present main (done ++ [⟨o, name⟩]) id := by
      rw [← has_of_hasId hbegins, hnodes.present]
    have hlink : Link.mk id (Mention.target main ⟨o, name⟩) "ALIASED_AS" =
        Mention.link main ⟨o, name⟩ := by
      rw [Mention.link, hsource]
    rw [hends, Bool.and_true, hlink]
    split
    case isTrue hpresent =>
      refine ⟨⟨hnodes.names, hnodes.nodes, hnodes.present⟩, fun l => ?_⟩
      simp only [Tables.addLink, List.mem_append, List.mem_singleton, hlinks, h.links,
        concat_prefix_concat]
      grind
    case isFalse habsent =>
      refine ⟨hnodes, fun l => ?_⟩
      simp only [hlinks, h.links, concat_prefix_concat]
      grind

private theorem mentionsAmong_append (o : Value) (names names' : List Value) :
    mentionsAmong o (names ++ names') = mentionsAmong o names ++ mentionsAmong o names' :=
  List.filterMap_append

variable {objects : List Value}

private theorem withAliases_met (h : Met main [] t) (hmain : ∀ n ∈ main, n.id.hashable = .ok n.id)
    (hpass : withAliases objects t = .ok t') : Met main (mentions objects) t' := by
  refine foldlM_induction (P := fun done t => Met main (mentions done) t) hpass h ?_
  intro done o rest t t' _ hmet hstep
  obtain ⟨names, hnames, hfold⟩ := addAliases_eq_ok hstep
  have hmentions : mentions (done ++ [o]) = mentions done ++ mentionsAmong o names := by
    simp [mentions, mentionsOf, hnames]
  rw [hmentions]
  refine foldlM_induction (P := fun met t => Met main (mentions done ++ mentionsAmong o met) t) hfold
    (by simpa [mentionsAmong] using hmet) ?_
  intro met name _ t t' _ hmet hstep
  obtain ⟨text, htext, hstep⟩ := bind_eq_ok.mp hstep
  rw [Value.asText_eq_ok htext, mentionsAmong_append, ← List.append_assoc]
  exact hmet.addAlias hmain hstep

/-! The other two passes -/

/-- The first pass makes a node of every object that is not retired and whose type becomes one. -/
structure Mains (objects : List Value) (t : Tables) : Prop where
  names : t.idByName = t.nodes.reverse.map fun n => (Text.lower n.name, n.id)
  links : t.links = []
  made : ∀ n ∈ t.nodes, ∃ o ∈ objects, MadeOf o n
  kept : ∀ o ∈ objects, isRetired o = .ok false → (labelOf o).isSome → ∃ n ∈ t.nodes, MadeOf o n

private theorem mainNodes_mains (h : mainNodes objects = .ok t) : Mains objects t := by
  refine foldlM_induction (P := Mains) h ⟨rfl, rfl, by simp, by simp⟩ ?_
  intro done o rest t t' _ hmains hstep
  rcases addMain_cases hstep with ⟨rfl, hpassed⟩ | ⟨n, hn, rfl⟩
  · refine ⟨hmains.names, hmains.links, fun n hn => ?_, fun o' ho' hlive hlabel => ?_⟩
    · obtain ⟨o', ho', hmade⟩ := hmains.made n hn
      exact ⟨o', List.mem_append_left _ ho', hmade⟩
    · rcases List.mem_append.mp ho' with ho' | ho'
      · exact hmains.kept o' ho' hlive hlabel
      · obtain rfl := List.mem_singleton.mp ho'
        rcases hpassed with hretired | hnone
        · rw [hretired] at hlive
          cases hlive
        · rw [hnone] at hlabel
          cases hlabel
  · refine ⟨?_, hmains.links, fun k hk => ?_, fun o' ho' hlive hlabel => ?_⟩
    · simp [Tables.addNode, hmains.names]
    · rcases List.mem_append.mp hk with hk | hk
      · obtain ⟨o', ho', hmade⟩ := hmains.made k hk
        exact ⟨o', List.mem_append_left _ ho', hmade⟩
      · rw [List.mem_singleton.mp hk]
        exact ⟨o, by simp, hn⟩
    · rcases List.mem_append.mp ho' with ho' | ho'
      · obtain ⟨k, hk, hmade⟩ := hmains.kept o' ho' hlive hlabel
        exact ⟨k, List.mem_append_left _ hk, hmade⟩
      · rw [List.mem_singleton.mp ho']
        exact ⟨n, by simp [Tables.addNode], hn⟩

private theorem Mains.hashable (h : Mains objects t) : ∀ n ∈ t.nodes, n.id.hashable = .ok n.id := by
  intro n hn
  obtain ⟨o, -, hmade⟩ := h.made n hn
  exact hmade.hashable

private theorem Mains.met (h : Mains objects t) : Met t.nodes [] t where
  names := h.names
  nodes := by simp
  present := by simp [Present, Tables.Has]
  links := by simp [h.links]

private theorem withRelationships_links (h : withRelationships objects t = .ok t') :
    t'.nodes = t.nodes ∧ ∀ l, l ∈ t'.links ↔
      l ∈ t.links ∨ ∃ o ∈ objects, Relates o l ∧ t.Has l.source ∧ t.Has l.target := by
  refine foldlM_induction (P := fun done t' => t'.nodes = t.nodes ∧ ∀ l, l ∈ t'.links ↔
    l ∈ t.links ∨ ∃ o ∈ done, Relates o l ∧ t.Has l.source ∧ t.Has l.target) h ⟨rfl, by simp⟩ ?_
  intro done o rest t₁ t₂ _ hinv hstep
  obtain ⟨hnodes, hlinks⟩ := hinv
  have hhas (id : Value) : t₁.Has id ↔ t.Has id := by rw [Tables.Has, Tables.Has, hnodes]
  rcases addRelationship_cases hstep with ⟨rfl, hnone⟩ | ⟨k, hrelates, hsource, htarget, rfl⟩
  · refine ⟨hnodes, fun l => ?_⟩
    simp only [hhas] at hnone
    simp only [hlinks, List.mem_append, List.mem_singleton]
    grind
  · have hsource := (hhas _).mp ((has_of_hasId hsource).mpr rfl)
    have htarget := (hhas _).mp ((has_of_hasId htarget).mpr rfl)
    have hunique (l : Link) : Relates o l ↔ l = k :=
      ⟨fun hl => hl.unique hrelates, fun hl => hl ▸ hrelates⟩
    refine ⟨hnodes, fun l => ?_⟩
    simp only [Tables.addLink, List.mem_append, List.mem_singleton, hlinks]
    grind

/-! What is in the tables of a bundle -/

/-- A node of the tables: that of an object, or the one that the first mention of an alias makes. -/
inductive NodeOf (main : List Node) (objects : List Value) : Node → Prop
  | object {n : Node} (hn : n ∈ main) : NodeOf main objects n
  | mention {before : List Mention} {m : Mention} (hm : before ++ [m] <+: mentions objects)
      (hcoins : Coins main before m) : NodeOf main objects m.node

/-- A link from a node to one of its aliases: that of a mention by an object that is a node by then, or
one that a relationship of the bundle asks for. -/
inductive AliasLink (main : List Node) (objects : List Value) : Link → Prop
  | mention {before : List Mention} {m : Mention} (hm : before ++ [m] <+: mentions objects)
      (hpresent : Present main (before ++ [m]) m.source) : AliasLink main objects (m.link main)
  | relationship {o : Value} {l : Link} (ho : o ∈ objects) (hrelates : Relates o l)
      (htype : l.type = "ALIASED_AS") (hsource : Present main (mentions objects) l.source)
      (htarget : Present main (mentions objects) l.target) : AliasLink main objects l

variable {objects : List Value}

/-- The tables hold the nodes of objects and aliases, and the links from nodes to their aliases. -/
structure Graph (objects : List Value) (main t : Tables) : Prop where
  mains : Mains objects main
  nodes : ∀ n, n ∈ t.nodes ↔ NodeOf main.nodes objects n
  aliases : ∀ l, l ∈ t.links ∧ l.type = "ALIASED_AS" ↔ AliasLink main.nodes objects l
  present : ∀ id, t.Has id ↔ Present main.nodes (mentions objects) id

private theorem tablesOf_graph (h : tablesOf objects = .ok t) :
    ∃ main, mainNodes objects = .ok main ∧ Graph objects main t := by
  obtain ⟨main, hmain, h⟩ := bind_eq_ok.mp h
  obtain ⟨t₂, haliases, h⟩ := bind_eq_ok.mp h
  have hmains := mainNodes_mains hmain
  have hmet := withAliases_met hmains.met hmains.hashable haliases
  obtain ⟨hnodes, hlinks⟩ := withRelationships_links h
  refine ⟨main, hmain, hmains, fun n => ?_, fun l => ?_, fun id => ?_⟩
  · rw [hnodes, hmet.nodes]
    constructor
    · rintro (hn | ⟨before, m, hm, hcoins, rfl⟩)
      · exact .object hn
      · exact .mention hm hcoins
    · rintro (hn | ⟨hm, hcoins⟩)
      · exact .inl hn
      · exact .inr ⟨_, _, hm, hcoins, rfl⟩
  · rw [hlinks, hmet.links]
    simp only [hmet.present]
    constructor
    · rintro ⟨⟨before, m, hm, hpresent, rfl⟩ | ⟨o, ho, hrelates, hsource, htarget⟩, htype⟩
      · exact .mention hm hpresent
      · exact .relationship ho hrelates htype hsource htarget
    · rintro (⟨hm, hpresent⟩ | ⟨ho, hrelates, htype, hsource, htarget⟩)
      · exact ⟨.inl ⟨_, _, hm, hpresent, rfl⟩, rfl⟩
      · exact ⟨.inr ⟨_, ho, hrelates, hsource, htarget⟩, htype⟩
  · rw [← hmet.present, Tables.Has, Tables.Has, hnodes]

private theorem mem_of_prefix_concat {before : List Mention} (h : before ++ [m] <+: done) : m ∈ done :=
  h.subset (by simp)

/-- An alias that no object's node goes by or has the id of is made a node at its first mention. -/
theorem Graph.exists_coins {main t : Tables} (h : Graph objects main t) {m : Mention}
    (hm : m ∈ mentions objects) (hbearer : m.bearer main.nodes = none)
    (hfree : ∀ n ∈ main.nodes, n.id ≠ aliasId m.name) :
    ∃ before k, before ++ [k] <+: mentions objects ∧ Coins main.nodes before k ∧
      aliasId k.name = aliasId m.name := by
  obtain ⟨n, hn, hid⟩ := (h.present (aliasId m.name)).mpr (.inr ⟨m, hm, hbearer, rfl⟩)
  rw [aliasId, Value.beq_text_iff] at hid
  cases (h.nodes n).mp hn with
  | object hmain => exact absurd hid (hfree n hmain)
  | mention hk hcoins => exact ⟨_, _, hk, hcoins, hid⟩

/-! Bundles whose objects have ids of their own -/

private theorem live_of_mem_mentions (hm : m ∈ mentions objects) :
    m.object ∈ objects ∧ isRetired m.object = .ok false := by
  obtain ⟨o, ho, hm⟩ := List.mem_flatMap.mp hm
  unfold mentionsOf at hm
  cases haliases : aliasesOf o with
  | error f =>
    rw [haliases] at hm
    cases hm
  | ok names =>
    rw [haliases] at hm
    obtain ⟨name, hname, hsome⟩ := List.mem_filterMap.mp hm
    have hobject : m.object = o := by
      split at hsome
      · split at hsome
        · cases hsome
        · cases hsome
          rfl
      · cases hsome
    obtain ⟨retired, hretired, haliases⟩ := bind_eq_ok.mp haliases
    cases retired with
    | true =>
      cases haliases
      cases hname
    | false => exact ⟨hobject ▸ ho, hobject ▸ hretired⟩

private theorem Mains.ne_aliasId {main : Tables} (hmains : Mains objects main) (hids : Identified objects)
    {n : Node} (hn : n ∈ main.nodes) (name : String) : n.id ≠ aliasId name := by
  obtain ⟨o, ho, hmade⟩ := hmains.made n hn
  exact hids.ne_aliasId ho hmade.id name

private theorem Mains.exists_text {main : Tables} (hmains : Mains objects main) (hids : Identified objects)
    {n : Node} (hn : n ∈ main.nodes) : ∃ id, n.id = .text id := by
  obtain ⟨o, ho, hmade⟩ := hmains.made n hn
  obtain ⟨id, hid, -⟩ := hids.textual o ho
  exact ⟨id, Except.ok.inj (hmade.id.symm.trans (textId?_eq_some_iff.mp hid))⟩

private theorem Mains.present_source_iff {main : Tables} (hmains : Mains objects main)
    (hids : Identified objects) (hm : m ∈ mentions objects) :
    Present main.nodes done m.source ↔ ∃ n ∈ main.nodes, MadeOf m.object n := by
  obtain ⟨ho, hlive⟩ := live_of_mem_mentions hm
  obtain ⟨id, hid, -⟩ := hids.textual _ ho
  rw [textId?_eq_some_iff] at hid
  have hsource : m.source = .text id := by rw [Mention.source, hid]
  rw [hsource]
  constructor
  · rintro (⟨n, hn, hsame⟩ | ⟨k, -, -, halias⟩)
    · obtain ⟨o, ho', hmade⟩ := hmains.made n hn
      rw [Value.beq_text_iff] at hsame
      obtain rfl : o = m.object := hids.eq_of_id ho' ho (by rw [hmade.id, hid, hsame])
      exact ⟨n, hn, hmade⟩
    · exact absurd halias (hids.ne_aliasId ho hid k.name)
  · rintro ⟨n, hn, hmade⟩
    refine .inl ⟨n, hn, ?_⟩
    rw [Value.beq_text_iff]
    exact Except.ok.inj (hmade.id.symm.trans hid)

private theorem Mains.exists_madeOf_iff {main : Tables} (hmains : Mains objects main)
    (hm : m ∈ mentions objects) :
    (∃ n ∈ main.nodes, MadeOf m.object n) ↔ (labelOf m.object).isSome = true := by
  obtain ⟨ho, hlive⟩ := live_of_mem_mentions hm
  constructor
  · rintro ⟨n, -, hmade⟩
    rw [hmade.label, Option.isSome_some]
  · exact hmains.kept m.object ho hlive

theorem Mains.cell_target_iff {main : Tables} (hmains : Mains objects main) (hids : Identified objects)
    {name : String} : Csv.cell (m.target main.nodes) = Csv.cell (aliasId name) ↔
      m.bearer main.nodes = none ∧ aliasId m.name = aliasId name := by
  cases hbearer : m.bearer main.nodes with
  | none =>
    rw [Mention.target, hbearer]
    simp [aliasId, Csv.cell, Value.display]
  | some n =>
    have hn : n ∈ main.nodes := List.mem_reverse.mp (List.mem_of_find?_eq_some hbearer)
    obtain ⟨id, hid⟩ := hmains.exists_text hids hn
    have hne := hmains.ne_aliasId hids hn name
    rw [hid] at hne
    rw [Mention.target, hbearer, Option.map_some, Option.getD_some, hid]
    constructor
    · intro hcell
      exact absurd (congrArg Value.text hcell) hne
    · exact nofun

end

/-! What a run writes of aliases -/

def Tables.LinksTo (t : Tables) (n : Node) : Prop :=
  ∃ l ∈ t.links, l.type = "ALIASED_AS" ∧ Csv.cell l.target = Csv.cell n.id

def Tables.Conflates (t : Tables) (l : Link) : Prop :=
  ∃ a ∈ t.nodes, ∃ b ∈ t.nodes, Csv.cell a.id = Csv.cell l.source ∧
    Csv.cell b.id = Csv.cell l.target ∧ a.label ≠ b.label

section

variable {objects : List Value} {main t : Tables}

private theorem Graph.linksTo_iff (h : Graph objects main t) (n : Node) :
    t.LinksTo n ↔ ∃ l, AliasLink main.nodes objects l ∧ Csv.cell l.target = Csv.cell n.id := by
  simp only [Tables.LinksTo, ← h.aliases, and_assoc]

private theorem Graph.linksTo_mention_iff (h : Graph objects main t) (hids : Identified objects) {n : Node}
    {name : String} (hn : n.id = aliasId name) :
    t.LinksTo n ↔ (∃ k ∈ mentions objects, k.bearer main.nodes = none ∧ aliasId k.name = aliasId name ∧
        (labelOf k.object).isSome = true) ∨
      ∃ o ∈ objects, ∃ l ∈ t.links, Relates o l ∧ l.type = "ALIASED_AS" ∧
        Csv.cell l.target = Csv.cell n.id := by
  rw [h.linksTo_iff]
  constructor
  · rintro ⟨l, hl, htarget⟩
    have hmem := (h.aliases l).mpr hl
    cases hl with
    | @mention before k hk hpresent =>
      have hk := mem_of_prefix_concat hk
      obtain ⟨hbearer, hsame⟩ := (h.mains.cell_target_iff hids).mp (hn ▸ htarget)
      rw [h.mains.present_source_iff hids hk, h.mains.exists_madeOf_iff hk] at hpresent
      exact .inl ⟨k, hk, hbearer, hsame, hpresent⟩
    | relationship ho hrelates htype _ _ => exact .inr ⟨_, ho, l, hmem.1, hrelates, htype, htarget⟩
  · rintro (⟨k, hk, hbearer, hsame, hlabel⟩ | ⟨o, -, l, hl, -, htype, htarget⟩)
    · obtain ⟨before, after, hsplit⟩ := List.append_of_mem hk
      have hplace : before ++ [k] <+: mentions objects := ⟨after, by simp [hsplit]⟩
      refine ⟨k.link main.nodes, .mention hplace ?_, ?_⟩
      · rwa [h.mains.present_source_iff hids hk, h.mains.exists_madeOf_iff hk]
      · exact hn ▸ (h.mains.cell_target_iff hids).mpr ⟨hbearer, hsame⟩
    · exact ⟨l, (h.aliases l).mp ⟨hl, htype⟩, htarget⟩

variable {σ : Type} {w w' : World σ}

/-- A run that ends has written tables in which every alias node is linked to exactly if there is such a
link for the objects' nodes that look like one, and for every alias that is made a node. In a bundle whose
objects have ids of their own, the node of an alias is linked to if an object whose type becomes a node
mentions the alias, or a relationship leads to it, and not otherwise. -/
theorem process_links_aliases_iff (hbundle : Bundles w.files objects)
    (hrun : Returns process w () w') :
    ∃ main t, mainNodes objects = .ok main ∧ tablesOf objects = .ok t ∧ Written w'.files t ∧
      ((∀ n ∈ t.nodes, Csv.cell n.attackId = "Alias" → t.LinksTo n) ↔
        (∀ n ∈ main.nodes, Csv.cell n.attackId = "Alias" →
          ∃ l, AliasLink main.nodes objects l ∧ Csv.cell l.target = Csv.cell n.id) ∧
        ∀ m ∈ mentions objects, m.bearer main.nodes = none →
          (∀ n ∈ main.nodes, n.id ≠ aliasId m.name) →
          ∃ l, AliasLink main.nodes objects l ∧ Csv.cell l.target = Csv.cell (aliasId m.name)) ∧
      (Identified objects → ∀ m ∈ mentions objects, m.bearer main.nodes = none →
        ∃ n ∈ t.nodes, n.id = aliasId m.name ∧ n.attackId = .text "Alias" ∧
          (t.LinksTo n ↔
            (∃ k ∈ mentions objects, k.bearer main.nodes = none ∧ aliasId k.name = aliasId m.name ∧
              (labelOf k.object).isSome = true) ∨
            ∃ o ∈ objects, ∃ l ∈ t.links, Relates o l ∧ l.type = "ALIASED_AS" ∧
              Csv.cell l.target = Csv.cell n.id)) := by
  obtain ⟨objects', w₁, t, hload, htables, hwritten⟩ := process_returns hrun
  obtain rfl := hbundle.unique (load_returns hload)
  obtain ⟨main, hmain, hgraph⟩ := tablesOf_graph htables
  refine ⟨main, t, hmain, htables, hwritten, ?_, ?_⟩
  · simp only [hgraph.linksTo_iff]
    refine ⟨fun hall => ⟨fun n hn => hall n ((hgraph.nodes n).mpr (.object hn)), ?_⟩, ?_⟩
    · intro m hm hbearer hfree
      obtain ⟨before, k, hk, hcoins, hsame⟩ := hgraph.exists_coins hm hbearer hfree
      exact hsame ▸ hall k.node ((hgraph.nodes _).mpr (.mention hk hcoins)) rfl
    · rintro ⟨hobjects, hmentions⟩ n hn halias
      cases (hgraph.nodes n).mp hn with
      | object hn => exact hobjects n hn halias
      | @mention before m hm hcoins =>
        refine hmentions m (mem_of_prefix_concat hm) hcoins.1 fun n hn hsame => ?_
        exact hcoins.2 (.inl ⟨n, hn, Value.beq_text_iff.mpr hsame⟩)
  · intro hids m hm hbearer
    obtain ⟨before, k, hk, hcoins, hsame⟩ :=
      hgraph.exists_coins hm hbearer fun n hn => hgraph.mains.ne_aliasId hids hn m.name
    exact ⟨k.node, (hgraph.nodes _).mpr (.mention hk hcoins), hsame, rfl,
      hgraph.linksTo_mention_iff hids hsame⟩

/-- A campaign has an alias, but is no node: the node of the alias is linked to by nothing. -/
theorem process_links_aliases_campaign :
    let w : World Steady :=
      { outside := ⟨.rows [], .content .null⟩
        files := ⟨[(source, .text ("\x7b\"objects\":[\x7b\"id\":\"c\",\"type\":\"campaign\"," ++
          "\"name\":\"C\",\"aliases\":[\"X\"]\x7d]\x7d"))], [targetDirectory]⟩ }
    ∃ objects w' t, Bundles w.files objects ∧ Returns process w () w' ∧ tablesOf objects = .ok t ∧
      Written w'.files t ∧ ∃ n ∈ t.nodes, n.id = aliasId "X" ∧ n.attackId = .text "Alias" ∧
        ¬ t.LinksTo n := by
  intro w
  obtain ⟨hok, hseen⟩ : (Job.outcome process w).1.isOk = true ∧
      (Job.outcome load w).1.toOption.map (fun objects => (objects.map textId?,
        (mentions objects).map fun m => (m.name, labelOf m.object),
        (mainNodes objects).toOption.map fun t => t.nodes.length,
        (tablesOf objects).toOption.map fun t => t.links.length)) =
          some (["c"].map some, [("X", none)], some 0, some 0) := by decide +kernel
  obtain ⟨_, w', hrun⟩ := Job.exists_returns_iff.mpr hok
  obtain ⟨objects, w₁, -, hload, -, -⟩ := process_returns hrun
  rw [show Job.outcome _ _ = _ from hload, Except.toOption, Option.map_some, Option.some.injEq,
    Prod.mk.injEq, Prod.mk.injEq, Prod.mk.injEq] at hseen
  obtain ⟨htextIds, hmentions, hnodes, hlinks⟩ := hseen
  have hids := identified_of_textIds htextIds (by decide) (by decide +kernel)
  obtain ⟨main, t, hmain, htables, hwritten, -, hnodeOf⟩ :=
    process_links_aliases_iff (load_returns hload) hrun
  have hnodes : main.nodes = [] := by simpa [hmain, Except.toOption] using hnodes
  have hlinks : t.links = [] := by simpa [htables, Except.toOption] using hlinks
  obtain ⟨m, hm, hseen⟩ := List.map_eq_singleton_iff.mp hmentions
  obtain ⟨hname, hlabel⟩ := Prod.mk.inj hseen
  obtain ⟨n, hn, hid, halias, hlinked⟩ := hnodeOf hids m (by simp [hm]) (by rw [hnodes]; rfl)
  refine ⟨objects, w', t, load_returns hload, hrun, htables, hwritten, n, hn, hname ▸ hid, halias, ?_⟩
  rw [hlinked, hm, hlinks]
  simp [hlabel]

end

/-! Labels -/

/-- The label of the node that an alias leads to: of the object's node that goes by it, or else of the
object that mentions it first. -/
def Mention.meantLabel (main : List Node) (all : List Mention) (m : Mention) : Option String :=
  match m.bearer main with
  | some n => some n.label
  | none => (all.find? fun k => (k.bearer main).isNone && aliasId k.name == aliasId m.name).map
      fun k => k.node.label

section

variable {objects : List Value} {main t : Tables} {m : Mention}

private theorem find?_eq_of_coins {main : List Node} {all before : List Mention} (hm : before ++ [m] <+: all)
    (hcoins : Coins main before m) :
    (all.find? fun k => (k.bearer main).isNone && aliasId k.name == aliasId m.name) = some m := by
  obtain ⟨after, rfl⟩ := hm
  rw [List.append_assoc, List.singleton_append, List.find?_append, List.find?_cons_of_pos,
    List.find?_eq_none.mpr, Option.none_or]
  · intro k hk hsame
    rw [Bool.and_eq_true, Option.isNone_iff_eq_none, aliasId, aliasId, Value.text_beq_iff] at hsame
    exact hcoins.2 (.inr ⟨k, hk, hsame.1, hsame.2⟩)
  · rw [hcoins.1, aliasId]
    simp

private theorem Graph.exists_meant (h : Graph objects main t) (hids : Identified objects)
    (hm : m ∈ mentions objects) : ∃ b ∈ t.nodes, b.id = m.target main.nodes ∧
      m.meantLabel main.nodes (mentions objects) = some b.label := by
  cases hbearer : m.bearer main.nodes with
  | some n =>
    have hn : n ∈ main.nodes := List.mem_reverse.mp (List.mem_of_find?_eq_some hbearer)
    refine ⟨n, (h.nodes n).mpr (.object hn), ?_, ?_⟩
    · rw [Mention.target, hbearer]
      rfl
    · rw [Mention.meantLabel, hbearer]
  | none =>
    obtain ⟨before, k, hk, hcoins, hsame⟩ :=
      h.exists_coins hm hbearer fun n hn => h.mains.ne_aliasId hids hn m.name
    refine ⟨k.node, (h.nodes _).mpr (.mention hk hcoins), ?_, ?_⟩
    · rw [Mention.target, hbearer]
      exact hsame
    · rw [Mention.meantLabel, hbearer, ← hsame]
      dsimp only
      rw [find?_eq_of_coins hk hcoins, Option.map_some]

private theorem Graph.conflates_link_iff (h : Graph objects main t) (hids : Identified objects)
    (hdistinct : t.ids.Nodup) (hm : m ∈ mentions objects) {label : String}
    (hlabel : labelOf m.object = some label) : t.Conflates (m.link main.nodes) ↔
      m.meantLabel main.nodes (mentions objects) ≠ some label := by
  obtain ⟨n, hn, hmade⟩ := (h.mains.exists_madeOf_iff hm).mpr (by rw [hlabel]; rfl)
  obtain ⟨b, hb, htarget, hmeant⟩ := h.exists_meant hids hm
  have hn := (h.nodes n).mpr (.object hn)
  have hsource : n.id = m.source := by rw [Mention.source, hmade.id]
  have hown : n.label = label := Option.some.inj (hmade.label.symm.trans hlabel)
  rw [hmeant, ← hown, ne_eq, Option.some.injEq]
  constructor
  · rintro ⟨a, ha, c, hc, hasource, hctarget, hne⟩ hsame
    obtain rfl : a = n :=
      List.inj_on_of_nodup_map hdistinct ha hn (hasource.trans (congrArg Csv.cell hsource.symm))
    obtain rfl : c = b :=
      List.inj_on_of_nodup_map hdistinct hc hb (hctarget.trans (congrArg Csv.cell htarget.symm))
    exact hne hsame.symm
  · intro hne
    exact ⟨n, hn, b, hb, congrArg Csv.cell hsource, congrArg Csv.cell htarget, Ne.symm hne⟩

variable {σ : Type} {w w' : World σ}

/-- A run that ends has written links to aliases that join nodes of one label exactly if those between the
nodes and links of the bundle do. In a bundle whose objects have ids of their own this holds if every
object that is a node has the label of what its aliases mean, as far as no relationship says otherwise. -/
theorem process_conflates_iff (hbundle : Bundles w.files objects) (hrun : Returns process w () w') :
    ∃ main t, mainNodes objects = .ok main ∧ tablesOf objects = .ok t ∧ Written w'.files t ∧
      ((∀ l ∈ t.links, l.type = "ALIASED_AS" → ¬ t.Conflates l) ↔
        ∀ l, AliasLink main.nodes objects l → ∀ a b, NodeOf main.nodes objects a →
          NodeOf main.nodes objects b → Csv.cell a.id = Csv.cell l.source →
          Csv.cell b.id = Csv.cell l.target → a.label = b.label) ∧
      (Identified objects → ((∀ l ∈ t.links, l.type = "ALIASED_AS" → ¬ t.Conflates l) ↔
        (∀ m ∈ mentions objects, ∀ label, labelOf m.object = some label →
          m.meantLabel main.nodes (mentions objects) = some label) ∧
        ∀ o ∈ objects, ∀ l ∈ t.links, Relates o l → l.type = "ALIASED_AS" → ¬ t.Conflates l)) := by
  obtain ⟨objects', w₁, t, hload, htables, hwritten⟩ := process_returns hrun
  obtain rfl := hbundle.unique (load_returns hload)
  obtain ⟨main, hmain, hgraph⟩ := tablesOf_graph htables
  refine ⟨main, t, hmain, htables, hwritten, ?_, fun hids => ?_⟩
  · constructor
    · intro hnone l hl a b ha hb hsource htarget
      obtain ⟨hl, htype⟩ := (hgraph.aliases l).mpr hl
      by_contra hne
      exact hnone l hl htype
        ⟨a, (hgraph.nodes a).mpr ha, b, (hgraph.nodes b).mpr hb, hsource, htarget, hne⟩
    · rintro hsame l hl htype ⟨a, ha, b, hb, hsource, htarget, hne⟩
      exact hne (hsame l ((hgraph.aliases l).mp ⟨hl, htype⟩) a b ((hgraph.nodes a).mp ha)
        ((hgraph.nodes b).mp hb) hsource htarget)
  · have hdistinct := (tablesOf_sound hids htables).distinct
    constructor
    · intro hnone
      refine ⟨fun m hm label hlabel => ?_, fun o _ l hl _ htype => hnone l hl htype⟩
      obtain ⟨before, after, hsplit⟩ := List.append_of_mem hm
      have hlink : AliasLink main.nodes objects (m.link main.nodes) := by
        have hplace : before ++ [m] <+: mentions objects := ⟨after, by simp [hsplit]⟩
        refine .mention hplace ?_
        rw [hgraph.mains.present_source_iff hids hm, hgraph.mains.exists_madeOf_iff hm, hlabel]
        rfl
      obtain ⟨hl, htype⟩ := (hgraph.aliases _).mpr hlink
      have hsame := hnone _ hl htype
      rwa [hgraph.conflates_link_iff hids hdistinct hm hlabel, not_not] at hsame
    · rintro ⟨hmentions, hrelationships⟩ l hl htype
      cases (hgraph.aliases l).mp ⟨hl, htype⟩ with
      | @mention before m hplace hpresent =>
        have hm := mem_of_prefix_concat hplace
        rw [hgraph.mains.present_source_iff hids hm] at hpresent
        obtain ⟨n, -, hmade⟩ := hpresent
        rw [hgraph.conflates_link_iff hids hdistinct hm hmade.label, not_not]
        exact hmentions m hm n.label hmade.label
      | relationship ho hrelates _ _ _ => exact hrelationships _ ho l hl hrelates htype

end

/-- A group has the name of a piece of malware among its aliases. -/
theorem process_conflates_group_with_malware :
    let w : World Steady :=
      { outside := ⟨.rows [], .content .null⟩
        files := ⟨[(source, .text ("\x7b\"objects\":[\x7b\"id\":\"g\",\"type\":\"intrusion-set\"," ++
          "\"name\":\"G\",\"aliases\":[\"S\"]\x7d,\x7b\"id\":\"m\",\"type\":\"malware\",\"name\":\"S\"\x7d]\x7d"))],
          [targetDirectory]⟩ }
    ∃ objects w' t, Bundles w.files objects ∧ Returns process w () w' ∧ tablesOf objects = .ok t ∧
      Written w'.files t ∧ ∃ l ∈ t.links, l.type = "ALIASED_AS" ∧ t.Conflates l := by
  intro w
  obtain ⟨hok, hseen⟩ : (Job.outcome process w).1.isOk = true ∧
      (Job.outcome load w).1.toOption.map (fun objects => (objects.map textId?,
        (mainNodes objects).toOption.map fun t => (mentions objects).map fun m =>
          (labelOf m.object, m.meantLabel t.nodes (mentions objects)))) =
          some (["g", "m"].map some, some [(some "ThreatGroup", some "Malware")]) := by decide +kernel
  obtain ⟨_, w', hrun⟩ := Job.exists_returns_iff.mpr hok
  obtain ⟨objects, w₁, -, hload, -, -⟩ := process_returns hrun
  rw [show Job.outcome _ _ = _ from hload, Except.toOption, Option.map_some, Option.some.injEq,
    Prod.mk.injEq] at hseen
  obtain ⟨htextIds, hlabels⟩ := hseen
  have hids := identified_of_textIds htextIds (by decide) (by decide +kernel)
  obtain ⟨main, t, hmain, htables, hwritten, -, hsame⟩ := process_conflates_iff (load_returns hload) hrun
  rw [hmain, Except.toOption, Option.map_some, Option.some.injEq] at hlabels
  obtain ⟨m, hm, hseen⟩ := List.map_eq_singleton_iff.mp hlabels
  obtain ⟨hlabel, hmeant⟩ := Prod.mk.inj hseen
  refine ⟨objects, w', t, load_returns hload, hrun, htables, hwritten, ?_⟩
  by_contra hnone
  push Not at hnone
  have hmeans := ((hsame hids).mp hnone).1 m (by simp [hm]) _ hlabel
  rw [hmeant, Option.some.injEq] at hmeans
  exact absurd hmeans (by decide)

end ThreatAtlas.Feed.AttackBundle
