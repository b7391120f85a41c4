import ThreatAtlas.Proofs.Feed.AttackBundle

/-!
# Bundles without their retired objects

The first two passes leave retired objects out, so a bundle without them has the same nodes and the same
links from nodes to their aliases. The third pass takes a relationship that is retired like any other. So
what is written for the links stays the same only if no retired relationship joins two nodes.
-/

namespace ThreatAtlas.Feed.AttackBundle

open Job (Returns)

def live (objects : List Value) : List Value :=
  objects.filter fun o => !(isRetired o).toOption.getD false

private theorem isRetired_of_left_out {o : Value} (h : (!(isRetired o).toOption.getD false) = false) :
    isRetired o = .ok true := by
  cases hretired : isRetired o with
  | error e =>
    rw [hretired] at h
    cases h
  | ok b =>
    rw [hretired] at h
    simpa [Except.toOption] using h

section

variable {t t' : Tables} {objects : List Value}

private theorem mainNodes_live (h : mainNodes objects = .ok t) : mainNodes (live objects) = .ok t := by
  refine foldlM_filter (fun o ho t t' hstep => ?_) h
  have hretired := isRetired_of_left_out ho
  rcases addMain_cases hstep with ⟨rfl, -⟩ | ⟨n, hmade, -⟩
  · rfl
  · cases hretired.symm.trans hmade.live

private theorem withAliases_live (h : withAliases objects t = .ok t') :
    withAliases (live objects) t = .ok t' := by
  refine foldlM_filter (fun o ho t t' hstep => ?_) h
  obtain ⟨retired, hretired, hstep⟩ := bind_eq_ok.mp hstep
  cases hretired.symm.trans (isRetired_of_left_out ho)
  cases hstep
  rfl

def Tables.behind (t : Tables) (links : List Link) : Tables :=
  { t with links := links ++ t.links }

private theorem addRelationship_behind (t : Tables) (links : List Link) (o : Value) :
    addRelationship (t.behind links) o = (·.behind links) <$> addRelationship t o := by
  have hhas (id : Value) : (t.behind links).hasId id = t.hasId id := rfl
  have hlink (l : Link) : (t.behind links).addLink l = (t.addLink l).behind links := by
    simp [Tables.behind, Tables.addLink]
  unfold addRelationship
  simp only [hhas, hlink, map_bind, apply_ite (Functor.map _), map_pure]

def Tables.unlinked (t : Tables) : Tables :=
  { t with links := [] }

def added (t : Tables) (o : Value) : List Link :=
  ((addRelationship t.unlinked o).toOption.map Tables.links).getD []

private theorem addRelationship_eq_ok_iff {o : Value} : addRelationship t o = .ok t' ↔
    (addRelationship t.unlinked o).isOk = true ∧ t' = { t with links := t.links ++ added t o } := by
  have hbehind : t = t.unlinked.behind t.links := by simp [Tables.behind, Tables.unlinked]
  have hstep : addRelationship t o = (·.behind t.links) <$> addRelationship t.unlinked o := by
    conv_lhs => rw [hbehind]
    exact addRelationship_behind t.unlinked t.links o
  rw [hstep, added]
  cases hrun : addRelationship t.unlinked o with
  | error e => simp [Except.isOk, Except.toBool, Functor.map, Except.map]
  | ok t₁ =>
    have hnodes : t₁ = { t with links := t₁.links } := by
      rcases addRelationship_cases hrun with ⟨rfl, -⟩ | ⟨l, -, -, -, rfl⟩ <;> rfl
    rw [hnodes]
    simp [Except.isOk, Except.toBool, Functor.map, Except.map, Except.toOption, Tables.behind,
      eq_comm]

private theorem withRelationships_eq_ok_iff : withRelationships objects t = .ok t' ↔
    (∀ o ∈ objects, (addRelationship t.unlinked o).isOk = true) ∧
      t' = { t with links := t.links ++ objects.flatMap (added t) } := by
  unfold withRelationships
  induction objects generalizing t with
  | nil =>
    rw [List.foldlM_nil, pure_eq_ok, List.flatMap_nil, List.append_nil]
    exact ⟨fun h => ⟨by simp, h.symm⟩, fun h => h.2.symm⟩
  | cons o rest ih =>
    rw [List.foldlM_cons, bind_eq_ok, List.flatMap_cons, List.forall_mem_cons, and_assoc]
    constructor
    · rintro ⟨t₁, hstep, hrest⟩
      obtain ⟨hok, rfl⟩ := addRelationship_eq_ok_iff.mp hstep
      obtain ⟨hall, rfl⟩ := ih.mp hrest
      exact ⟨hok, hall, by rw [List.append_assoc]; rfl⟩
    · rintro ⟨hok, hall, rfl⟩
      refine ⟨_, addRelationship_eq_ok_iff.mpr ⟨hok, rfl⟩, ih.mpr ⟨hall, ?_⟩⟩
      rw [List.append_assoc]
      rfl

private theorem added_eq_nil_iff {o : Value} (h : (addRelationship t.unlinked o).isOk = true) :
    added t o = [] ↔ ∀ l, Relates o l → t.Has l.source → ¬ t.Has l.target := by
  cases hrun : addRelationship t.unlinked o with
  | error e =>
    rw [hrun] at h
    cases h
  | ok t₁ =>
    rw [added, hrun]
    rcases addRelationship_cases hrun with ⟨rfl, hnone⟩ | ⟨l, hrelates, hsource, htarget, rfl⟩
    · exact ⟨fun _ => hnone, fun _ => rfl⟩
    · constructor
      · nofun
      · intro hnone
        exact absurd ((has_of_hasId htarget).mpr rfl)
          (hnone l hrelates ((has_of_hasId hsource).mpr rfl))

/-- Leaving out what is retired takes nothing from the nodes, and from the links those that retired
relationships add. -/
theorem tablesOf_live (h : tablesOf objects = .ok t) : ∃ t₂ linked, tablesOf (live objects) = .ok t₂ ∧
    (∀ o ∈ objects, (addRelationship t.unlinked o).isOk = true) ∧
    t = { t.unlinked with links := linked ++ objects.flatMap (added t) } ∧
    t₂ = { t.unlinked with links := linked ++ (live objects).flatMap (added t) } := by
  obtain ⟨t₀, hmain, h⟩ := bind_eq_ok.mp h
  obtain ⟨t₁, haliases, h⟩ := bind_eq_ok.mp h
  obtain ⟨hok, rfl⟩ := withRelationships_eq_ok_iff.mp h
  have hlive : ∀ o ∈ live objects, (addRelationship t₁.unlinked o).isOk = true :=
    fun o ho => hok o (List.mem_of_mem_filter ho)
  refine ⟨_, t₁.links, ?_, hok, rfl, rfl⟩
  refine bind_eq_ok.mpr ⟨t₀, mainNodes_live hmain, bind_eq_ok.mpr ⟨t₁, withAliases_live haliases, ?_⟩⟩
  exact withRelationships_eq_ok_iff.mpr ⟨hlive, rfl⟩

/-- Both link tables are written alike exactly if no retired relationship joins two nodes. -/
theorem write_linkRecords_live_iff {t₂ : Tables} (h : tablesOf objects = .ok t)
    (h₂ : tablesOf (live objects) = .ok t₂) :
    Csv.write (linkRecords t₂) = Csv.write (linkRecords t) ↔
      ∀ o ∈ objects, isRetired o = .ok true → ∀ l, Relates o l → t.Has l.source → ¬ t.Has l.target := by
  obtain ⟨t₃, linked, h₃, hok, ht, ht₃⟩ := tablesOf_live h
  obtain rfl : t₃ = t₂ := Except.ok.inj (h₃.symm.trans h₂)
  have hlinks : t.links = linked ++ objects.flatMap (added t) := congrArg Tables.links ht
  have hlinks₂ : t₃.links = linked ++ (live objects).flatMap (added t) := congrArg Tables.links ht₃
  have hfewer : ((live objects).flatMap (added t)).Sublist (objects.flatMap (added t)) :=
    List.filter_sublist.flatMap _
  have hwrite : Csv.write (linkRecords t₃) = Csv.write (linkRecords t) ↔
      (live objects).flatMap (added t) = objects.flatMap (added t) := by
    constructor
    · intro hsame
      have hsub : (linkRecords t₃).Sublist (linkRecords t) := by
        unfold linkRecords
        rw [hlinks, hlinks₂]
        exact .cons_cons _ (((List.Sublist.refl linked).append hfewer).map _)
      have hlength := congrArg List.length (Csv.eq_of_write_eq hsub hsame)
      simp only [linkRecords, List.length_cons, List.length_map, hlinks, hlinks₂,
        List.length_append] at hlength
      exact hfewer.eq_of_length (by omega)
    · intro hsame
      rw [linkRecords, linkRecords, hlinks, hlinks₂, hsame]
  rw [hwrite, live, flatMap_filter_eq_iff]
  refine forall₂_congr fun o ho => ?_
  rw [← added_eq_nil_iff (hok o ho)]
  refine imp_congr_left ⟨isRetired_of_left_out, fun hretired => ?_⟩
  rw [hretired]
  rfl

end

variable {σ : Type}

def announced (w : World σ) : World σ :=
  (w.printing "[*] Phase 2: Processing Aliases...\n").printing "[*] Phase 3: Parsing Relationships...\n"

variable {w : World σ} {objects : List Value}

private theorem returns_process_iff {w' : World σ} : Returns process w () w' ↔
    ∃ objects w₁ t, Returns load w objects w₁ ∧ tablesOf objects = .ok t ∧
      Returns (store t) (announced w₁) () w' := by
  unfold process tablesOf
  simp only [Job.returns_bind (x := load), Job.returns_lift_bind, Job.returns_say_bind, bind_eq_ok]
  constructor
  · rintro ⟨objects, w₁, hload, t₀, hmain, t₁, haliases, t, hrelationships, hstore⟩
    exact ⟨objects, w₁, t, hload, ⟨t₀, hmain, t₁, haliases, hrelationships⟩, hstore⟩
  · rintro ⟨objects, w₁, t, hload, ⟨t₀, hmain, t₁, haliases, hrelationships⟩, hstore⟩
    exact ⟨objects, w₁, hload, t₀, hmain, t₁, haliases, t, hrelationships, hstore⟩

private theorem keeps_load : Job.Keeps (load : Job σ (List Value)) := by
  refine Job.keeps_bind (fun _ => ⟨rfl, rfl⟩) fun found => ?_
  have hread : Job.Keeps (do
      Job.say s!"[*] Loading MITRE ATT&CK data from: {← Job.shownPath source}"
      let bundle ← Job.readJson source
      let objects ← bundle.getD "objects" (.list [])
      Job.say "[*] Phase 1: Parsing Main Nodes..."
      objects.elements : Job σ (List Value)) := by
    refine Job.keeps_bind (Job.keeps_shownPath _) fun _ => Job.keeps_bind (Job.keeps_say _) fun _ => ?_
    refine Job.keeps_bind (Job.keeps_readJson _) fun _ => Job.keeps_bind (Job.keeps_lift _) fun _ => ?_
    exact Job.keeps_bind (Job.keeps_say _) fun _ => Job.keeps_lift _
  cases found with
  | true => exact hread
  | false =>
    refine Job.keeps_bind (Job.keeps_shownPath _) fun _ => Job.keeps_bind (Job.keeps_say _) fun _ => ?_
    exact Job.keeps_bind (Job.keeps_say _) fun _ => Job.keeps_bind (Job.keeps_throw _) fun _ => hread

private theorem load_of_bundles (h : Bundles w.files objects) : ∃ w', Returns load w objects w' := by
  obtain ⟨bundle, v, hholds, hv, helements⟩ := h
  have hfile : w.files.has source = true := by
    obtain ⟨content, cs, hplace, -⟩ := hholds
    exact Files.has_of_place hplace
  let path := s!"{w.root}/{source}"
  let reading := w.printing (s!"[*] Loading MITRE ATT&CK data from: {path}" ++ "\n")
  refine ⟨reading.printing ("[*] Phase 1: Parsing Main Nodes..." ++ "\n"), ?_⟩
  unfold load
  rw [Job.returns_bind_of_returns (Job.outcome_fileExists source w), hfile]
  dsimp only
  rw [if_neg (by decide), Job.returns_bind_of_returns (Job.outcome_shownPath source w),
    Job.returns_say_bind]
  refine Job.returns_bind.mpr ⟨bundle, reading, Job.readJson_returns_iff.mpr ⟨hholds, rfl⟩, ?_⟩
  refine Job.returns_lift_bind.mpr ⟨v, hv, ?_⟩
  rw [Job.returns_say_bind]
  exact Job.returns_lift.mpr ⟨helements, rfl⟩

private theorem process_writes {w' : World σ} {t : Tables} (hbundle : Bundles w.files objects)
    (hrun : Returns process w () w') (htables : tablesOf objects = .ok t) : Written w'.files t := by
  obtain ⟨objects', w₁, t', hload, htables', hwritten⟩ := process_returns hrun
  obtain rfl := hbundle.unique (load_returns hload)
  obtain rfl : t = t' := Except.ok.inj (htables.symm.trans htables')
  exact hwritten

/-- Whether tables can be written is not up to what stands in them. -/
theorem relates_store (t t' : Tables) :
    Job.Relates (fun w w' : World σ => w.files.Alike w'.files) (fun _ _ => True) (store t)
      (store t') := by
  have hsay (s s' : String) : Job.Relates (fun w w' : World σ => w.files.Alike w'.files)
      (fun _ _ => True) (Job.say s) (Job.say s') := fun _ _ h => ⟨.ok trivial, h⟩
  have hpath (path : String) : Job.Relates (fun w w' : World σ => w.files.Alike w'.files)
      (fun _ _ => True) (Job.shownPath path) (Job.shownPath path) := fun _ _ h => ⟨.ok trivial, h⟩
  refine Job.relates_bind (Job.relates_makeDirectory _) fun _ _ _ => ?_
  refine Job.relates_bind (hpath _) fun _ _ _ => Job.relates_bind (hsay _ _) fun _ _ _ => ?_
  refine Job.relates_bind (Job.relates_writeText _ _ _) fun _ _ _ => ?_
  refine Job.relates_bind (hpath _) fun _ _ _ => Job.relates_bind (hsay _ _) fun _ _ _ => ?_
  exact Job.relates_bind (Job.relates_writeText _ _ _) fun _ _ _ => hsay _ _

/-- A run on the bundle without its retired objects ends as well, and writes the same nodes. It writes the
same links exactly if no retired relationship joins two nodes. -/
theorem process_without_retired_iff {w w' : World σ} {objects : List Value} {content : Content}
    (hbundle : Bundles w.files objects) (hrun : Returns process w () w')
    (hlive : Bundles (w.files.put source content) (live objects)) :
    ∃ t w₂, tablesOf objects = .ok t ∧ Written w'.files t ∧
      Returns process { w with files := w.files.put source content } () w₂ ∧
      w₂.files.place nodeTarget = w'.files.place nodeTarget ∧
      (w₂.files.place linkTarget = w'.files.place linkTarget ↔
        ∀ o ∈ objects, isRetired o = .ok true →
          ∀ l, Relates o l → t.Has l.source → ¬ t.Has l.target) := by
  obtain ⟨objects', w₁, t, hload, htables, hstore⟩ := returns_process_iff.mp hrun
  obtain rfl := hbundle.unique (load_returns hload)
  obtain ⟨t₂, linked, htables₂, -, ht, ht₂⟩ := tablesOf_live htables
  obtain ⟨v₁, hload₂⟩ := load_of_bundles (w := { w with files := w.files.put source content }) hlive
  have halike : (announced w₁).files.Alike (announced v₁).files := by
    change w₁.files.Alike v₁.files
    rw [keeps_load.files hload, keeps_load.files hload₂]
    obtain ⟨bundle, v, ⟨old, cs, hplace, -⟩, -⟩ := hbundle
    exact Files.alike_put_of_place hplace content
  obtain ⟨_, w₂, hstore₂, -⟩ := (relates_store t t₂).exists_returns (v := announced v₁) halike hstore
  have hrun₂ := returns_process_iff.mpr ⟨live objects, v₁, t₂, hload₂, htables₂, hstore₂⟩
  have hwritten := process_writes hbundle hrun htables
  have hwritten₂ := process_writes hlive hrun₂ htables₂
  refine ⟨t, w₂, htables, hwritten, hrun₂, ?_, ?_⟩
  · have hnodes : nodeRecords t₂ = nodeRecords t := by
      rw [nodeRecords, nodeRecords, ht₂]
      rfl
    rw [hwritten₂.1, hwritten.1, hnodes]
  · rw [hwritten₂.2, hwritten.2, ← write_linkRecords_live_iff htables htables₂]
    simp only [Files.Place.file.injEq, Content.text.injEq]

theorem load_of_identical (h : (Job.outcome load w).1.toOption.map (Value.identicalAll objects) = some true) :
    ∃ w₁, Returns load w objects w₁ := by
  obtain ⟨found, hfound, hsame⟩ := Option.map_eq_some_iff.mp h
  obtain rfl := Value.eq_of_identicalAll hsame
  exact ⟨_, Prod.ext (toOption_eq_some_iff.mp hfound) rfl⟩

/-- A revoked relationship of a tool to itself is written, and is not when the bundle lacks it. -/
theorem process_without_revoked_relationship :
    let tool := "\x7b\"id\":\"a\",\"type\":\"tool\"\x7d"
    let uses := "\x7b\"type\":\"relationship\",\"revoked\":true,\"source_ref\":\"a\"," ++
      "\"target_ref\":\"a\",\"relationship_type\":\"uses\"\x7d"
    let less : Content := .text ("\x7b\"objects\":[" ++ tool ++ "]\x7d")
    let w : World Steady :=
      { outside := ⟨.rows [], .content .null⟩
        files := ⟨[(source, .text ("\x7b\"objects\":[" ++ tool ++ "," ++ uses ++ "]\x7d"))],
          [targetDirectory]⟩ }
    ∃ objects w' w₂, Bundles w.files objects ∧ Returns process w () w' ∧
      Bundles (w.files.put source less) (live objects) ∧
      Returns process { w with files := w.files.put source less } () w₂ ∧
      w₂.files.place nodeTarget = w'.files.place nodeTarget ∧
      w₂.files.place linkTarget ≠ w'.files.place linkTarget := by
  intro tool uses less w
  let o : Value := .record [("id", .text "a"), ("type", .text "tool")]
  let r : Value := .record [("type", .text "relationship"), ("revoked", .bool true),
    ("source_ref", .text "a"), ("target_ref", .text "a"), ("relationship_type", .text "uses")]
  obtain ⟨hseen, hseen₂⟩ : (Job.outcome load w).1.toOption.map (Value.identicalAll [o, r]) = some true ∧
      (Job.outcome load { w with files := w.files.put source less }).1.toOption.map
        (Value.identicalAll (live [o, r])) = some true := by decide +kernel
  obtain ⟨w₁, hload⟩ := load_of_identical hseen
  obtain ⟨_, hload₂⟩ := load_of_identical hseen₂
  have hends : (tablesOf [o, r]).toOption.map (fun t => t.nodes.any (·.id == .text "a")) = some true := by
    decide +kernel
  obtain ⟨t, htables, hend⟩ := Option.map_eq_some_iff.mp hends
  rw [toOption_eq_some_iff] at htables
  have hempty : (Job.outcome (store {}) w).1.isOk = true := by decide +kernel
  obtain ⟨_, _, hempty⟩ := Job.exists_returns_iff.mpr hempty
  obtain ⟨_, w', hstore, -⟩ := (relates_store {} t).exists_returns (v := announced w₁)
    (by rw [announced]; exact keeps_load.files hload ▸ fun _ => ⟨rfl, rfl⟩) hempty
  have hrun := returns_process_iff.mpr ⟨_, w₁, t, hload, htables, hstore⟩
  obtain ⟨t', w₂, htables', -, hrun₂, hnodes, hlinks⟩ :=
    process_without_retired_iff (load_returns hload) hrun (load_returns hload₂)
  obtain rfl : t = t' := Except.ok.inj (htables.symm.trans htables')
  refine ⟨[o, r], w', w₂, load_returns hload, hrun, load_returns hload₂, hrun₂, hnodes, fun hsame => ?_⟩
  have hrelates : Relates r ⟨.text "a", .text "a", "USES"⟩ :=
    ⟨rfl, rfl, rfl, "uses", rfl, by decide +kernel⟩
  have hhas : t.Has (.text "a") := List.any_eq_true.mp hend
  exact hlinks.mp hsame r (by simp) rfl _ hrelates hhas hhas

end ThreatAtlas.Feed.AttackBundle
