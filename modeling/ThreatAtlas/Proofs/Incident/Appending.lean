import ThreatAtlas.Proofs.Incident.Store

/-!
# What a call adds to the store

A call of `save` reads the whole store, goes through the batch and only then writes. Unless a text that is
to be stored cannot be encoded, a call that fails leaves the file as it was; else the file breaks off before
that text. A call that returns has put the incidents with new ids behind the old ones, and an id that was
drawn counts like any other.
-/

namespace ThreatAtlas.Incident

open Job (Returns Fails outcome)

/-! ### Ids of their own and drawn ids -/

def textId (incident : Value) : Option (List CodePoint) :=
  (incident.item "id").toOption.bind Value.points?

variable {incident batch : Value} {old items known : List Value}

private theorem textId_eq_some_iff {points : List CodePoint} :
    textId incident = some points ↔ incident.item "id" = .ok (.ofPoints points) := by
  unfold textId
  cases incident.item "id" with
  | error e => simp [Except.toOption]
  | ok v => simp [Except.toOption, Value.points?_eq_some_iff]

def hasOwnId (incident : Value) : Bool :=
  (textId incident).any fun points => Text.startsWith idStart (CodePoint.text points)

private theorem hasProperId_record (fields : Fields) :
    hasProperId (.record fields) = .ok (hasOwnId (.record fields)) := by
  unfold hasProperId hasOwnId textId Value.holds Value.contains Value.item
  dsimp only
  cases fields.lookup "id" with
  | none => rfl
  | some v =>
    change Except.ok (Text.startsWith idStart v.display) = .ok (v.points?.any _)
    cases hpoints : v.points? with
    | some points =>
      rw [Value.points?_eq_some_iff.mp hpoints, Value.display_ofPoints]
      rfl
    | none =>
      refine congrArg _ (Bool.eq_false_iff.mpr fun hstart => ?_)
      obtain ⟨points, rfl⟩ := exists_points_of_startsWith hstart
      rw [Value.points?_eq_some_iff.mpr rfl] at hpoints
      cases hpoints

def drawnId (n : Int) : String :=
  s!"incident--gen-{10000 + n.emod 90000}"

variable {σ : Type}

/-! ### What is told of an incident -/

def HasParties (incident : Value) : Prop :=
  ∃ victim attribution, incident.item "victim" = .ok (.record victim) ∧
    incident.item "attribution" = .ok (.record attribution)

/-- The steps of the attack can be counted; no steps are counted as none. -/
def HasSteps (incident : Value) : Prop :=
  ∃ flow n, incident.getD "attack_flow" (.list []) = .ok flow ∧ flow.length = .ok n

private theorem eq_record_of_hasParties (h : HasParties incident) : ∃ fields, incident = .record fields := by
  obtain ⟨victim, attribution, hvictim, -⟩ := h
  cases incident with
  | record fields => exact ⟨fields, rfl⟩
  | _ => cases hvictim

private theorem announce_returns_iff (h : HasParties incident) (w : World σ) :
    (∃ u w', Returns (announce incident) w u w') ↔ HasSteps incident := by
  obtain ⟨fields, rfl⟩ := eq_record_of_hasParties h
  obtain ⟨victim, attribution, hvictim, hattribution⟩ := h
  have hget (fields : Fields) (name : String) :
      (Value.record fields).get name = .ok ((fields.lookup name).getD .null) := rfl
  unfold announce HasSteps
  simp only [Job.returns_say_bind, Job.returns_lift_bind, Job.returns_say, hget, hvictim, hattribution,
    Except.ok.injEq, exists_eq_left']
  constructor
  · rintro ⟨u, w', flow, hflow, n, hn, -⟩
    exact ⟨flow, n, hflow, hn⟩
  · rintro ⟨flow, n, hflow, hn⟩
    exact ⟨(), _, flow, hflow, n, hn, rfl⟩

/-! ### The file -/

/-- The store counts as holding these incidents: a file that is not JSON counts as empty. -/
def Opens (files : Files) (old : List Value) : Prop :=
  files.Lists storeFile (.list old) ∨ files.Garbled storeFile ∧ old = []

variable {w : World σ}

private theorem readStore_returns (h : Opens w.files old) : Returns readStore w (.list old) w := by
  unfold readStore
  rw [Job.returns_bind_of_returns (Job.outcome_fileExists storeFile w)]
  rcases h with hlists | ⟨⟨content, cs, fault, message, hplace, hdecode, hread, hmessage⟩, rfl⟩
  · rw [Files.Lists] at hlists
    split
    case isTrue hfile =>
      rw [if_pos hfile] at hlists
      have hread : outcome (Job.readJson storeFile) w = (.ok (.list old), w) :=
        Job.readJson_returns_iff.mpr ⟨hlists, rfl⟩
      rw [Returns, Job.outcome_tryCatch, hread]
    case isFalse hnone =>
      rw [if_neg hnone] at hlists
      rw [hlists]
      exact Job.returns_pure.mpr ⟨rfl, rfl⟩
  · rw [if_pos (Files.has_of_place hplace), Returns, Job.outcome_tryCatch,
      Job.outcome_readJson hplace hdecode, hread, Except.mapError, hmessage]
    rfl

variable {w' : World σ}

private theorem opens_of_readStore (h : Returns readStore w (.list old) w') : Opens w.files old := by
  unfold readStore at h
  rw [Job.returns_bind_of_returns (Job.outcome_fileExists storeFile w)] at h
  split at h
  case isTrue hfile =>
    rw [Returns, Job.outcome_tryCatch] at h
    split at h
    case h_1 v w₁ hread =>
      cases h
      refine .inl ?_
      rw [Files.Lists, if_pos hfile]
      exact (Job.readJson_returns_iff.mp hread).1
    case h_2 e w₁ hread =>
      split at h
      case h_1 =>
        cases h
        exact .inr ⟨Job.garbled_of_fails hread, rfl⟩
      case h_2 => cases (Prod.mk.inj h).1
  case isFalse hnone =>
    refine .inl ?_
    rw [Files.Lists, if_neg hnone]
    exact (Job.returns_pure.mp h).1.symm

private theorem opens_withDirectory_iff : Opens (withDirectory w).files old ↔ Opens w.files old := by
  simp only [Opens, Files.Lists, Files.Holds, Files.Garbled, has_withDirectory, place_withDirectory]

private theorem parents_storeFile : Files.parents storeFile = [storeDirectory, "data"] := by
  decide

private theorem place_storeDirectory {files : Files} (hfree : files.place storeFile ≠ .blocked) :
    files.isDirectory storeDirectory = true ∨
      files.has storeDirectory = false ∧ files.place storeDirectory = .nothing := by
  have habove := Files.free_of_place hfree
  rw [parents_storeFile, List.forall_mem_cons] at habove
  cases hdirectory : files.isDirectory storeDirectory with
  | true => exact .inl rfl
  | false =>
    have hhas : files.has storeDirectory = false := by rw [Files.has, habove.1, hdirectory]; rfl
    refine .inr ⟨hhas, (Files.place_of_has_eq_false hhas).resolve_right (Files.place_ne_blocked ?_)⟩
    rw [show Files.parents storeDirectory = ["data"] by decide]
    exact habove.2

private theorem writable_of_place (h : Opens w.files old) (hfree : w.files.place storeFile ≠ .blocked) :
    (∃ content, (withDirectory w).files.place storeFile = .file content) ∨
      (withDirectory w).files.place storeFile = .nothing ∧
        (withDirectory w).files.canHold storeFile = true := by
  rw [place_withDirectory]
  cases hhas : w.files.has storeFile with
  | true =>
    refine .inl ?_
    rcases h with hlists | ⟨⟨content, _, _, _, hplace, -⟩, -⟩
    · rw [Files.Lists, if_pos hhas] at hlists
      obtain ⟨content, _, hplace, -⟩ := hlists
      exact ⟨content, hplace⟩
    · exact ⟨content, hplace⟩
  | false =>
    refine .inr ⟨(Files.place_of_has_eq_false hhas).resolve_right hfree, ?_⟩
    rw [Files.canHold, parents_storeFile]
    dsimp only
    unfold withDirectory
    rcases place_storeDirectory hfree with hdirectory | ⟨hnone, -⟩
    · rw [if_pos (by rw [Files.has, hdirectory, Bool.or_true]), hdirectory]
    · rw [hnone, if_neg Bool.false_ne_true]
      dsimp only
      rw [Files.isDirectory_makeDirectory]
      simp

private theorem outcome_writeBatch {batch : List Value} {n : Nat} (hn : 0 < n)
    (hwritable : (∃ content, w.files.place storeFile = .file content) ∨
      w.files.place storeFile = .nothing ∧ w.files.canHold storeFile = true) :
    ((Value.list batch).Whole ∧ ∃ w', Returns (writeBatch ⟨.list batch, n⟩) w () w') ∨
      ∃ e w' left, Fails (writeBatch ⟨.list batch, n⟩) w e w' ∧ Json.BreaksOff 2 (.list batch) e left ∧
        w'.files.place storeFile = .file (.text left) := by
  unfold writeBatch
  rw [if_pos hn]
  by_cases hwhole : (Value.list batch).Whole
  · have hwrite := Job.writeText_of_place (Json.writeIndented 2 (.list batch)) hwritable
    rw [Returns, ← Job.outcome_writeJson_of_whole hwhole] at hwrite
    exact .inl ⟨hwhole, _, Job.returns_bind.mpr ⟨(), _, hwrite, rfl⟩⟩
  · have hleft := Job.writeText_of_place (Json.begun (Json.pieces 2 (.list batch))) hwritable
    obtain ⟨e, hfails, hbreaks⟩ := Job.writeJson_of_not_whole hwhole hleft
    exact .inr ⟨e, _, _, Job.fails_bind.mpr (.inl hfails), hbreaks, Job.place_of_writeText hleft (by decide)⟩

theorem outcome_save_of_place [Outside σ] (batch : Value) (hfree : w.files.place storeFile ≠ .blocked) :
    outcome (save batch) w = outcome (saveInto batch) (withDirectory w) := by
  unfold save withDirectory
  rw [Job.outcome_bind]
  dsimp only [Job.outcome_fileExists]
  rcases place_storeDirectory hfree with hdirectory | ⟨hnone, hplace⟩
  · have hthere : w.files.has storeDirectory = true := by rw [Files.has, hdirectory, Bool.or_true]
    rw [hthere]
    rfl
  · rw [hnone, if_pos Bool.not_false, Job.outcome_bind,
      show outcome (Job.makeDirectory storeDirectory) w = _ from Job.makeDirectory_of_place hplace]
    rfl

/-! ### The ids that incidents get -/

variable [Outside σ]

/-- The incident with the id it gets, and what is left to draw from. -/
def assign (incident : Value) (s : σ) : Value × σ :=
  match incident with
  | .record fields =>
    if hasOwnId (.record fields) then (.record fields, s)
    else (.record (Fields.set fields "id" (.text (drawnId (Outside.draw s).1))), (Outside.draw s).2)
  | v => (v, s)

def assignAll : List Value → σ → List Value
  | [], _ => []
  | incident :: rest, s => (assign incident s).1 :: assignAll rest (assign incident s).2

private theorem outcome_withId_record (fields : Fields) (w : World σ) :
    outcome (withId (.record fields)) w =
      (.ok (assign (.record fields) w.outside).1,
        { w with outside := (assign (.record fields) w.outside).2 }) := by
  rw [outcome_withId, hasProperId_record, assign]
  cases hasOwnId (.record fields) <;> rfl

private theorem eq_record_of_withId {given : Value} (h : Returns (withId incident) w given w') :
    ∃ fields, incident = .record fields := by
  obtain ⟨⟨points, hid⟩, -⟩ := withId_returns h
  unfold Returns at h
  rw [outcome_withId] at h
  cases hhas : hasProperId incident with
  | error e =>
    rw [hhas] at h
    cases (Prod.mk.inj h).1
  | ok proper =>
    rw [hhas] at h
    cases proper with
    | true =>
      cases h
      cases incident with
      | record fields => exact ⟨fields, rfl⟩
      | _ => cases hid
    | false =>
      cases incident with
      | record fields => exact ⟨fields, rfl⟩
      | _ => cases (Prod.mk.inj h).1

private theorem identify_eq_ok {given : List Value} (h : identify items w = .ok given) :
    given = assignAll items w.outside ∧ ∀ i ∈ items, ∃ fields, i = .record fields := by
  induction items generalizing given w with
  | nil =>
    cases h
    exact ⟨rfl, List.forall_mem_nil _⟩
  | cons incident rest ih =>
    obtain ⟨first, hfirst, h⟩ := bind_eq_ok.mp h
    obtain ⟨others, hothers, h⟩ := bind_eq_ok.mp h
    cases pure_eq_ok.mp h
    have hreturns : Returns (withId incident) w first (outcome (withId incident) w).2 := Prod.ext hfirst rfl
    obtain ⟨fields, rfl⟩ := eq_record_of_withId hreturns
    rw [outcome_withId_record] at hfirst hothers
    cases hfirst
    obtain ⟨rfl, hrecords⟩ := ih hothers
    exact ⟨rfl, List.forall_mem_cons.mpr ⟨⟨fields, rfl⟩, hrecords⟩⟩

/-- Those of the incidents, with the ids they get, whose ids are not among the old ones. -/
def arrivals (old items : List Value) (s : σ) : List Value :=
  (assignAll items s).filter fun i => textId i ∉ old.map textId

private theorem textId_set (fields : Fields) (id : String) :
    textId (.record (fields.set "id" (.text id))) = some (id.toList.map .char) := by
  rw [textId_eq_some_iff, Value.item_eq_ok_iff, Fields.lookup_set_self, Value.ofPoints_char]

theorem textId_assign (fields : Fields) (s : σ) : ∃ id, textId (assign (.record fields) s).1 = some id := by
  unfold assign
  dsimp only
  split
  case isTrue hown =>
    rw [hasOwnId] at hown
    cases hid : textId (.record fields) with
    | some id => exact ⟨id, rfl⟩
    | none =>
      rw [hid] at hown
      cases hown
  case isFalse => exact ⟨_, textId_set _ _⟩

private theorem isKnown_iff_textId (h : idsOf (.list old) = .ok known) {i : Value} {id : List CodePoint}
    (hid : textId i = some id) : isKnown known i = true ↔ textId i ∈ old.map textId := by
  have hitem := textId_eq_some_iff.mp hid
  rw [isKnown_iff hitem, ← idsOf_eq_ok h, List.mem_map, List.mem_map, hid, idOf_of_points hitem]
  refine exists_congr fun j => and_congr_right fun _ => ⟨fun hj => ?_, fun hj => ?_⟩
  · obtain ⟨v, hv, hhash⟩ := bind_eq_ok.mp hj
    rw [textId_eq_some_iff, hv, Value.eq_of_hashable hhash]
  · exact idOf_of_points (textId_eq_some_iff.mp hj)

private theorem filter_unknown (h : idsOf (.list old) = .ok known) {given : List Value}
    (hgiven : ∀ i ∈ given, ∃ id, textId i = some id) :
    given.filter (!isKnown known ·) = given.filter fun i => textId i ∉ old.map textId := by
  refine List.filter_congr fun i hi => ?_
  obtain ⟨id, hid⟩ := hgiven i hi
  rw [Bool.eq_iff_iff, Bool.not_eq_true', Bool.eq_false_iff, ne_eq, isKnown_iff_textId h hid,
    decide_eq_true_iff]

private theorem textId_assignAll (hrecords : ∀ i ∈ items, ∃ fields, i = .record fields) (s : σ) :
    ∀ i ∈ assignAll items s, ∃ id, textId i = some id := by
  induction items generalizing s with
  | nil => exact List.forall_mem_nil _
  | cons incident rest ih =>
    obtain ⟨⟨fields, rfl⟩, hrest⟩ := List.forall_mem_cons.mp hrecords
    exact List.forall_mem_cons.mpr ⟨textId_assign fields s, ih hrest _⟩

/-! ### When a call returns -/

private theorem returns_addOne_iff {n : Nat} {fields : Fields} {batch : Batch} :
    Returns (addOne known ⟨.list old, n⟩ (.record fields)) w batch w' ↔
      if isKnown known (assign (.record fields) w.outside).1 then
        ⟨.list old, n⟩ = batch ∧ { w with outside := (assign (.record fields) w.outside).2 } = w'
      else
        ∃ u, Returns (announce (assign (.record fields) w.outside).1)
            { w with outside := (assign (.record fields) w.outside).2 } u w' ∧
          ⟨.list (old ++ [(assign (.record fields) w.outside).1]), n + 1⟩ = batch := by
  obtain ⟨id, hid⟩ := textId_assign fields w.outside
  have hitem := textId_eq_some_iff.mp hid
  unfold addOne
  rw [Job.returns_bind_of_returns (outcome_withId_record fields w), isKnown, idOf_of_points hitem]
  simp only [Job.returns_lift_bind, Except.ok.injEq, exists_eq_left']
  split
  case isTrue => exact Job.returns_pure
  case isFalse =>
    simp only [append, Job.returns_lift_bind, Except.ok.injEq, exists_eq_left']
    simp only [Job.returns_bind, Job.returns_pure]
    constructor
    · rintro ⟨u, w₁, hannounce, hbatch, rfl⟩
      exact ⟨u, hannounce, hbatch⟩
    · rintro ⟨u, hannounce, hbatch⟩
      exact ⟨u, w', hannounce, hbatch, rfl⟩

private theorem lookup_assign (fields : Fields) (s : σ) :
    ∃ fields', (assign (.record fields) s).1 = .record fields' ∧
      ∀ name, name ≠ "id" → fields'.lookup name = fields.lookup name := by
  unfold assign
  dsimp only
  split
  · exact ⟨fields, rfl, fun _ _ => rfl⟩
  · exact ⟨_, rfl, fun name hname => Fields.lookup_set_of_ne _ _ hname⟩

private theorem hasParties_assign {fields : Fields} (h : HasParties (.record fields)) (s : σ) :
    HasParties (assign (.record fields) s).1 := by
  obtain ⟨fields', hassign, hlookup⟩ := lookup_assign fields s
  obtain ⟨victim, attribution, hvictim, hattribution⟩ := h
  rw [Value.item_eq_ok_iff] at hvictim hattribution
  refine ⟨victim, attribution, ?_, ?_⟩
  · rw [hassign, Value.item_eq_ok_iff, hlookup _ (by decide), hvictim]
  · rw [hassign, Value.item_eq_ok_iff, hlookup _ (by decide), hattribution]

theorem addAll_returns_iff (hparties : ∀ i ∈ items, HasParties i) (old : List Value) (n : Nat) (w : World σ) :
    (∃ batch w', Returns (items.foldlM (addOne known) ⟨.list old, n⟩) w batch w') ↔
      ∀ i ∈ (assignAll items w.outside).filter (!isKnown known ·), HasSteps i := by
  induction items generalizing old n w with
  | nil => exact ⟨fun _ => List.forall_mem_nil _, fun _ => ⟨_, w, rfl⟩⟩
  | cons incident rest ih =>
    obtain ⟨hfirst, hrest⟩ := List.forall_mem_cons.mp hparties
    obtain ⟨fields, rfl⟩ := eq_record_of_hasParties hfirst
    have hgiven := hasParties_assign hfirst w.outside
    simp only [List.foldlM_cons, Job.returns_bind, assignAll, List.filter_cons, returns_addOne_iff]
    cases isKnown known (assign (.record fields) w.outside).1 with
    | true =>
      simp only [if_true, Bool.not_true, Bool.false_eq_true, if_false]
      rw [← ih hrest old n { w with outside := (assign (.record fields) w.outside).2 }]
      constructor
      · rintro ⟨batch, w', -, -, ⟨rfl, rfl⟩, hreturns⟩
        exact ⟨batch, w', hreturns⟩
      · rintro ⟨batch, w', hreturns⟩
        exact ⟨batch, w', _, _, ⟨rfl, rfl⟩, hreturns⟩
    | false =>
      simp only [Bool.false_eq_true, if_false, Bool.not_false, if_true, List.forall_mem_cons]
      rw [← announce_returns_iff hgiven { w with outside := (assign (.record fields) w.outside).2 }]
      constructor
      · rintro ⟨batch, w', -, w₁, ⟨u, hannounce, rfl⟩, hreturns⟩
        have houtside : w₁.outside = (assign (.record fields) w.outside).2 := announce_outside hannounce
        refine ⟨⟨u, w₁, hannounce⟩, ?_⟩
        rw [← houtside]
        exact (ih hrest _ _ w₁).mp ⟨batch, w', hreturns⟩
      · rintro ⟨⟨u, w₁, hannounce⟩, hsteps⟩
        have houtside : w₁.outside = (assign (.record fields) w.outside).2 := announce_outside hannounce
        rw [← houtside] at hsteps
        obtain ⟨batch, w', hreturns⟩ :=
          (ih hrest (old ++ [(assign (.record fields) w.outside).1]) (n + 1) w₁).mpr hsteps
        exact ⟨batch, w', _, w₁, ⟨u, hannounce, rfl⟩, hreturns⟩

/-! ### What a call leaves -/

private theorem save_fails_place {e : Failure} (h : Fails (save batch) w e w') :
    w'.files.place storeFile = w.files.place storeFile ∨
      ∃ old items left, Opens w.files old ∧ batch.elements = .ok items ∧
        Json.BreaksOff 2 (.list (old ++ arrivals old items w.outside)) e left ∧
        w'.files.place storeFile = .file (.text left) := by
  rcases outcome_save batch w with hsave | ⟨e', hsave⟩
  · rcases saveInto_fails (hsave.symm.trans h) with
      hfiles | ⟨old, known, items, given, left, hread, hknown, hitems, hgiven, hbreaks, hplace⟩
    · exact .inl (by rw [hfiles, place_withDirectory])
    · obtain ⟨rfl, hrecords⟩ := identify_eq_ok hgiven
      rw [withDirectory_outside, filter_unknown hknown (textId_assignAll hrecords _)] at hbreaks
      exact .inr ⟨old, items, left, opens_withDirectory_iff.mp (opens_of_readStore hread), hitems, hbreaks,
        hplace⟩
  · cases hsave.symm.trans h
    exact .inl rfl

private theorem saveInto_of_save (h : Returns (save batch) w () w') :
    Returns (saveInto batch) (withDirectory w) () w' := by
  rcases outcome_save batch w with hsave | ⟨e, hsave⟩
  · exact hsave.symm.trans h
  · cases hsave.symm.trans h

private theorem addAll_of_save (h : Returns (save (.list items)) w () w') :
    ∃ stored known result w₁ w₂, Returns readStore (withDirectory w) stored w₁ ∧
      idsOf stored = .ok known ∧ Returns (items.foldlM (addOne known) ⟨stored, 0⟩) w₁ result w₂ := by
  have hsaved := saveInto_of_save h
  unfold saveInto at hsaved
  obtain ⟨stored, w₁, hread, hsaved⟩ := Job.returns_bind.mp hsaved
  obtain ⟨known, hknown, hsaved⟩ := Job.returns_lift_bind.mp hsaved
  obtain ⟨items', hitems, hsaved⟩ := Job.returns_lift_bind.mp hsaved
  obtain ⟨result, w₂, hadd, -⟩ := Job.returns_bind.mp hsaved
  cases hitems
  exact ⟨stored, known, result, w₁, w₂, hread, hknown, hadd⟩

theorem idsOf_eq_nil {stored : Value} (h : idsOf stored = .ok known) (hnot : ∀ old, stored ≠ .list old) :
    known = [] := by
  obtain ⟨parts, hparts, h⟩ := bind_eq_ok.mp h
  cases stored with
  | list old => exact absurd rfl (hnot old)
  | text s =>
    cases hparts
    cases hs : s.toList with
    | nil =>
      rw [hs] at h
      cases h
      rfl
    | cons c cs =>
      rw [hs] at h
      cases h
  | unpaired u =>
    cases hparts
    obtain ⟨points, hhalf⟩ := u
    cases points with
    | nil => cases hhalf
    | cons p points => cases p <;> cases h
  | record fields =>
    cases hparts
    cases fields with
    | nil =>
      cases h
      rfl
    | cons field fields => cases h
  | _ => cases hparts

private theorem eq_list_of_addOne {stored : Value} {n : Nat} {batch : Batch}
    (h : Returns (addOne [] ⟨stored, n⟩ incident) w batch w') : ∃ old, stored = .list old := by
  unfold addOne at h
  obtain ⟨given, w₁, -, h⟩ := Job.returns_bind.mp h
  obtain ⟨id, -, h⟩ := Job.returns_lift_bind.mp h
  rw [List.any_nil, if_neg Bool.false_ne_true] at h
  obtain ⟨stored', hstored, -⟩ := Job.returns_lift_bind.mp h
  cases stored with
  | list old => exact ⟨old, rfl⟩
  | _ => cases hstored

/-- A call with something to store does not return unless the file is there as a list or counts as empty. -/
theorem opens_of_save (hne : items ≠ []) (h : Returns (save (.list items)) w () w') :
    ∃ old, Opens w.files old := by
  obtain ⟨stored, known, result, w₁, w₂, hread, hknown, hadd⟩ := addAll_of_save h
  obtain ⟨old, rfl⟩ : ∃ old, stored = .list old := by
    by_contra hnot
    rw [idsOf_eq_nil hknown (not_exists.mp hnot)] at hadd
    cases items with
    | nil => exact hne rfl
    | cons incident rest =>
      rw [List.foldlM_cons] at hadd
      obtain ⟨batch, w₃, hfirst, -⟩ := Job.returns_bind.mp hadd
      exact hnot (eq_list_of_addOne hfirst)
  exact ⟨old, opens_withDirectory_iff.mp (opens_of_readStore hread)⟩

private theorem save_returns_place (hopens : Opens w.files old) (h : Returns (save batch) w () w') :
    ∃ known items, idsOf (.list old) = .ok known ∧ batch.elements = .ok items ∧
      (arrivals old items w.outside ≠ [] → (Value.list (old ++ arrivals old items w.outside)).Whole) ∧
      w'.files.place storeFile =
        if arrivals old items w.outside = [] then w.files.place storeFile
        else .file (.text (Json.writeIndented 2 (.list (old ++ arrivals old items w.outside)))) := by
  obtain ⟨known, items, given, hknown, hitems, hgiven, hplace⟩ :=
    saveInto_returns (readStore_returns (opens_withDirectory_iff.mpr hopens)) (saveInto_of_save h)
  obtain ⟨rfl, hrecords⟩ := identify_eq_ok hgiven
  rw [withDirectory_outside, filter_unknown hknown (textId_assignAll hrecords _)] at hplace
  refine ⟨known, items, hknown, hitems, ?_⟩
  change if arrivals old items w.outside = [] then _ else _ at hplace
  split
  case isTrue hnone =>
    rw [if_pos hnone] at hplace
    exact ⟨fun hsome => absurd hnone hsome, by rw [hplace, place_withDirectory]⟩
  case isFalse hsome =>
    rw [if_neg hsome] at hplace
    exact ⟨fun _ => hplace.1, hplace.2⟩

private theorem outcome_saveInto {w₁ : World σ} {result : Batch} (hread : Returns readStore w (.list old) w)
    (hknown : idsOf (.list old) = .ok known)
    (hadd : Returns (items.foldlM (addOne known) ⟨.list old, 0⟩) w result w₁) :
    outcome (saveInto (.list items)) w = outcome (writeBatch result) w₁ := by
  have hlifted : Returns (liftM (idsOf (.list old)) : Job σ (List Value)) w known w :=
    Job.returns_lift.mpr ⟨hknown, rfl⟩
  have helements : Returns (liftM (Value.list items).elements : Job σ (List Value)) w items w := rfl
  unfold saveInto
  rw [Job.outcome_bind_of_returns hread, Job.outcome_bind_of_returns hlifted,
    Job.outcome_bind_of_returns helements, Job.outcome_bind_of_returns hadd]

/-- A call with incidents that can be told of gets to the writing of the file, if there is anything new. -/
theorem outcome_save_of_steps (hopens : Opens w.files old) (hfree : w.files.place storeFile ≠ .blocked)
    (hparties : ∀ i ∈ items, HasParties i) (hids : ∀ i ∈ old, ∃ id, idOf i = .ok id)
    (hsteps : ∀ i ∈ arrivals old items w.outside, HasSteps i) :
    ∃ w₁, w₁.files = (withDirectory w).files ∧ outcome (save (.list items)) w = outcome (writeBatch
      ⟨.list (old ++ arrivals old items w.outside), (arrivals old items w.outside).length⟩) w₁ := by
  have hrecords : ∀ i ∈ items, ∃ fields, i = .record fields :=
    fun i hi => eq_record_of_hasParties (hparties i hi)
  obtain ⟨known, hknown⟩ := exists_idsOf hids
  have hnew := filter_unknown hknown (textId_assignAll hrecords (withDirectory w).outside)
  rw [withDirectory_outside] at hnew
  obtain ⟨result, w₁, hadd⟩ :
      ∃ result w₁, Returns (items.foldlM (addOne known) ⟨.list old, 0⟩) (withDirectory w) result w₁ :=
    (addAll_returns_iff hparties old 0 _).mpr (by rw [withDirectory_outside, hnew]; exact hsteps)
  refine ⟨w₁, (Job.keeps_foldlM (addOne_keeps known) items ⟨.list old, 0⟩).files hadd, ?_⟩
  obtain ⟨given, hgiven, rfl⟩ := addAll_returns hadd
  obtain ⟨rfl, -⟩ := identify_eq_ok hgiven
  rw [outcome_save_of_place _ hfree,
    outcome_saveInto (readStore_returns (opens_withDirectory_iff.mpr hopens)) hknown hadd, added,
    withDirectory_outside, hnew, Nat.zero_add]
  rfl

/-- A call returns exactly if the stored incidents have ids, the steps of the new ones can be counted and
all that is to be written can be encoded. -/
theorem save_returns_iff (hopens : Opens w.files old) (hfree : w.files.place storeFile ≠ .blocked)
    (hparties : ∀ i ∈ items, HasParties i) : (∃ w', Returns (save (.list items)) w () w') ↔
      (∀ i ∈ old, ∃ id, idOf i = .ok id) ∧ (∀ i ∈ arrivals old items w.outside, HasSteps i) ∧
        (arrivals old items w.outside ≠ [] →
          (Value.list (old ++ arrivals old items w.outside)).Whole) := by
  have hrecords : ∀ i ∈ items, ∃ fields, i = .record fields :=
    fun i hi => eq_record_of_hasParties (hparties i hi)
  have hread := readStore_returns (opens_withDirectory_iff.mpr hopens)
  constructor
  · rintro ⟨w', h⟩
    obtain ⟨stored, known, result, w₁, w₂, hread', hknown, hadd⟩ := addAll_of_save h
    cases hread.symm.trans hread'
    refine ⟨fun i hi => ?_, ?_, ?_⟩
    · have hmem : idOf i ∈ known.map .ok := by
        rw [← idsOf_eq_ok hknown]
        exact List.mem_map_of_mem hi
      obtain ⟨id, -, hid⟩ := List.mem_map.mp hmem
      exact ⟨id, hid.symm⟩
    · have hsteps := (addAll_returns_iff hparties old 0 _).mp ⟨result, w₂, hadd⟩
      rwa [withDirectory_outside, filter_unknown hknown (textId_assignAll hrecords _)] at hsteps
    · obtain ⟨-, items', -, hitems, hwhole, -⟩ := save_returns_place hopens h
      cases hitems
      exact hwhole
  · rintro ⟨hids, hsteps, hwhole⟩
    obtain ⟨w₁, hfiles, hsave⟩ := outcome_save_of_steps hopens hfree hparties hids hsteps
    unfold Returns
    rw [hsave]
    by_cases hnone : arrivals old items w.outside = []
    · rw [hnone]
      exact ⟨w₁, rfl⟩
    · have hwritable := writable_of_place hopens hfree
      rw [← hfiles] at hwritable
      rcases outcome_writeBatch (List.length_pos_iff.mpr hnone) hwritable with
        ⟨-, hreturns⟩ | ⟨e, w', left, -, ⟨why, hwhy, -⟩, -⟩
      · exact hreturns
      · rw [Json.fault?_pieces_eq_none.mpr (hwhole hnone)] at hwhy
        cases hwhy

def storedIncident : Value :=
  .record [("id", .text "incident--gen-10000")]

def oneStored : World Steady :=
  { outside := ⟨.rows [], .content .null⟩
    connected := false
    files := ⟨[(storeFile, .text "[\x7b\"id\": \"incident--gen-10000\"\x7d]")], []⟩ }

private theorem lists_oneStored : oneStored.files.Lists storeFile (.list [storedIncident]) := by
  have hplace : oneStored.files.place storeFile =
      .file (.text "[\x7b\"id\": \"incident--gen-10000\"\x7d]") := by rfl
  refine Files.lists_of_text hplace ?_
  simp [storedIncident, Text.unifyLineEnds, Json.read, Json.readValue, Json.readItems, Json.readMembers,
    Json.readText, Json.Cursor.skipSpace, Json.Cursor.drop, Json.isSpace, Json.nestingLimit, Fields.ofPairs,
    Fields.set, Fields.entry, Value.ofPoints, CodePoint.text, CodePoint.shown, CodePoint.isHalf, bind,
    Except.bind, pure, Except.pure]

private theorem oneStored_free : oneStored.files.place storeFile ≠ .blocked := by
  intro h
  cases h

private theorem exists_id_oneStored : ∀ i ∈ [storedIncident], ∃ id, idOf i = .ok id :=
  List.forall_mem_singleton.mpr ⟨.text "incident--gen-10000", rfl⟩

def generated (items : List Value) (s : σ) : List Value :=
  ((items.zip (assignAll items s)).filter (!hasOwnId ·.1)).map Prod.snd

def drawnIds : Nat → σ → List String
  | 0, _ => []
  | n + 1, s => drawnId (Outside.draw s).1 :: drawnIds n (Outside.draw s).2

private theorem textId_generated (hrecords : ∀ i ∈ items, ∃ fields, i = .record fields) (s : σ) :
    (generated items s).map textId =
      (drawnIds (items.countP (!hasOwnId ·)) s).map fun id => some (id.toList.map .char) := by
  induction items generalizing s with
  | nil => rfl
  | cons incident rest ih =>
    obtain ⟨⟨fields, rfl⟩, hrest⟩ := List.forall_mem_cons.mp hrecords
    have hothers := ih hrest (assign (.record fields) s).2
    unfold generated at hothers ⊢
    rw [assignAll, List.zip_cons_cons, List.filter_cons, List.countP_cons]
    cases hown : hasOwnId (.record fields) with
    | true =>
      rw [show (assign (.record fields) s).2 = s by rw [assign, if_pos hown]] at hothers ⊢
      simpa using hothers
    | false =>
      have hassign : assign (.record fields) s =
          (.record (Fields.set fields "id" (.text (drawnId (Outside.draw s).1))), (Outside.draw s).2) := by
        rw [assign, if_neg (by rw [hown]; exact Bool.false_ne_true)]
      have hid : textId (assign (.record fields) s).1 =
          some ((drawnId (Outside.draw s).1).toList.map .char) := by
        rw [hassign, textId_set]
      rw [hassign] at hid hothers ⊢
      simp only [Bool.not_false, if_true, List.map_cons, drawnIds, hid, hothers]

private theorem mem_arrivals_of_generated {s : σ} {i : Value} (hi : i ∈ generated items s) :
    i ∈ arrivals old items s ↔ textId i ∉ old.map textId := by
  obtain ⟨pair, hpair, rfl⟩ := List.mem_map.mp hi
  have hmem := (List.of_mem_zip (List.mem_of_mem_filter hpair)).2
  rw [arrivals, List.mem_filter, decide_eq_true_iff]
  exact and_iff_right hmem

/-- An incident without an id of its own is lost if the id drawn for it is stored already. After a call
that returns it is in the file exactly if no old incident has the id that was drawn, or an old one is the
same in all its fields; a call that fails adds nothing, or breaks off. -/
theorem save_keeps_generated_iff (w : World σ) {items : List Value} (hparties : ∀ i ∈ items, HasParties i) :
    (∀ e w', Fails (save (.list items)) w e w' → w'.files.place storeFile = w.files.place storeFile ∨
      ∃ old left, Opens w.files old ∧
        Json.BreaksOff 2 (.list (old ++ arrivals old items w.outside)) e left ∧
        w'.files.place storeFile = .file (.text left)) ∧
    (∀ w', Returns (save (.list items)) w () w' → items ≠ [] → ∃ old, Opens w.files old) ∧
    ∀ old, Opens w.files old →
      (w.files.place storeFile ≠ .blocked →
        ((∃ w', Returns (save (.list items)) w () w') ↔
          (∀ i ∈ old, ∃ id, idOf i = .ok id) ∧ (∀ i ∈ arrivals old items w.outside, HasSteps i) ∧
            (arrivals old items w.outside ≠ [] →
              (Value.list (old ++ arrivals old items w.outside)).Whole))) ∧
      (∀ w', Returns (save (.list items)) w () w' →
        w'.files.place storeFile =
          if arrivals old items w.outside = [] then w.files.place storeFile
          else .file (.text (Json.writeIndented 2 (.list (old ++ arrivals old items w.outside))))) ∧
      (generated items w.outside).map textId =
        (drawnIds (items.countP (!hasOwnId ·)) w.outside).map (fun id => some (id.toList.map .char)) ∧
      ∀ i ∈ generated items w.outside,
        i ∈ old ++ arrivals old items w.outside ↔ i ∈ old ∨ textId i ∉ old.map textId := by
  have hrecords : ∀ i ∈ items, ∃ fields, i = .record fields :=
    fun i hi => eq_record_of_hasParties (hparties i hi)
  refine ⟨fun e w' h => (save_fails_place h).imp_right ?_, fun w' h hne => opens_of_save hne h,
    fun old hopens => ?_⟩
  · rintro ⟨old, items', left, hopens, hitems, hbreaks, hplace⟩
    cases hitems
    exact ⟨old, left, hopens, hbreaks, hplace⟩
  refine ⟨fun hfree => save_returns_iff hopens hfree hparties, fun w' h => ?_,
    textId_generated hrecords w.outside, fun i hi => ?_⟩
  · obtain ⟨known, items', -, hitems, -, hplace⟩ := save_returns_place hopens h
    cases hitems
    exact hplace
  · rw [List.mem_append, mem_arrivals_of_generated hi]

/-- With the first number that is drawn the id comes out that the only stored incident has. -/
theorem save_loses_generated :
    let incident (id : Fields) : Value :=
      .record ([("title", .text "T"), ("victim", .record []), ("attribution", .record [])] ++ id)
    let given := incident [("id", .text "incident--gen-10000")]
    (∃ w', Returns (save (.list [incident []])) oneStored () w' ∧
        w'.files.place storeFile = oneStored.files.place storeFile) ∧
      given ∈ generated [incident []] oneStored.outside ∧
      given ∉ [storedIncident] ++ arrivals [storedIncident] [incident []] oneStored.outside := by
  intro incident given
  have hparties : ∀ i ∈ [incident []], HasParties i := List.forall_mem_singleton.mpr ⟨[], [], rfl, rfl⟩
  have hnone : arrivals [storedIncident] [incident []] oneStored.outside = [] := by rfl
  have hgiven : given ∈ generated [incident []] oneStored.outside :=
    show given ∈ [given] from List.mem_singleton.mpr rfl
  obtain ⟨-, -, hall⟩ := save_keeps_generated_iff oneStored hparties
  obtain ⟨hreturns, hcontent, -, hkept⟩ := hall [storedIncident] (.inl lists_oneStored)
  rw [hnone] at hreturns hcontent
  obtain ⟨w', hw'⟩ := (hreturns oneStored_free).mpr
    ⟨exists_id_oneStored, List.forall_mem_nil _, fun hnew => absurd rfl hnew⟩
  refine ⟨⟨w', hw', by rw [hcontent w' hw', if_pos rfl]⟩, hgiven, ?_⟩
  rw [hkept given hgiven]
  rintro (hsame | hnew)
  · have hlength := congrArg List.length (Value.record.inj (List.mem_singleton.mp hsame))
    exact absurd hlength (by decide)
  · exact hnew (List.mem_singleton.mpr rfl)

end ThreatAtlas.Incident
