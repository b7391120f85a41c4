import ThreatAtlas.Proofs.Incident.Import

/-!
# The ids in the store of incidents

A call of `save` brings in the incidents of its batch whose ids the store did not have when the call
began. So no id comes in by two calls, but a batch that has an id twice brings it in twice: the ids of
the store are distinct just when those of every call's newcomers are.
-/

namespace ThreatAtlas.Incident

open Job (Returns Fails Keeps outcome)

/-! ### Ids -/

/-- The incident has a text for its id, and can be written and read again. -/
def Identified (incident : Value) : Prop :=
  incident.Proper ∧ ∃ s, incident.item "id" = .ok (.text s)

variable {s : String} {incident batch : Value} {incidents known old : List Value}

theorem startsWith_withSign (negative : Bool) {whole : List Char} (h : Json.IsWhole whole) (more : List Char)
    (hs : s.toList = Json.withSign negative (whole ++ more)) : Text.startsWith idStart s = false := by
  have hstart : idStart.toList = 'i' :: "ncident--".toList := by decide
  rw [Text.startsWith, hs, hstart]
  cases negative with
  | true => rfl
  | false =>
    obtain ⟨c, cs, rfl⟩ := List.exists_cons_of_ne_nil h.ne_nil
    have hc : c.isDigit = true := h.digits c (by simp)
    have hne : 'i' ≠ c := by
      rintro rfl
      exact absurd hc (by decide)
    simp [Json.withSign, List.isPrefixOf, hne]

private theorem startsWith_quoteFor (cs more : List Char) :
    Text.startsWith idStart (String.ofList (Text.quoteFor cs :: more)) = false := by
  rw [Text.startsWith, String.toList_ofList]
  unfold Text.quoteFor
  split <;> rfl

private theorem startsWith_inner (v : Value) : Text.startsWith idStart v.inner = false := by
  cases v with
  | null => decide
  | bool b => cases b <;> decide
  | int n =>
    refine startsWith_withSign (n < 0) (Json.isWhole_toDigits n.natAbs) [] ?_
    rw [List.append_nil]
    exact Json.toList_toString_int n
  | real x =>
    change Text.startsWith idStart (Number.write x) = false
    cases hx : Number.exact x with
    | nan =>
      rw [Number.write, hx]
      decide
    | infinite negative =>
      rw [Number.write, hx]
      cases negative <;> decide
    | finite negative m e =>
      obtain ⟨whole, frac, es, htext, hwhole, -⟩ := Json.write_eq hx
      exact startsWith_withSign negative hwhole _ htext
  | text s => exact startsWith_quoteFor _ _
  | unpaired u => exact startsWith_quoteFor _ _
  | list items => simp [Value.inner, Text.startsWith, idStart, List.isPrefixOf]
  | record fields => simp [Value.inner, Text.startsWith, idStart, List.isPrefixOf]
  | under name v => exact startsWith_inner v

theorem exists_points_of_startsWith {v : Value} (hstart : Text.startsWith idStart v.display = true) :
    ∃ points, v = .ofPoints points := by
  cases v with
  | text s => exact ⟨_, (Value.ofPoints_char s).symm⟩
  | unpaired u => exact ⟨_, (Value.ofPoints_points u).symm⟩
  | _ => exact absurd ((startsWith_inner _).symm.trans hstart) Bool.false_ne_true

theorem idOf_of_points {points : List CodePoint} (h : incident.item "id" = .ok (.ofPoints points)) :
    idOf incident = .ok (.ofPoints points) := by
  unfold idOf
  rw [h]
  change (Value.ofPoints points).hashable = _
  unfold Value.ofPoints
  split <;> rfl

theorem idOf_of_item (h : incident.item "id" = .ok (.text s)) : idOf incident = .ok (.text s) := by
  rw [← Value.ofPoints_char] at h ⊢
  exact idOf_of_points h

variable {σ : Type}

private theorem announce_prints (incident : Value) : Job.Prints (announce incident : Job σ Unit) := by
  unfold announce
  repeat' first
    | exact Job.prints_say _
    | exact Job.prints_lift _
    | refine Job.prints_bind ?_ fun _ => ?_

variable {w w' : World σ}

theorem announce_outside {u : Unit} (h : Returns (announce incident) w u w') : w'.outside = w.outside := by
  obtain ⟨s, hs⟩ := announce_prints incident w
  rw [show outcome (announce incident) w = _ from h] at hs
  rw [show w' = w.printing s from hs]
  rfl

/-! ### The file -/

def Stores (files : Files) (incidents : List Value) : Prop :=
  if incidents = [] then files.has storeFile = false
  else files.place storeFile = .file (.text (Json.writeIndented 2 (.list incidents)))

def withDirectory (w : World σ) : World σ :=
  if w.files.has storeDirectory then w
  else { w with files := w.files.makeDirectory storeDirectory }

theorem withDirectory_outside (w : World σ) : (withDirectory w).outside = w.outside := by
  unfold withDirectory
  split <;> rfl

theorem place_withDirectory (w : World σ) :
    (withDirectory w).files.place storeFile = w.files.place storeFile := by
  unfold withDirectory
  split
  · rfl
  · exact Files.place_makeDirectory_of_notMem _ (by decide)

theorem has_withDirectory (w : World σ) : (withDirectory w).files.has storeFile = w.files.has storeFile := by
  unfold withDirectory
  split
  · rfl
  · exact Files.has_makeDirectory _ (by decide)

theorem Stores.withDirectory (h : Stores w.files incidents) : Stores (withDirectory w).files incidents := by
  rwa [Stores, has_withDirectory, place_withDirectory]

private theorem world_readStore (w : World σ) : (outcome readStore w).2 = w := by
  have hread := Job.world_readJson storeFile w
  unfold readStore
  rw [Job.outcome_bind, Job.outcome_fileExists]
  dsimp only
  split
  · rw [Job.outcome_tryCatch]
    rcases hrun : outcome (Job.readJson storeFile) w with ⟨r, w'⟩
    rw [hrun] at hread
    cases r with
    | ok v => exact hread
    | error e => cases e <;> exact hread
  · rfl

def reading (incidents : List Value) : Except Failure Value :=
  if incidents = [] then .ok (.list [])
  else (Json.read (Json.writeIndented 2 (.list incidents))).mapError
    (·.toFailure (Json.writeIndented 2 (.list incidents)))

private theorem proper_list (h : ∀ i ∈ incidents, Identified i) : (Value.list incidents).Proper :=
  Value.proper_list.mpr fun i hi => (h i hi).1

/-- What was written is never taken for a text that is not JSON. -/
theorem outcome_readStore (h : Stores w.files incidents) (hall : ∀ i ∈ incidents, Identified i) :
    outcome readStore w = (reading incidents, w) := by
  unfold readStore Stores reading at *
  rw [Job.outcome_bind, Job.outcome_fileExists]
  dsimp only
  by_cases hnone : incidents = []
  · rw [if_pos hnone] at h ⊢
    rw [h]
    rfl
  · rw [if_neg hnone] at h ⊢
    rw [if_pos (Files.has_of_place h), Job.outcome_tryCatch, Job.outcome_readJson h rfl,
      Json.unifyLineEnds_writeIndented, String.ofList_toList]
    rcases Json.read_writeIndented (proper_list hall) 2 with ⟨v, hread, -⟩ | ⟨e, hread, hlimit, -⟩
    · rw [hread]
      rfl
    · rw [hread]
      obtain ⟨fault, offset⟩ := e
      rcases hlimit with ⟨digits, rfl⟩ | ⟨part, rfl⟩ <;> rfl

theorem reading_eq_ok {v : Value} (hall : ∀ i ∈ incidents, Identified i) (h : reading incidents = .ok v) :
    ∃ read, v = .list read ∧ read.map Value.blur = incidents.map Value.blur := by
  unfold reading at h
  split at h
  case isTrue hnone =>
    cases h
    exact ⟨[], rfl, by rw [hnone]⟩
  case isFalse =>
    rcases Json.read_writeIndented (proper_list hall) 2 with ⟨w, hread, hblur⟩ | ⟨e, hread, -⟩
    · rw [hread] at h
      cases h
      exact Value.eq_list_of_blur hblur
    · rw [hread] at h
      cases h

private theorem identified_of_blur {read : List Value} (hall : ∀ i ∈ incidents, Identified i)
    (hblur : read.map Value.blur = incidents.map Value.blur) :
    (∀ i ∈ read, Identified i) ∧ read.map idOf = incidents.map idOf := by
  induction incidents generalizing read with
  | nil =>
    rw [List.map_nil, List.map_eq_nil_iff] at hblur
    subst hblur
    exact ⟨List.forall_mem_nil _, rfl⟩
  | cons i rest ih =>
    obtain ⟨j, others, rfl⟩ := List.exists_cons_of_ne_nil (l := read) (by rintro rfl; cases hblur)
    rw [List.map_cons, List.map_cons, List.cons.injEq] at hblur
    rw [List.forall_mem_cons] at hall
    obtain ⟨⟨hproper, s, hid⟩, hrest⟩ := hall
    obtain ⟨hothers, hids⟩ := ih hrest hblur.2
    have hj := Value.item_of_blur_eq hblur.1 hid
    refine ⟨List.forall_mem_cons.mpr ⟨⟨hproper.of_blur_eq hblur.1, s, hj⟩, hothers⟩, ?_⟩
    rw [List.map_cons, List.map_cons, hids, idOf_of_item hj, idOf_of_item hid]

theorem idsOf_eq_ok (h : idsOf (.list incidents) = .ok known) : incidents.map idOf = known.map .ok := by
  have hall : List.Forall₂ (fun i id => idOf i = .ok id) incidents known := mapM_eq_ok.mp h
  induction hall with
  | nil => rfl
  | cons hid _ ih => rw [List.map_cons, List.map_cons, hid, ih (mapM_eq_ok.mpr ‹_›)]

theorem exists_idsOf (h : ∀ i ∈ incidents, ∃ id, idOf i = .ok id) :
    ∃ known, idsOf (.list incidents) = .ok known := by
  induction incidents with
  | nil => exact ⟨[], rfl⟩
  | cons i rest ih =>
    obtain ⟨⟨id, hid⟩, hrest⟩ := List.forall_mem_cons.mp h
    obtain ⟨known, hknown⟩ := ih hrest
    refine ⟨id :: known, mapM_eq_ok.mpr (.cons hid (mapM_eq_ok.mp hknown))⟩

theorem isKnown_iff {i : Value} {points : List CodePoint} (hid : i.item "id" = .ok (.ofPoints points)) :
    isKnown known i = true ↔ idOf i ∈ known.map Except.ok := by
  rw [isKnown, idOf_of_points hid]
  simp

/-! ### The end of a call -/

def added (known : List Value) (old : List Value) (n : Nat) (given : List Value) : Batch :=
  ⟨.list (old ++ given.filter (!isKnown known ·)), n + (given.filter (!isKnown known ·)).length⟩

private theorem writeBatch_returns {n : Nat} {given : List Value}
    (h : Returns (writeBatch (added known old n given)) w () w') (hn : n = 0) :
    if given.filter (!isKnown known ·) = [] then w'.files = w.files
    else (Value.list (old ++ given.filter (!isKnown known ·))).Whole ∧ w'.files.place storeFile =
      .file (.text (Json.writeIndented 2 (.list (old ++ given.filter (!isKnown known ·))))) := by
  subst hn
  unfold writeBatch at h
  split
  case isTrue hnone =>
    rw [added, hnone, List.append_nil, List.length_nil, if_neg (Nat.lt_irrefl 0)] at h
    obtain ⟨-, rfl⟩ := Job.returns_pure.mp h
    rfl
  case isFalse hsome =>
    have hpos : 0 < (added known old 0 given).added := by
      rw [added, Nat.zero_add]
      exact List.length_pos_iff.mpr hsome
    rw [if_pos hpos] at h
    obtain ⟨u, w₁, hwrite, h⟩ := Job.returns_bind.mp h
    have hsay : w'.files = w₁.files := by
      refine Keeps.files ?_ h
      exact Job.keeps_bind (Job.keeps_lift _) fun _ => Job.keeps_say _
    obtain ⟨hwhole, hwrite⟩ := Job.writeJson_returns hwrite
    rw [hsay]
    exact ⟨hwhole, Job.place_of_writeText hwrite (by decide)⟩

/-- Nothing can fail any more once the file is written. -/
theorem writeBatch_fails {e : Failure} {n : Nat} (h : Fails (writeBatch ⟨.list old, n⟩) w e w') :
    w'.files = w.files ∨ ∃ left, Json.BreaksOff 2 (.list old) e left ∧
      w'.files.place storeFile = .file (.text left) := by
  unfold writeBatch at h
  split at h
  case isFalse => cases (Prod.mk.inj h).1
  case isTrue =>
    rcases Job.fails_bind.mp h with hwrite | ⟨_, w₁, -, hsay⟩
    · rcases Job.writeJson_fails hwrite with rfl | ⟨left, hbreaks, hleft⟩
      · exact .inl rfl
      · exact .inr ⟨left, hbreaks, Job.place_of_writeText hleft (by decide)⟩
    · cases (Prod.mk.inj hsay).1

/-! ### Giving ids -/

variable [Outside σ]

theorem outcome_withId (incident : Value) (w : World σ) :
    outcome (withId incident) w =
      match hasProperId incident with
      | .ok true => (.ok incident, w)
      | .ok false => (setId incident s!"incident--gen-{10000 + (Outside.draw w.outside).1.emod 90000}",
          { w with outside := (Outside.draw w.outside).2 })
      | .error e => (.error e, w) := by
  unfold withId
  rw [Job.outcome_bind, Job.outcome_lift]
  cases hasProperId incident with
  | error e => rfl
  | ok proper => cases proper <;> rfl

theorem withId_returns {given : Value} (h : Returns (withId incident) w given w') :
    (∃ points, given.item "id" = .ok (.ofPoints points)) ∧ (incident.Proper → given.Proper) := by
  unfold Returns at h
  rw [outcome_withId] at h
  cases hhas : hasProperId incident with
  | error e =>
    rw [hhas] at h
    cases (Prod.mk.inj h).1
  | ok proper =>
    rw [hhas] at h
    cases proper with
    | true =>
      cases h
      refine ⟨?_, id⟩
      unfold hasProperId at hhas
      obtain ⟨has, -, hhas⟩ := bind_eq_ok.mp hhas
      cases has with
      | true =>
        obtain ⟨v, hitem, hstart⟩ := bind_eq_ok.mp hhas
        obtain ⟨points, rfl⟩ := exists_points_of_startsWith (pure_eq_ok.mp hstart)
        exact ⟨points, hitem⟩
      | false => cases pure_eq_ok.mp hhas
    | false =>
      have hset := (Prod.mk.inj h).1
      cases incident with
      | record fields =>
        cases hset
        have hid := Value.item_eq_ok_iff.mpr (Fields.lookup_set_self fields "id"
          (.text s!"incident--gen-{10000 + (Outside.draw w.outside).1.emod 90000}"))
        refine ⟨⟨_, hid.trans (congrArg Except.ok (Value.ofPoints_char _).symm)⟩, fun hproper => ?_⟩
        exact ⟨hproper.tidy.set "id" trivial, hproper.whole.set "id" trivial⟩
      | _ => cases hset

private theorem withId_keeps (incident : Value) : Keeps (withId incident : Job σ Value) := by
  intro w
  rw [outcome_withId]
  split <;> exact ⟨rfl, rfl⟩

/-! ### One batch -/

def identify : List Value → World σ → Except Failure (List Value)
  | [], _ => .ok []
  | incident :: rest, w => do
    let given ← (outcome (withId incident) w).1
    let others ← identify rest (outcome (withId incident) w).2
    return given :: others

theorem whole_of_item {v : Value} {name : String} (h : incident.Whole) (hitem : incident.item name = .ok v) :
    v.Whole := by
  cases incident with
  | record fields =>
    obtain ⟨before, after, rfl, -⟩ := List.lookup_eq_some_iff.mp (Value.item_eq_ok_iff.mp hitem)
    exact Value.whole_record.mp h (name, v) (by simp)
  | _ => cases hitem

private theorem identified_of_points {points : List CodePoint} (h : incident.Proper)
    (hid : incident.item "id" = .ok (.ofPoints points)) : Identified incident := by
  have hwhole := whole_of_item h.whole hid
  unfold Value.ofPoints at hid hwhole
  split at hid
  case isTrue hhalf =>
    rw [dif_pos hhalf] at hwhole
    exact hwhole.elim
  case isFalse => exact ⟨h, _, hid⟩

theorem identified_of_identify {given : List Value} (hproper : ∀ incident ∈ incidents, incident.Proper)
    (h : identify incidents w = .ok given) : ∀ i ∈ given, Identified i := by
  induction incidents generalizing given w with
  | nil =>
    cases h
    exact List.forall_mem_nil _
  | cons incident rest ih =>
    rw [List.forall_mem_cons] at hproper
    obtain ⟨first, hfirst, h⟩ := bind_eq_ok.mp h
    obtain ⟨others, hothers, h⟩ := bind_eq_ok.mp h
    cases pure_eq_ok.mp h
    obtain ⟨hid, hkept⟩ := withId_returns (show Returns (withId incident) w first _ from Prod.ext hfirst rfl)
    obtain ⟨points, hid⟩ := hid
    exact List.forall_mem_cons.mpr ⟨identified_of_points (hkept hproper.1) hid, ih hproper.2 hothers⟩

private theorem identify_congr {v : World σ} (h : w.outside = v.outside) (incidents : List Value) :
    identify incidents w = identify incidents v := by
  induction incidents generalizing w v with
  | nil => rfl
  | cons incident rest ih =>
    have hstep : (outcome (withId incident) w).1 = (outcome (withId incident) v).1 ∧
        (outcome (withId incident) w).2.outside = (outcome (withId incident) v).2.outside := by
      rw [outcome_withId, outcome_withId, h]
      split <;> exact ⟨rfl, by first | rfl | exact h⟩
    rw [identify, identify, hstep.1, ih hstep.2]

theorem addOne_keeps (known : List Value) (batch : Batch) (incident : Value) :
    Keeps (addOne known batch incident : Job σ Batch) := by
  unfold addOne
  refine Job.keeps_bind (withId_keeps incident) fun given => ?_
  refine Job.keeps_bind (Job.keeps_lift _) fun id => ?_
  refine Job.keeps_ite (Job.keeps_pure _) ?_
  refine Job.keeps_bind (Job.keeps_lift _) fun stored => ?_
  exact Job.keeps_bind (announce_prints given).keeps fun _ => Job.keeps_pure _

private theorem addOne_returns {n : Nat} {batch : Batch}
    (h : Returns (addOne known ⟨.list old, n⟩ incident) w batch w') :
    ∃ given, (outcome (withId incident) w).1 = .ok given ∧
      (outcome (withId incident) w).2.outside = w'.outside ∧ batch = added known old n [given] := by
  unfold addOne at h
  obtain ⟨given, w₁, hgiven, h⟩ := Job.returns_bind.mp h
  obtain ⟨id, hid, h⟩ := Job.returns_lift_bind.mp h
  have hknown : isKnown known given = known.any (· == id) := by rw [isKnown, hid]
  have hrun : outcome (withId incident) w = (.ok given, w₁) := hgiven
  refine ⟨given, by rw [hrun], ?_⟩
  rw [hrun, added]
  split at h
  case isTrue hmem =>
    obtain ⟨rfl, rfl⟩ := Job.returns_pure.mp h
    simp [hknown, hmem]
  case isFalse hmem =>
    obtain ⟨stored, hstored, h⟩ := Job.returns_lift_bind.mp h
    cases hstored
    obtain ⟨u, w₂, hannounce, h⟩ := Job.returns_bind.mp h
    obtain ⟨rfl, rfl⟩ := Job.returns_pure.mp h
    refine ⟨(announce_outside hannounce).symm, ?_⟩
    simp [hknown, hmem]

theorem addAll_returns {n : Nat} {batch : Batch}
    (h : Returns (incidents.foldlM (addOne known) ⟨.list old, n⟩) w batch w') :
    ∃ given, identify incidents w = .ok given ∧ batch = added known old n given := by
  induction incidents generalizing old n w with
  | nil =>
    obtain ⟨rfl, -⟩ := Job.returns_pure.mp h
    exact ⟨[], rfl, by simp [added]⟩
  | cons incident rest ih =>
    rw [List.foldlM_cons] at h
    obtain ⟨first, w₁, hfirst, hrest⟩ := Job.returns_bind.mp h
    obtain ⟨given, hgiven, houtside, rfl⟩ := addOne_returns hfirst
    obtain ⟨others, hothers, rfl⟩ := ih hrest
    refine ⟨given :: others, ?_, ?_⟩
    · rw [identify, hgiven, identify_congr houtside, hothers]
      rfl
    · simp only [added, List.filter_cons, List.filter_nil]
      cases isKnown known given with
      | true => simp
      | false => simp [Nat.add_assoc, Nat.add_comm]

/-! ### One call -/

/-- A call makes the directory first, and stops with nothing changed where it cannot. -/
theorem outcome_save (batch : Value) (w : World σ) :
    outcome (save batch) w = outcome (saveInto batch) (withDirectory w) ∨
      ∃ e, outcome (save batch) w = (.error e, w) := by
  unfold save withDirectory
  rw [Job.outcome_bind]
  dsimp only [Job.outcome_fileExists]
  by_cases hthere : w.files.has storeDirectory = true
  · rw [hthere]
    exact .inl rfl
  · rw [Bool.eq_false_iff.mpr hthere, if_pos Bool.not_false, Job.outcome_bind]
    rcases Job.outcome_makeDirectory (Bool.eq_false_iff.mpr hthere) with hmade | ⟨e, hnot⟩
    · rw [hmade]
      exact .inl rfl
    · rw [hnot]
      exact .inr ⟨e, rfl⟩

def knownIds (w : World σ) : List Value :=
  match (outcome readStore w).1 >>= idsOf with
  | .ok ids => ids
  | .error _ => []

/-- The incidents of a batch that a call brings in: those with an id that the store does not have when
the call begins. A call that fails brings in none. -/
def newcomers (batch : Value) (w : World σ) : List Value :=
  match (outcome (save batch) w).1, (do identify (← batch.elements) w) with
  | .ok _, .ok given => given.filter (!isKnown (knownIds w) ·)
  | _, _ => []

private theorem proper_of_elements (h : batch.Proper) (helements : batch.elements = .ok incidents) :
    ∀ i ∈ incidents, i.Proper := by
  cases batch with
  | list items =>
    cases helements
    exact Value.proper_list.mp h
  | text s =>
    cases helements
    intro i hi
    obtain ⟨c, -, rfl⟩ := List.mem_map.mp hi
    exact ⟨trivial, trivial⟩
  | unpaired u => exact h.whole.elim
  | record fields =>
    cases helements
    intro i hi
    obtain ⟨field, -, rfl⟩ := List.mem_map.mp hi
    exact ⟨trivial, trivial⟩
  | _ => cases helements

/-- A call that returns has written the new incidents behind the old ones, or has none to write. -/
theorem saveInto_returns (hread : Returns readStore w (.list old) w) (h : Returns (saveInto batch) w () w') :
    ∃ known items given, idsOf (.list old) = .ok known ∧ batch.elements = .ok items ∧
      identify items w = .ok given ∧
      if given.filter (!isKnown known ·) = [] then w'.files = w.files
      else (Value.list (old ++ given.filter (!isKnown known ·))).Whole ∧ w'.files.place storeFile =
        .file (.text (Json.writeIndented 2 (.list (old ++ given.filter (!isKnown known ·))))) := by
  unfold saveInto at h
  rw [Job.returns_bind_of_returns hread] at h
  obtain ⟨known, hknown, h⟩ := Job.returns_lift_bind.mp h
  obtain ⟨items, hitems, h⟩ := Job.returns_lift_bind.mp h
  obtain ⟨result, w₁, hadd, h⟩ := Job.returns_bind.mp h
  have hfiles : w₁.files = w.files :=
    (Job.keeps_foldlM (addOne_keeps known) items ⟨.list old, 0⟩).files hadd
  obtain ⟨given, hgiven, rfl⟩ := addAll_returns hadd
  have hwritten := writeBatch_returns h rfl
  rw [hfiles] at hwritten
  exact ⟨known, items, given, hknown, hitems, hgiven, hwritten⟩

private theorem addOne_stored (known : List Value) {stored : Value} {batch : Batch}
    (hbatch : batch = ⟨stored, 0⟩ ∨ ∃ old, stored = .list old) (incident : Value) :
    Job.Ensures (fun _ => True) (fun result => result = ⟨stored, 0⟩ ∨ ∃ old, stored = .list old)
      (addOne known batch incident : Job σ Batch) := by
  refine fun w _ result w' h => ⟨?_, trivial⟩
  rcases hbatch with rfl | hlist
  · unfold addOne at h
    obtain ⟨given, w₁, -, h⟩ := Job.returns_bind.mp h
    obtain ⟨id, -, h⟩ := Job.returns_lift_bind.mp h
    split at h
    case isTrue => exact .inl (Job.returns_pure.mp h).1.symm
    case isFalse =>
      obtain ⟨longer, hlonger, -⟩ := Job.returns_lift_bind.mp h
      cases stored with
      | list old => exact .inr ⟨old, rfl⟩
      | _ => cases hlonger
  · exact .inr hlist

/-- A call that fails leaves the file as it was, unless an incident that is to be stored cannot be encoded:
then the file breaks off. -/
theorem saveInto_fails {e : Failure} (h : Fails (saveInto batch) w e w') : w'.files = w.files ∨
      ∃ old known items given left, Returns readStore w (.list old) w ∧ idsOf (.list old) = .ok known ∧
        batch.elements = .ok items ∧ identify items w = .ok given ∧
        Json.BreaksOff 2 (.list (old ++ given.filter (!isKnown known ·))) e left ∧
        w'.files.place storeFile = .file (.text left) := by
  unfold saveInto at h
  have hworld := world_readStore w
  rcases Job.fails_bind.mp h with hread | ⟨stored, w₁, hread, hrun⟩
  · rw [show outcome readStore w = _ from hread] at hworld
    exact .inl (congrArg World.files hworld)
  rw [show outcome readStore w = _ from hread] at hworld
  obtain rfl : w₁ = w := hworld
  rcases Job.fails_bind.mp hrun with hids | ⟨known, w₂, hids, hrun⟩
  · exact .inl ((Job.keeps_lift _).files_of_fails hids)
  obtain ⟨hknown, rfl⟩ := Job.returns_lift.mp hids
  rcases Job.fails_bind.mp hrun with hbroken | ⟨items, w₂, hlifted, hrun⟩
  · exact .inl ((Job.keeps_lift _).files_of_fails hbroken)
  obtain ⟨hitems, rfl⟩ := Job.returns_lift.mp hlifted
  have hkeeps := Job.keeps_foldlM (σ := σ) (addOne_keeps known) items ⟨stored, 0⟩
  rcases Job.fails_bind.mp hrun with hadd | ⟨result, w₃, hadd, hwrite⟩
  · exact .inl (hkeeps.files_of_fails hadd)
  rw [← hkeeps.files hadd]
  have hstored := Job.ensures_foldlM (fun batch hbatch i _ => addOne_stored known hbatch i)
    (.inl rfl : (⟨stored, 0⟩ : Batch) = ⟨stored, 0⟩ ∨ _) _ trivial result w₃ hadd
  rcases hstored.1 with rfl | ⟨old, rfl⟩
  · cases (Prod.mk.inj hwrite).1
  obtain ⟨given, hgiven, rfl⟩ := addAll_returns hadd
  refine (writeBatch_fails hwrite).imp_right fun hleft => ?_
  obtain ⟨left, hbreaks, hplace⟩ := hleft
  exact ⟨old, known, items, given, left, hread, hknown, hitems, hgiven, hbreaks, hplace⟩

private theorem saveInto_stores (hstores : Stores w.files incidents) (hall : ∀ i ∈ incidents, Identified i)
    (hbatch : batch.Proper) (h : Returns (saveInto batch) w () w') :
    ∃ known given incidents', (reading incidents >>= idsOf) = .ok known ∧
      (batch.elements >>= (identify · w)) = .ok given ∧ (∀ i ∈ given, Identified i) ∧
      Stores w'.files incidents' ∧ (∀ i ∈ incidents', Identified i) ∧
      incidents'.map idOf = (incidents ++ given.filter (!isKnown known ·)).map idOf := by
  obtain ⟨stored, w₁, hread, -⟩ := Job.returns_bind.mp h
  have hreading := (outcome_readStore hstores hall).symm.trans hread
  rw [Prod.mk.injEq] at hreading
  obtain ⟨hreading, rfl⟩ := hreading
  obtain ⟨old, rfl, hblur⟩ := reading_eq_ok hall hreading
  obtain ⟨hold, hids⟩ := identified_of_blur hall hblur
  obtain ⟨known, items, given, hknown, hitems, hgiven, hplace⟩ := saveInto_returns hread h
  have hidentified := identified_of_identify (proper_of_elements hbatch hitems) hgiven
  have hknown' : (reading incidents >>= idsOf) = .ok known := bind_eq_ok.mpr ⟨_, hreading, hknown⟩
  have hgiven' : (batch.elements >>= (identify · w)) = .ok given := bind_eq_ok.mpr ⟨items, hitems, hgiven⟩
  refine ⟨known, given, ?_⟩
  split at hplace
  case isTrue hnone =>
    exact ⟨incidents, hknown', hgiven', hidentified, by rwa [hplace], hall, by rw [hnone, List.append_nil]⟩
  case isFalse hsome =>
    refine ⟨old ++ given.filter (!isKnown known ·), hknown', hgiven', hidentified, ?_, ?_, ?_⟩
    · rw [Stores, if_neg (by simp [hsome])]
      exact hplace.2
    · intro i hi
      rcases List.mem_append.mp hi with hi | hi
      · exact hold i hi
      · exact hidentified i (List.mem_of_mem_filter hi)
    · rw [List.map_append, List.map_append, hids]

private theorem saveInto_fails_of_proper {e : Failure} (hstores : Stores w.files incidents)
    (hall : ∀ i ∈ incidents, Identified i) (hbatch : batch.Proper) (h : Fails (saveInto batch) w e w') :
    w'.files = w.files := by
  rcases saveInto_fails h with hfiles | ⟨old, known, items, given, left, hread, -, hitems, hgiven, hbreaks, -⟩
  · exact hfiles
  have hreading := (outcome_readStore hstores hall).symm.trans hread
  obtain ⟨old', heq, hblur⟩ := reading_eq_ok hall (Prod.mk.inj hreading).1
  obtain rfl := Value.list.inj heq
  have hold := (identified_of_blur hall hblur).1
  have hidentified := identified_of_identify (proper_of_elements hbatch hitems) hgiven
  have hwhole : (Value.list (old ++ given.filter (!isKnown known ·))).Whole := by
    refine Value.whole_list.mpr fun i hi => ?_
    rcases List.mem_append.mp hi with hi | hi
    · exact (hold i hi).1.whole
    · exact (hidentified i (List.mem_of_mem_filter hi)).1.whole
  obtain ⟨why, hwhy, -⟩ := hbreaks
  rw [Json.fault?_pieces_eq_none.mpr hwhole] at hwhy
  cases hwhy

private theorem save_step (hstores : Stores w.files incidents) (hall : ∀ i ∈ incidents, Identified i)
    (hbatch : batch.Proper) : ∃ incidents', Stores (outcome (save batch) w).2.files incidents' ∧
      (∀ i ∈ incidents', Identified i) ∧
      incidents'.map idOf = incidents.map idOf ++ (newcomers batch w).map idOf ∧
      ∀ i ∈ newcomers batch w, idOf i ∉ incidents.map idOf := by
  have hfailed : ∀ e w', outcome (save batch) w = (.error e, w') → newcomers batch w = [] := by
    intro e w' h
    rw [newcomers, h]
  have hstores₁ := hstores.withDirectory
  rcases outcome_save batch w with hsave | ⟨e, hsave⟩
  · rcases hrun : outcome (saveInto batch) (withDirectory w) with ⟨r, w'⟩
    rw [hrun] at hsave
    cases r with
    | ok u =>
      obtain ⟨known, given, incidents', hknown, hgiven, hidentified, hstores', hall', hids⟩ :=
        saveInto_stores hstores₁ hall hbatch hrun
      have hknownIds : knownIds w = known := by
        rw [knownIds, outcome_readStore hstores hall, hknown]
      have hnew : newcomers batch w = given.filter (!isKnown known ·) := by
        have hgiven₀ : (do identify (← batch.elements) w) = .ok given := by
          rw [← hgiven]
          exact bind_congr fun elements => identify_congr (withDirectory_outside w).symm elements
        rw [newcomers, hsave, hgiven₀, hknownIds]
      rw [hsave, hnew]
      refine ⟨incidents', hstores', hall', by rw [hids, List.map_append], ?_⟩
      intro i hi hmem
      obtain ⟨higiven, hunknown⟩ := List.mem_filter.mp hi
      obtain ⟨stored, hread, hidsOf⟩ := bind_eq_ok.mp hknown
      obtain ⟨old, rfl, hblur⟩ := reading_eq_ok hall hread
      obtain ⟨-, s, hid⟩ := hidentified i higiven
      rw [← Value.ofPoints_char] at hid
      rw [← (identified_of_blur hall hblur).2, idsOf_eq_ok hidsOf, ← isKnown_iff hid] at hmem
      rw [hmem] at hunknown
      cases hunknown
    | error e =>
      have hfiles := saveInto_fails_of_proper hstores₁ hall hbatch hrun
      rw [hfailed e w' hsave, hsave]
      refine ⟨incidents, ?_, hall, by simp, List.forall_mem_nil _⟩
      dsimp only
      rwa [hfiles]
  · rw [hfailed e w hsave, hsave]
    exact ⟨incidents, hstores, hall, by simp, List.forall_mem_nil _⟩

/-! ### Many calls -/

/-- The world after a call for every batch, whatever each call comes to. -/
def saveAll : List Value → World σ → World σ
  | [], w => w
  | batch :: rest, w => saveAll rest (outcome (save batch) w).2

def broughtIn : List Value → World σ → List (List Value)
  | [], _ => []
  | batch :: rest, w => newcomers batch w :: broughtIn rest (outcome (save batch) w).2

/-- The calls one after the other: the ids of the store are those it had and those brought in, and an id
is twice among them only if it was before or came in twice by one call. -/
theorem saveAll_stores {batches : List Value} (hstores : Stores w.files incidents)
    (hall : ∀ i ∈ incidents, Identified i) (hbatches : ∀ batch ∈ batches, batch.Proper) :
    ∃ incidents', Stores (saveAll batches w).files incidents' ∧ (∀ i ∈ incidents', Identified i) ∧
      incidents'.map idOf = incidents.map idOf ++ (broughtIn batches w).flatten.map idOf ∧
      ((incidents'.map idOf).Nodup ↔
        (incidents.map idOf).Nodup ∧ ∀ new ∈ broughtIn batches w, (new.map idOf).Nodup) := by
  induction batches generalizing incidents w with
  | nil => exact ⟨incidents, hstores, hall, by simp [broughtIn], by simp [broughtIn]⟩
  | cons batch rest ih =>
    rw [List.forall_mem_cons] at hbatches
    obtain ⟨incidents₁, hstores₁, hall₁, hids₁, hfresh⟩ := save_step hstores hall hbatches.1
    obtain ⟨incidents', hstores', hall', hids', hnodup⟩ := ih hstores₁ hall₁ hbatches.2
    refine ⟨incidents', hstores', hall', ?_, ?_⟩
    · rw [hids', hids₁, broughtIn, List.flatten_cons, List.map_append, List.append_assoc]
    · have hdisjoint : (incidents.map idOf).Disjoint ((newcomers batch w).map idOf) := by
        intro id hold hnew
        obtain ⟨i, hi, rfl⟩ := List.mem_map.mp hnew
        exact hfresh i hi hold
      rw [hnodup, hids₁, List.nodup_append', broughtIn, List.forall_mem_cons, and_assoc, and_assoc]
      simp only [hdisjoint, true_and]

/-- With no store to begin with, the ids of the store are distinct exactly if those of every call's
newcomers are: no id comes in by two calls, but a call does not look for ids twice in its batch. -/
theorem saveAll_distinct_iff {w : World σ} (hnone : w.files.has storeFile = false) {batches : List Value}
    (hbatches : ∀ batch ∈ batches, batch.Proper) :
    ∃ incidents, Stores (saveAll batches w).files incidents ∧ (∀ i ∈ incidents, Identified i) ∧
      incidents.map idOf = (broughtIn batches w).flatten.map idOf ∧
      ((incidents.map idOf).Nodup ↔ ∀ new ∈ broughtIn batches w, (new.map idOf).Nodup) := by
  have hempty : Stores w.files [] := by rwa [Stores, if_pos rfl]
  obtain ⟨incidents, hstores, hall, hids, hnodup⟩ :=
    saveAll_stores hempty (List.forall_mem_nil _) hbatches
  exact ⟨incidents, hstores, hall, by simpa using hids, by simpa using hnodup⟩

/-- A batch with the same id twice is stored with both. -/
theorem saveAll_repeated_id :
    let incident (title : String) : Value := .record [("id", .text "incident--1"), ("title", .text title),
      ("victim", .record []), ("attribution", .record [])]
    let w : World Steady :=
      { outside := ⟨.rows [], .content .null⟩, connected := false, files := Files.empty }
    ∃ incidents, Stores (saveAll [.list [incident "A", incident "B"]] w).files incidents ∧
      incidents.map idOf = [.ok (.text "incident--1"), .ok (.text "incident--1")] ∧
      ¬ (incidents.map idOf).Nodup := by
  intro incident w
  have hproper : ∀ batch ∈ [Value.list [incident "A", incident "B"]], batch.Proper := by
    have hincident (title : String) : (incident title).Proper :=
      ⟨by simp [incident, Value.Tidy, Value.Every, Value.EveryField, Value.NamesOnce],
        by simp [incident, Value.Whole, Value.Every, Value.EveryField, Value.IsPaired]⟩
    simp [Value.proper_list, hincident]
  have hnew : broughtIn [.list [incident "A", incident "B"]] w = [[incident "A", incident "B"]] := rfl
  obtain ⟨incidents, hstores, -, hids, hnodup⟩ := saveAll_distinct_iff (show w.files.has storeFile = false by
    decide +kernel) hproper
  rw [hnew] at hids hnodup
  refine ⟨incidents, hstores, hids, ?_⟩
  rw [hnodup]
  intro hdistinct
  have htwice := hdistinct _ (List.mem_singleton.mpr rfl)
  exact absurd htwice (List.not_nodup_cons_of_mem (List.mem_singleton.mpr rfl))

end ThreatAtlas.Incident
