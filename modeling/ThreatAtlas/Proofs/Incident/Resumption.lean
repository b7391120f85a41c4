import ThreatAtlas.Proofs.Incident.Store
import ThreatAtlas.Proofs.Json.Reading
import ThreatAtlas.Proofs.Sending
import ThreatAtlas.Proofs.Value.Sort

/-!
# Taking up an import again

The log is only ever extended: behind what it held stand the incidents that were brought in, with their
steps sorted and their ids unchanged. What is written can be read again, so the next run knows these ids and
sends queries for the other incidents only; once all have been brought in, it sends none.
-/

namespace ThreatAtlas.Incident

open Job (Returns Sends Delivers outcome)
open Json (Readable)

/-! ### Steps in order -/

def stepNumber (step : Value) : Except Failure Value :=
  step.getD "step" (.int 0)

/-- The same steps, none directly behind one of a greater number. -/
structure Ordered (steps sorted : List Value) : Prop where
  perm : sorted.Perm steps
  rising : sorted.IsChain fun s t => ∃ m n, stepNumber s = .ok m ∧ stepNumber t = .ok n ∧
    Value.MayPrecede m n
  /-- Where all of these are numbers indeed, no later step has a smaller one. -/
  numeric : (∀ s ∈ steps, ∃ m p, stepNumber s = .ok m ∧ Value.Weighs m p) →
    sorted.Pairwise fun s t => ∀ m n p q, stepNumber s = .ok m → stepNumber t = .ok n →
      Value.Weighs m p → Value.Weighs n q → p ≤ q

private theorem numbered_eq_ok {steps : List Value} {items : List (Value × Value)}
    (h : (steps.mapM fun s => do return (← s.getD "step" (.int 0), s)) = .ok items) :
    items.map Prod.snd = steps ∧ ∀ item ∈ items, stepNumber item.2 = .ok item.1 := by
  have hall := mapM_eq_ok.mp h
  clear h
  induction hall with
  | nil => exact ⟨rfl, List.forall_mem_nil _⟩
  | @cons s item steps items hitem _ ih =>
    obtain ⟨number, hnumber, hitem⟩ := bind_eq_ok.mp hitem
    cases hitem
    exact ⟨by rw [List.map_cons, ih.1], List.forall_mem_cons.mpr ⟨hnumber, ih.2⟩⟩

private theorem sortSteps_eq_ok {steps sorted : List Value} (h : sortSteps steps = .ok sorted) :
    Ordered steps sorted := by
  obtain ⟨items, hitems, hsort⟩ := bind_eq_ok.mp h
  obtain ⟨rfl, hnumber⟩ := numbered_eq_ok hitems
  obtain ⟨order, hperm, hrising, rfl⟩ := Value.sortByKey_eq_ok hsort
  have hnumber' : ∀ item ∈ order, stepNumber item.2 = .ok item.1 :=
    fun item hitem => hnumber item (hperm.subset hitem)
  refine ⟨hperm.map _, ?_, fun hnumbers => ?_⟩
  · rw [List.isChain_map]
    refine List.IsChain.imp_of_mem_imp ?_ hrising
    intro a b ha hb hab
    exact ⟨a.1, b.1, hnumber' a ha, hnumber' b hb, hab⟩
  · have hweighs : ∀ a ∈ order, ∃ p, Value.Weighs a.1 p := by
      intro a ha
      obtain ⟨m, p, hm, hp⟩ := hnumbers a.2 (List.mem_map_of_mem (hperm.subset ha))
      rw [hnumber' a ha, Except.ok.injEq] at hm
      exact ⟨p, hm ▸ hp⟩
    rw [List.pairwise_map]
    refine (hrising.pairwise hweighs).imp_of_mem ?_
    intro a b ha hb hab m n p q hm hn hp hq
    rw [hnumber' a ha, Except.ok.injEq] at hm
    rw [hnumber' b hb, Except.ok.injEq] at hn
    subst hm hn
    exact hab p q hp hq

/-- What becomes of an incident that is brought in: its steps are sorted, if it has any. -/
inductive FlowSorted : Value → Value → Prop
  | unchanged {fs : Fields} (h : fs.lookup "attack_flow" = none) : FlowSorted (.record fs) (.record fs)
  | sorted {fs : Fields} {steps sorted : List Value} (h : fs.lookup "attack_flow" = some (.list steps))
      (hordered : Ordered steps sorted) :
      FlowSorted (.record fs) (.record (Fields.set fs "attack_flow" (.list sorted)))

variable {incident i v : Value} {incidents known recorded done : List Value} {s : String}
  {files files' : Files}

private theorem sortFlow_eq_ok {r : Value × List Value} (h : sortFlow incident = .ok r) :
    FlowSorted incident r.1 := by
  obtain ⟨flow, hflow, h⟩ := bind_eq_ok.mp h
  cases incident with
  | record fs =>
    cases hflow
    cases hlookup : fs.lookup "attack_flow" with
    | none =>
      rw [hlookup] at h
      obtain ⟨sorted, -, h⟩ := bind_eq_ok.mp h
      dsimp only at h
      rw [Fields.has, hlookup, if_neg (by decide)] at h
      cases h
      exact .unchanged hlookup
    | some flow =>
      rw [hlookup] at h
      cases flow with
      | list steps =>
        obtain ⟨sorted, hsorted, h⟩ := bind_eq_ok.mp h
        dsimp only at h
        rw [Fields.has, hlookup, if_pos (by rfl)] at h
        cases h
        exact .sorted hlookup (sortSteps_eq_ok hsorted)
      | _ => cases h
  | _ => cases hflow

theorem flowSorted_of_yields {qs : List Query} (h : (plan incident).Yields i qs) : FlowSorted incident i := by
  have hend (id : Value) {rs : List Query} (hrs : Plan.Yields (do
      let sorted ← sortFlow incident
      let _ ← sorted.2.foldlM (planStep id) none
      return sorted.1) i rs) : FlowSorted incident i := by
    obtain ⟨sorted, _, _, hsorted, hrs, -⟩ := Plan.yields_bind.mp hrs
    obtain ⟨_, _, _, -, hrs, -⟩ := Plan.yields_bind.mp hrs
    rw [← (Plan.yields_pure.mp hrs).1]
    exact sortFlow_eq_ok (Plan.yields_lift.mp hsorted).1
  unfold plan at h
  obtain ⟨params, _, _, -, h, -⟩ := Plan.yields_bind.mp h
  obtain ⟨_, _, _, -, h, -⟩ := Plan.yields_bind.mp h
  obtain ⟨id, _, _, -, h, -⟩ := Plan.yields_bind.mp h
  obtain ⟨attribution, _, _, -, h, -⟩ := Plan.yields_bind.mp h
  obtain ⟨actor, _, _, -, h, -⟩ := Plan.yields_bind.mp h
  dsimp only at h
  split at h
  · obtain ⟨_, _, _, -, h, -⟩ := Plan.yields_bind.mp h
    exact hend id h
  · exact hend id h

private theorem Attempt.flowSorted_of_logged {σ : Type} [Outside σ] {a : Attempt σ} (h : a.logged = some i) :
    FlowSorted a.incident i := by
  obtain ⟨qs, hplan, -⟩ := Attempt.logged_eq_some_iff.mp h
  exact flowSorted_of_yields hplan

namespace FlowSorted

private theorem item_id {incident i : Value} (h : FlowSorted incident i) :
    i.item "id" = incident.item "id" := by
  cases h with
  | unchanged => rfl
  | sorted _ _ =>
    unfold Value.item
    dsimp only
    rw [Fields.lookup_set_of_ne _ _ (by decide)]

private theorem readable {incident i : Value} (h : FlowSorted incident i) {levels : Nat}
    (hincident : Readable incident (levels + 1)) : Readable i (levels + 1) := by
  cases h with
  | unchanged => exact hincident
  | @sorted fs steps sorted hlookup hordered =>
    refine hincident.set "attack_flow" ?_
    obtain ⟨before, after, rfl, -⟩ := List.lookup_eq_some_iff.mp hlookup
    have hsteps : Readable (.list steps) levels :=
      ⟨(Value.tidy_record.mp hincident.tidy).2 ("attack_flow", .list steps) (by simp),
        Value.fits_record.mp hincident.fits ("attack_flow", .list steps) (by simp)⟩
    exact hsteps.perm hordered.perm

end FlowSorted

/-! ### Ids of the log -/

def idsIn (incidents : List Value) : List Value :=
  incidents.filterMap fun i => (idOf i).toOption

private theorem idsIn_of_idsOf (h : idsOf (.list incidents) = .ok known) : idsIn incidents = known := by
  have hall : List.Forall₂ (fun i id => idOf i = .ok id) incidents known := mapM_eq_ok.mp h
  clear h
  induction hall with
  | nil => rfl
  | cons hid _ ih =>
    rw [← ih, idsIn, List.filterMap_cons, hid]
    rfl

private theorem isKnown_idsIn_iff (hid : i.item "id" = .ok (.text s)) :
    isKnown (idsIn incidents) i = true ↔ ∃ j ∈ incidents, j.item "id" = .ok (.text s) := by
  rw [isKnown, idOf_of_item hid]
  dsimp only
  rw [List.any_eq_true]
  constructor
  · intro h
    obtain ⟨id, hmem, hsame⟩ := h
    obtain ⟨j, hj, hjd⟩ := List.mem_filterMap.mp hmem
    obtain ⟨v, hitem, hhash⟩ := bind_eq_ok.mp (toOption_eq_some_iff.mp hjd)
    refine ⟨j, hj, ?_⟩
    rw [hitem, Value.eq_of_hashable hhash, Value.beq_text_iff.mp hsame]
  · intro h
    obtain ⟨j, hj, hjd⟩ := h
    refine ⟨.text s, List.mem_filterMap.mpr ⟨j, hj, ?_⟩, Value.beq_text_iff.mpr rfl⟩
    rw [idOf_of_item hjd]
    rfl

private theorem isKnown_idsIn_of_blur {read : List Value} (hid : i.item "id" = .ok (.text s))
    (hblur : read.map Value.blur = incidents.map Value.blur) :
    isKnown (idsIn read) i = isKnown (idsIn incidents) i := by
  have hforward {xs ys : List Value} (hxs : xs.map Value.blur = ys.map Value.blur)
      (hknown : isKnown (idsIn xs) i = true) : isKnown (idsIn ys) i = true := by
    rw [isKnown_idsIn_iff hid] at hknown ⊢
    obtain ⟨j, hj, hjd⟩ := hknown
    have hmem : j.blur ∈ ys.map Value.blur := hxs ▸ List.mem_map_of_mem hj
    obtain ⟨k, hk, hsame⟩ := List.mem_map.mp hmem
    exact ⟨k, hk, Value.item_of_blur_eq hsame hjd⟩
  rw [Bool.eq_iff_iff]
  exact ⟨hforward hblur, hforward hblur.symm⟩

private theorem isOk_idOf_blur (v : Value) : (idOf v.blur).isOk = (idOf v).isOk := by
  unfold idOf
  rw [Value.item_blur]
  cases v.item "id" with
  | error e => rfl
  | ok id => cases id <;> rfl

private theorem exists_idsOf_of_blur {read : List Value} (h : ∀ i ∈ incidents, ∃ id, idOf i = .ok id)
    (hblur : read.map Value.blur = incidents.map Value.blur) : ∃ known, idsOf (.list read) = .ok known := by
  refine exists_idsOf fun j hj => ?_
  have hmem : j.blur ∈ incidents.map Value.blur := hblur ▸ List.mem_map_of_mem hj
  obtain ⟨i, hi, hsame⟩ := List.mem_map.mp hmem
  obtain ⟨id, hid⟩ := h i hi
  have hok : (idOf j).isOk = true := by
    rw [← isOk_idOf_blur, ← hsame, isOk_idOf_blur, hid]
    rfl
  cases hj : idOf j with
  | ok id => exact ⟨id, rfl⟩
  | error e =>
    rw [hj] at hok
    cases hok

/-! ### The files after a run -/

theorem readable_of_lists {path : String} (h : files.Lists path v) : Readable v Json.nestingLimit := by
  unfold Files.Lists at h
  split at h
  · obtain ⟨content, cs, -, -, hread⟩ := h
    exact Json.readable_of_read hread
  · rw [h]
    exact Json.readable_list.mpr (List.forall_mem_nil _)

theorem LogExtended.eq (h : LogExtended files files' done) (hlog : files.Lists logFile (.list recorded)) :
    files' = if done = [] then files
      else files.put logFile (.text (Json.writeIndented 2 (.list (recorded ++ done)))) := by
  unfold LogExtended at h
  split at h
  case isTrue hnone => rw [if_pos hnone, h]
  case isFalse hsome =>
    obtain ⟨old, hold, h⟩ := h
    cases hold.unique hlog
    rw [if_neg hsome, h]

theorem LogExtended.lists_log (h : LogExtended files files' done) (htakes : done ≠ [] → LogTakes files done)
    (hlog : files.Lists logFile (.list recorded))
    (hreadable : Readable (.list (recorded ++ done)) Json.nestingLimit) :
    ∃ read, files'.Lists logFile (.list read) ∧
      read.map Value.blur = (recorded ++ done).map Value.blur := by
  rw [h.eq hlog]
  by_cases hnone : done = []
  · rw [if_pos hnone, hnone, List.append_nil]
    exact ⟨recorded, hlog, rfl⟩
  · rw [if_neg hnone]
    have hplace := Files.place_put_self (.text (Json.writeIndented 2 (.list (recorded ++ done))))
      (htakes hnone).free (by decide +kernel)
    have hproper : (Value.list (recorded ++ done)).Proper := ⟨hreadable.tidy, (htakes hnone).whole _ hlog⟩
    rcases Json.read_writeIndented hproper 2 with ⟨v, hread, hblur⟩ | ⟨e, -, -, hnot⟩
    · obtain ⟨read, rfl, hsame⟩ := Value.eq_list_of_blur hblur
      refine ⟨read, Files.lists_of_text hplace ?_, hsame⟩
      rw [Json.unifyLineEnds_writeIndented, String.ofList_toList, hread]
    · exact absurd hreadable.fits hnot

theorem LogExtended.lists_store (h : LogExtended files files' done) (hstore : files.Lists storeFile v) :
    files'.Lists storeFile v := by
  unfold LogExtended at h
  split at h
  · rwa [h]
  · obtain ⟨old, -, rfl⟩ := h
    exact hstore.put _ (by decide +kernel) (by decide +kernel)

theorem LogExtended.has_directory (h : LogExtended files files' done) (hthere : files.has logDirectory = true) :
    files'.has logDirectory = true := by
  unfold LogExtended at h
  split at h
  · rwa [h]
  · obtain ⟨old, -, rfl⟩ := h
    rw [Files.has_put, hthere]
    rfl

variable {σ : Type}

private theorem has_prepared (w : World σ) : (prepared w).files.has logDirectory = true := by
  unfold prepared
  split
  · assumption
  · exact Files.has_makeDirectory_self _ _

variable {w : World σ}

private theorem lists_prepared {path : String} (h : w.files.Lists path v)
    (hpath : path ∉ logDirectory :: Files.parents logDirectory) : (prepared w).files.Lists path v := by
  unfold prepared
  split
  · exact h
  · exact h.makeDirectory hpath

private theorem stored_delivers (shown : String) (h : w.files.Lists storeFile v) :
    ∃ w', Returns (stored shown) w v w' ∧ w'.files = w.files ∧ w'.trace.queries = w.trace.queries := by
  unfold stored Files.Lists at *
  rw [exists_congr fun w' => and_congr_left' (Job.returns_bind_of_returns (Job.outcome_fileExists storeFile w))]
  split
  case isTrue hfile =>
    rw [if_pos hfile] at h
    exact ⟨w, Job.readJson_returns_iff.mpr ⟨h, rfl⟩, rfl, rfl⟩
  case isFalse hnone =>
    rw [if_neg hnone] at h
    subst h
    exact ⟨_, rfl, rfl, rfl⟩

/-! ### What a run sends -/

private theorem readLog_sends (w : World σ) : Sends readLog w [] := by
  refine Job.sends_bind_after_silent (Job.outcome_fileExists logFile w) rfl ?_
  split
  · exact Job.sends_readJson logFile w
  · exact Job.sends_pure _ w

private theorem record_sends (done : List Value) (w : World σ) : Sends (record done) w [] := by
  unfold record
  split
  · exact Job.sends_say_bind (f := pure) (Job.sends_pure _ _)
  · refine Job.sends_bind_of_silent (readLog_sends w) fun log v => ?_
    refine Job.sends_bind_of_silent (Job.sends_nil_of_outcome (Job.outcome_lift _ v)) fun extended v => ?_
    refine Job.sends_bind_of_silent (Job.sends_writeJson _ _ _ v) fun _ v => ?_
    exact Job.sends_say_bind (f := pure) (Job.sends_pure _ _)

variable [Outside σ]

private theorem askAll_sends (qs : List Query) (w : World σ) : ∃ sent, Sends (Job.askAll qs) w sent := by
  induction qs generalizing w with
  | nil => exact ⟨[], Job.sends_pure () w⟩
  | cons q qs ih => exact Job.exists_sends_bind (fun w => ⟨_, Job.sends_ask _ _ w⟩) (fun _ => ih) w

private theorem ingest_sends (incident : Value) (w : World σ) : ∃ qs, Sends (ingest incident) w qs := by
  refine Job.exists_sends_bind (fun w => ⟨[], Job.sends_nil_of_outcome (Job.outcome_lift _ w)⟩) ?_ w
  intro title w
  obtain ⟨qs, hqs⟩ := askAll_sends (plan incident).queries (w.printing _)
  refine ⟨qs, Job.sends_say_bind (Job.sends_bind_of_silent hqs fun _ v => ?_)⟩
  exact Job.sends_nil_of_outcome (Job.outcome_lift _ v)

private theorem attempt_sends (id : Value) {qs : List Query} (h : Sends (ingest incident) w qs) :
    Sends (attempt id incident) w qs := by
  refine Job.sends_recover_of_silent ?_ fun e v => ?_
  · exact Job.sends_bind_of_silent h fun i v => Job.sends_pure _ v
  · exact Job.sends_say_bind (Job.sends_pure _ _)

private theorem attempts_incidents (known incidents : List Value) (w : World σ) :
    (attempts known incidents w).map Attempt.incident <+: incidents.filter (!isKnown known ·) := by
  induction incidents generalizing w with
  | nil => exact List.nil_prefix
  | cons incident rest ih =>
    rw [attempts, List.filter_cons, isKnown]
    cases idOf incident with
    | error e => exact List.nil_prefix
    | ok id =>
      dsimp only
      by_cases hknown : known.any (· == id) = true
      · simp only [hknown, if_true, Bool.not_true, Bool.false_eq_true, if_false]
        exact ih w
      · simp only [hknown, Bool.not_false, if_true, Bool.false_eq_true, if_false, List.map_cons]
        exact (List.prefix_cons_inj incident).mpr (ih _)

private theorem attempts_congr {known' : List Value} (h : ∀ i ∈ incidents, isKnown known i = isKnown known' i)
    (w : World σ) : attempts known incidents w = attempts known' incidents w := by
  induction incidents generalizing w with
  | nil => rfl
  | cons incident rest ih =>
    obtain ⟨hfirst, hrest⟩ := List.forall_mem_cons.mp h
    unfold isKnown at hfirst
    rw [attempts, attempts]
    cases hid : idOf incident with
    | error e => rfl
    | ok id =>
      rw [hid] at hfirst
      dsimp only at hfirst ⊢
      rw [hfirst, ih hrest w, ih hrest]

/-- These are the queries sent for the incidents of these attempts, one list for each. -/
def Sent (as : List (Attempt σ)) (sent : List (List Query)) : Prop :=
  List.Forall₂ (fun a qs => Sends (ingest a.incident) a.before qs) as sent

/-- Queries are sent for what the loop takes up and for nothing else. It may be stopped before it comes to
the last of them. -/
theorem ingestNew_sends (known incidents : List Value) (w : World σ) :
    ∃ as sent, as <+: attempts known incidents w ∧ Sent as sent ∧
      Sends (ingestNew known incidents) w sent.flatten := by
  induction incidents generalizing w with
  | nil => exact ⟨[], [], List.nil_prefix, .nil, Job.sends_pure _ w⟩
  | cons incident rest ih =>
    rw [ingestNew, attempts]
    cases idOf incident with
    | error e => exact ⟨[], [], List.nil_prefix, .nil, Job.sends_nil_of_outcome rfl⟩
    | ok id =>
      dsimp only
      by_cases hknown : known.any (· == id) = true
      · obtain ⟨as, sent, has, hsent, hsends⟩ := ih w
        rw [if_pos hknown]
        refine ⟨as, sent, has, hsent, Job.sends_lift_bind ?_⟩
        rwa [if_pos hknown]
      · obtain ⟨qs, hqs⟩ := ingest_sends incident w
        have hattempt := attempt_sends id hqs
        rw [if_neg hknown]
        rcases hrun : outcome (attempt id incident) w with ⟨r, w₁⟩
        rw [Sends, hrun] at hattempt
        cases r with
        | error e =>
          refine ⟨[⟨incident, w⟩], [qs], ?_, .cons hqs .nil, Job.sends_lift_bind ?_⟩
          · exact (List.prefix_cons_inj _).mpr List.nil_prefix
          · rw [if_neg hknown, List.flatten_singleton]
            exact Job.sends_bind_of_fails hrun hattempt
        | ok done =>
          obtain ⟨as, sent, has, hsent, hsends⟩ := ih w₁
          refine ⟨⟨incident, w⟩ :: as, qs :: sent, ?_, .cons hqs hsent, Job.sends_lift_bind ?_⟩
          · exact (List.prefix_cons_inj _).mpr has
          · rw [if_neg hknown, List.flatten_cons]
            refine Job.sends_bind_of_returns hrun hattempt ?_
            exact Job.sends_bind_of_silent hsends fun others v => Job.sends_pure _ v

private theorem importFrom_sends (shown : String) {stored : List Value}
    (hstored : w.files.Lists storeFile (.list stored)) (hrecorded : w.files.Lists logFile (.list recorded)) :
    ∃ as sent, as <+: attempts (idsIn recorded) stored w ∧ Sent as sent ∧
      Sends (importFrom shown) w sent.flatten := by
  obtain ⟨w₁, hrun, hfiles, hqueries⟩ := stored_delivers shown hstored
  unfold importFrom
  cases stored with
  | nil =>
    refine ⟨[], [], List.nil_prefix, .nil, Job.sends_bind_after_silent hrun hqueries ?_⟩
    exact Job.sends_say_bind (Job.sends_pure _ _)
  | cons first rest =>
    obtain rfl := (stored_returns hrun).2 rfl
    have hread : Returns readLog w (.list recorded) w := readLog_returns_iff.mpr ⟨hrecorded, rfl⟩
    cases hids : idsOf (.list recorded) with
    | error e =>
      refine ⟨[], [], List.nil_prefix, .nil, Job.sends_bind_after_silent hrun hqueries ?_⟩
      refine Job.sends_bind_after_silent hread rfl ?_
      rw [hids]
      exact Job.sends_nil_of_outcome rfl
    | ok known =>
      obtain ⟨as, sent, has, hsent, hsends⟩ := ingestNew_sends known (first :: rest) w
      rw [idsIn_of_idsOf hids]
      refine ⟨as, sent, has, hsent, Job.sends_bind_after_silent hrun hqueries ?_⟩
      refine Job.sends_bind_after_silent hread rfl ?_
      rw [hids]
      refine Job.sends_lift_bind (Job.sends_lift_bind ?_)
      exact Job.sends_bind_of_silent hsends record_sends

private theorem ingestNew_of_known (h : ∀ i ∈ incidents, isKnown known i = true) (w : World σ) :
    Returns (ingestNew known incidents) w [] w := by
  induction incidents with
  | nil => rfl
  | cons incident rest ih =>
    obtain ⟨hfirst, hrest⟩ := List.forall_mem_cons.mp h
    rw [ingestNew, Job.returns_lift_bind]
    unfold isKnown at hfirst
    cases hid : idOf incident with
    | error e =>
      rw [hid] at hfirst
      cases hfirst
    | ok id =>
      rw [hid] at hfirst
      refine ⟨id, rfl, ?_⟩
      rw [if_pos hfirst]
      exact ih hrest

private theorem importFrom_idle (shown : String) {stored : List Value}
    (hstored : files.Lists storeFile (.list stored)) (hrecorded : files.Lists logFile (.list recorded))
    (hids : stored ≠ [] → ∃ known, idsOf (.list recorded) = .ok known)
    (hknown : ∀ i ∈ stored, isKnown (idsIn recorded) i = true) :
    Delivers files (importFrom shown : Job σ Unit) [] := by
  intro w hfiles
  subst hfiles
  obtain ⟨w₁, hrun, hfiles, hqueries⟩ := stored_delivers shown hstored
  have hqueries' : w₁.trace.queries = w.trace.queries ++ [] := by rw [hqueries, List.append_nil]
  unfold importFrom
  cases stored with
  | nil => exact ⟨(), w₁.printing _, Job.returns_bind.mpr ⟨_, w₁, hrun, rfl⟩, hfiles, hqueries'⟩
  | cons first rest =>
    obtain ⟨known, hids⟩ := hids (List.cons_ne_nil _ _)
    rw [idsIn_of_idsOf hids] at hknown
    have hread : Returns readLog w₁ (.list recorded) w₁ :=
      readLog_returns_iff.mpr ⟨hfiles ▸ hrecorded, rfl⟩
    have hnew := ingestNew_of_known hknown w₁
    have hall : Returns (do record (← ingestNew known (← (Value.list (first :: rest)).elements)))
        w₁ () (w₁.printing _) :=
      Job.returns_lift_bind.mpr ⟨first :: rest, rfl, Job.returns_bind.mpr ⟨[], w₁, hnew, rfl⟩⟩
    have hrest : Returns (do
        let known ← idsOf (← readLog)
        record (← ingestNew known (← (Value.list (first :: rest)).elements))) w₁ () (w₁.printing _) :=
      Job.returns_bind.mpr ⟨_, w₁, hread, Job.returns_lift_bind.mpr ⟨known, hids, hall⟩⟩
    exact ⟨(), _, Job.returns_bind.mpr ⟨_, w₁, hrun, hrest⟩, hfiles, hqueries'⟩

/-! ### Two runs -/

variable {as : List (Attempt σ)}

private theorem TakesUp.incidents_eq {stored : List Value} (h : TakesUp w as)
    (hstored : w.files.Lists storeFile (.list stored)) (hrecorded : w.files.Lists logFile (.list recorded)) :
    as.map Attempt.incident = stored.filter (!isKnown (idsIn recorded) ·) ∧
      (stored ≠ [] → ∃ known, idsOf (.list recorded) = .ok known) := by
  obtain ⟨v, hv, hcase⟩ := h
  cases hv.unique hstored
  rcases hcase with ⟨hnothing, rfl⟩ | ⟨incidents, log, known, helements, hlog, hids, rfl, hincidents⟩
  · have hnone : stored = [] := by
      cases stored with
      | nil => rfl
      | cons first rest => cases hnothing
    subst hnone
    exact ⟨rfl, fun hsome => absurd rfl hsome⟩
  · cases helements
    cases hlog.unique hrecorded
    rw [idsIn_of_idsOf hids]
    exact ⟨hincidents, fun _ => ⟨known, hids⟩⟩

private theorem logged_of_attempts {stored : List Value} (has : ∀ a ∈ as, a.incident ∈ stored)
    (hids : ∀ i ∈ stored, ∃ s, i.item "id" = .ok (.text s)) {levels : Nat}
    (hreadable : ∀ i ∈ stored, Readable i (levels + 1)) : ∀ i ∈ as.filterMap Attempt.logged,
      (∃ s, i.item "id" = .ok (.text s)) ∧ Readable i (levels + 1) := by
  intro i hi
  obtain ⟨a, ha, hlogged⟩ := List.mem_filterMap.mp hi
  have hsorted := Attempt.flowSorted_of_logged hlogged
  rw [hsorted.item_id]
  exact ⟨hids _ (has a ha), hsorted.readable (hreadable _ (has a ha))⟩

private theorem isKnown_of_all_logged {stored : List Value}
    (hincidents : as.map Attempt.incident = stored.filter (!isKnown (idsIn recorded) ·))
    (hall : ∀ a ∈ as, a.logged ≠ none) (hi : i ∈ stored) (hid : i.item "id" = .ok (.text s)) :
    isKnown (idsIn (recorded ++ as.filterMap Attempt.logged)) i = true := by
  rw [isKnown_idsIn_iff hid]
  by_cases hknown : isKnown (idsIn recorded) i = true
  · obtain ⟨j, hj, hjd⟩ := (isKnown_idsIn_iff hid).mp hknown
    exact ⟨j, List.mem_append_left _ hj, hjd⟩
  · have hnew : i ∈ as.map Attempt.incident := by
      rw [hincidents, List.mem_filter]
      exact ⟨hi, by simpa using hknown⟩
    obtain ⟨a, ha, rfl⟩ := List.mem_map.mp hnew
    obtain ⟨j, hlogged⟩ := Option.ne_none_iff_exists'.mp (hall a ha)
    refine ⟨j, List.mem_append_right _ (List.mem_filterMap.mpr ⟨a, ha, hlogged⟩), ?_⟩
    rw [(Attempt.flowSorted_of_logged hlogged).item_id, hid]

/-- The files from which an import goes on: the incidents are stored, and the log holds what was written
of `logged`. -/
structure GoesOn (files : Files) (stored logged : List Value) : Prop where
  directory : files.has logDirectory = true
  store : files.Lists storeFile (.list stored)
  log : ∃ read, files.Lists logFile (.list read) ∧ read.map Value.blur = logged.map Value.blur

namespace GoesOn

private theorem sends {v : World σ} {stored logged : List Value} (h : GoesOn v.files stored logged)
    (hids : ∀ i ∈ stored, ∃ s, i.item "id" = .ok (.text s)) :
    ∃ next sent, next <+: attempts (idsIn logged) stored v ∧ Sent next sent ∧
      Sends importAll v sent.flatten := by
  obtain ⟨read, hread, hblur⟩ := h.log
  have hsame : attempts (idsIn read) stored v = attempts (idsIn logged) stored v := by
    refine attempts_congr (fun i hi => ?_) v
    obtain ⟨s, hid⟩ := hids i hi
    exact isKnown_idsIn_of_blur hid hblur
  obtain ⟨next, sent, hnext, hsent, hsends⟩ := importFrom_sends s!"{v.root}/{storeFile}" h.store hread
  refine ⟨next, sent, hsame ▸ hnext, hsent, ?_⟩
  rwa [Sends, outcome_importAll_of_has h.directory]

private theorem idle {files : Files} {stored logged : List Value} (h : GoesOn files stored logged)
    (hids : ∀ i ∈ stored, ∃ s, i.item "id" = .ok (.text s))
    (hlogged : stored ≠ [] → ∀ i ∈ logged, ∃ id, idOf i = .ok id)
    (hknown : ∀ i ∈ stored, isKnown (idsIn logged) i = true) :
    Delivers files (importAll : Job σ Unit) [] := by
  obtain ⟨read, hread, hblur⟩ := h.log
  intro v hv
  have hidle : Delivers files (importFrom s!"{v.root}/{storeFile}" : Job σ Unit) [] := by
    refine importFrom_idle _ h.store hread (fun hsome => exists_idsOf_of_blur (hlogged hsome) hblur) ?_
    intro i hi
    obtain ⟨s, hid⟩ := hids i hi
    rw [isKnown_idsIn_of_blur hid hblur]
    exact hknown i hi
  subst hv
  obtain ⟨u, v', hreturns, hafter⟩ := hidle v rfl
  refine ⟨u, v', ?_, hafter⟩
  rwa [Returns, outcome_importAll_of_has h.directory]

end GoesOn

private theorem LogExtended.goesOn {stored : List Value} (h : LogExtended files files' done)
    (hthere : files.has logDirectory = true)
    (htakes : done ≠ [] → LogTakes files done)
    (hstored : files.Lists storeFile (.list stored)) (hrecorded : files.Lists logFile (.list recorded))
    (hdone : ∀ i ∈ done, Readable i (Json.nestingLimit - 1)) : GoesOn files' stored (recorded ++ done) := by
  refine ⟨h.has_directory hthere, h.lists_store hstored, h.lists_log htakes hrecorded ?_⟩
  refine Json.readable_list.mpr fun i hi => ?_
  rcases List.mem_append.mp hi with hi | hi
  · exact Json.readable_list.mp (readable_of_lists hrecorded) i hi
  · exact hdone i hi

/-- A run adds to the log, behind what it held, what it brought in: of the stored incidents whose ids it
did not have those that did not fail, in their order and with their steps sorted. The next run reads that
and sends queries for the other incidents only. If none failed, it sends none and changes nothing. -/
theorem importAll_resumes {w w' : World σ} {stored recorded : List Value}
    (hstored : w.files.Lists storeFile (.list stored))
    (hrecorded : w.files.Lists logFile (.list recorded))
    (hids : ∀ i ∈ stored, ∃ s, i.item "id" = .ok (.text s)) (hrun : Returns importAll w () w') :
    ∃ (as : List (Attempt σ)) (done : List Value), TakesUp (prepared w) as ∧
      as.map Attempt.incident = stored.filter (!isKnown (idsIn recorded) ·) ∧
      done = as.filterMap Attempt.logged ∧
      (∀ a ∈ as, ∀ i, a.logged = some i → FlowSorted a.incident i) ∧
      w'.files = (if done = [] then (prepared w).files
        else (prepared w).files.put logFile (.text (Json.writeIndented 2 (.list (recorded ++ done))))) ∧
      (∃ read, w'.files.Lists logFile (.list read) ∧
        read.map Value.blur = (recorded ++ done).map Value.blur) ∧
      (∀ v : World σ, v.files = w'.files → ∃ next sent,
        next <+: attempts (idsIn (recorded ++ done)) stored v ∧
        next.map Attempt.incident <+: stored.filter (!isKnown (idsIn (recorded ++ done)) ·) ∧
        Sent next sent ∧ Sends importAll v sent.flatten) ∧
      ((∀ a ∈ as, a.logged ≠ none) → Delivers w'.files (importAll : Job σ Unit) []) := by
  have hstored₁ := lists_prepared hstored (by decide +kernel)
  have hrecorded₁ := lists_prepared hrecorded (by decide +kernel)
  obtain ⟨as, htakes, hlog, hfree⟩ : ∃ as, TakesUp (prepared w) as ∧
      LogExtended (prepared w).files w'.files (as.filterMap Attempt.logged) ∧
      (as.filterMap Attempt.logged ≠ [] →
        LogTakes (prepared w).files (as.filterMap Attempt.logged)) := by
    rcases outcome_importAll w with hfrom | ⟨e, hstop⟩
    · exact importFrom_records (hfrom.symm.trans hrun)
    · cases hstop.symm.trans hrun
  obtain ⟨hincidents, hknown⟩ := htakes.incidents_eq hstored₁ hrecorded₁
  have hmem : ∀ a ∈ as, a.incident ∈ stored := by
    intro a ha
    have htaken : a.incident ∈ as.map Attempt.incident := List.mem_map_of_mem ha
    rw [hincidents] at htaken
    exact List.mem_of_mem_filter htaken
  have hdone := logged_of_attempts hmem hids (Json.readable_list.mp (readable_of_lists hstored))
  have hnext : GoesOn w'.files stored (recorded ++ as.filterMap Attempt.logged) :=
    hlog.goesOn (has_prepared w) hfree hstored₁ hrecorded₁ fun i hi => (hdone i hi).2
  refine ⟨as, as.filterMap Attempt.logged, htakes, hincidents, rfl,
    fun a _ i => Attempt.flowSorted_of_logged, hlog.eq hrecorded₁, hnext.log, ?_, ?_⟩
  · intro v hv
    rw [← hv] at hnext
    obtain ⟨next, sent, hbegins, hsent, hsends⟩ := hnext.sends hids
    exact ⟨next, sent, hbegins, (hbegins.map _).trans (attempts_incidents _ _ _), hsent, hsends⟩
  · intro hall
    refine hnext.idle hids (fun hsome i hi => ?_) fun i hi => ?_
    · rcases List.mem_append.mp hi with hi | hi
      · obtain ⟨known, hknown⟩ := hknown hsome
        obtain ⟨id, -, hid⟩ := exists_right_of_forall₂ (mapM_eq_ok.mp hknown) hi
        exact ⟨id, hid⟩
      · obtain ⟨s, hid⟩ := (hdone i hi).1
        exact ⟨_, idOf_of_item hid⟩
    · obtain ⟨s, hid⟩ := hids i hi
      exact isKnown_of_all_logged hincidents hall hi hid

/-- One of two incidents is in the log; a run adds the other to it, and the next has nothing to do. -/
theorem importAll_resumes_idle :
    let old : Value := .record [("id", .text "a")]
    let new : Value := .record [("id", .text "b"), ("title", .int 0),
      ("victim", .record [("organization", .int 0)]), ("attribution", .record [])]
    let w : World Steady :=
      { outside := ⟨.rows [], .content .null⟩
        connected := true
        files := ⟨[(storeFile, .text ("[\x7b\"id\":\"a\"\x7d,\x7b\"id\":\"b\",\"title\":0," ++
            "\"victim\":\x7b\"organization\":0\x7d,\"attribution\":\x7b\x7d\x7d]")),
          (logFile, .text "[\x7b\"id\":\"a\"\x7d]")], []⟩ }
    w.files.Lists storeFile (.list [old, new]) ∧ w.files.Lists logFile (.list [old]) ∧
      (∀ i ∈ [old, new], ∃ s, i.item "id" = .ok (.text s)) ∧
      ∃ w', Returns importAll w () w' ∧ w'.files ≠ (prepared w).files ∧
        Delivers w'.files (importAll : Job Steady Unit) [] := by
  intro old new w
  have hstored : w.files.Lists storeFile (.list [old, new]) := by
    refine Files.lists_of_text (Files.place_eq_file_iff.mpr ⟨by decide +kernel, rfl⟩) ?_
    set_option maxRecDepth 8000 in rfl
  have hrecorded : w.files.Lists logFile (.list [old]) :=
    Files.lists_of_text (Files.place_eq_file_iff.mpr ⟨by decide +kernel, rfl⟩) rfl
  have hids : ∀ i ∈ [old, new], ∃ s, i.item "id" = .ok (.text s) := by
    simp [old, new, Value.item, List.lookup]
  obtain ⟨hends, hwritten⟩ : (outcome importAll w).1.isOk = true ∧
      ((outcome importAll w).2.files.get? logFile).map (·.decodeLenient.length) ≠
        ((prepared w).files.get? logFile).map (·.decodeLenient.length) := by decide +kernel
  obtain ⟨_, w', hrun⟩ := Job.exists_returns_iff.mpr hends
  rw [show outcome _ _ = _ from hrun] at hwritten
  have hchanged : w'.files ≠ (prepared w).files := by
    intro hsame
    rw [hsame] at hwritten
    exact hwritten rfl
  refine ⟨hstored, hrecorded, hids, w', hrun, hchanged, ?_⟩
  obtain ⟨as, done, -, hincidents, rfl, -, hfiles, -, -, hidle⟩ :=
    importAll_resumes hstored hrecorded hids hrun
  apply hidle
  have hone : ([old, new].filter (!isKnown (idsIn [old]) ·)).length = 1 := by decide +kernel
  obtain ⟨a, rfl⟩ : ∃ a, as = [a] := by
    rw [← List.length_eq_one_iff, ← List.length_map (f := Attempt.incident), hincidents, hone]
  intro b hb hnone
  obtain rfl := List.mem_singleton.mp hb
  rw [List.filterMap_cons, hnone] at hfiles
  exact hchanged hfiles

end ThreatAtlas.Incident
