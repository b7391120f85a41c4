import ThreatAtlas.Proofs.Files
import ThreatAtlas.Proofs.Incident.Ingestion

/-!
# The log of imported incidents

A run of the import takes up the stored incidents that the log does not have, one after the other, and
adds those to the log that counted as brought in. An incident counts although a query of it failed, and
although there was no graph at all; only a lost connection or an incident without its parts keeps it out.
-/

namespace ThreatAtlas.Incident

open Job (Returns Fails Keeps)

def isKnown (known : List Value) (incident : Value) : Bool :=
  match idOf incident with
  | .ok id => known.any (· == id)
  | .error _ => false

/-- An incident that is taken up, and the world when its turn comes. -/
structure Attempt (σ : Type) where
  incident : Value
  before : World σ

section

variable {σ : Type}
variable {w w' : World σ} {shown : String} {done : List Value}

theorem readLog_returns_iff {v : Value} : Returns readLog w v w' ↔ w.files.Lists logFile v ∧ w = w' :=
  Job.readOrEmpty_returns_iff

private theorem readLog_keeps : Keeps (readLog : Job σ Value) := by
  refine Job.keeps_bind (fun _ => ⟨rfl, rfl⟩) fun _ => ?_
  exact Job.keeps_ite (Job.keeps_readJson _) (Job.keeps_pure _)

private theorem stored_keeps (shown : String) : Keeps (stored shown : Job σ Value) := by
  refine Job.keeps_bind (fun _ => ⟨rfl, rfl⟩) fun _ => ?_
  refine Job.keeps_ite (Job.keeps_readJson _) ?_
  exact Job.keeps_bind (Job.keeps_say _) fun _ => Job.keeps_pure _

theorem stored_returns {v : Value} (h : Returns (stored shown) w v w') :
    w.files.Lists storeFile v ∧ (v.truthy = true → w = w') := by
  unfold stored at h
  rw [Job.returns_bind_of_returns (Job.outcome_fileExists storeFile w)] at h
  unfold Files.Lists
  split
  case isTrue hfile =>
    rw [if_pos hfile] at h
    obtain ⟨hholds, hsame⟩ := Job.readJson_returns_iff.mp h
    exact ⟨hholds, fun _ => hsame⟩
  case isFalse hnone =>
    rw [if_neg hnone, Job.returns_say_bind, Job.returns_pure] at h
    obtain ⟨rfl, -⟩ := h
    exact ⟨rfl, nofun⟩

/-- The log has got `done` at its end, and no other file is changed. -/
def LogExtended (files files' : Files) (done : List Value) : Prop :=
  if done = [] then files' = files
  else ∃ old, files.Lists logFile (.list old) ∧
    files' = files.put logFile (.text (Json.writeIndented 2 (.list (old ++ done))))

private theorem extendLog_eq_ok {log extended : Value} (h : extendLog log done = .ok extended) :
    ∃ old, log = .list old ∧ extended = .list (old ++ done) := by
  cases log with
  | list old =>
    cases h
    exact ⟨old, rfl, rfl⟩
  | _ => cases h

/-- `done` can be written behind what the log holds. -/
structure LogTakes (files : Files) (done : List Value) : Prop where
  whole : ∀ old, files.Lists logFile (.list old) → (Value.list (old ++ done)).Whole
  free : ∀ p ∈ Files.parents logFile, files.get? p = none

private theorem record_returns (h : Returns (record done) w () w') :
    LogExtended w.files w'.files done ∧ (done ≠ [] → LogTakes w.files done) := by
  unfold record at h
  unfold LogExtended
  split at h
  case isTrue hempty =>
    have hnone : done = [] := List.isEmpty_iff.mp hempty
    rw [if_pos hnone, ← Job.returns_say.mp h]
    exact ⟨rfl, fun hsome => absurd hnone hsome⟩
  case isFalse hsome =>
    rw [if_neg (mt List.isEmpty_iff.mpr hsome)]
    obtain ⟨log, w₁, hread, hrun⟩ := Job.returns_bind.mp h
    obtain ⟨hlog, rfl⟩ := readLog_returns_iff.mp hread
    obtain ⟨extended, hextend, hrun⟩ := Job.returns_lift_bind.mp hrun
    obtain ⟨old, rfl, rfl⟩ := extendLog_eq_ok hextend
    obtain ⟨_, w₂, hwrite, hrun⟩ := Job.returns_bind.mp hrun
    obtain ⟨hwhole, hwrite⟩ := Job.writeJson_returns hwrite
    obtain ⟨hput, hfree⟩ := Job.writeText_returns hwrite
    refine ⟨⟨old, hlog, ?_⟩, fun _ => ⟨fun old' hold => ?_, hfree⟩⟩
    · rw [← Job.returns_say.mp hrun]
      exact hput
    · cases hold.unique hlog
      exact hwhole

/-- The log has been begun anew, with `done` at its end, and breaks off. -/
def LogBroken (files files' : Files) (done : List Value) (e : Failure) : Prop :=
  ∃ old left, files.Lists logFile (.list old) ∧ Json.BreaksOff 2 (.list (old ++ done)) e left ∧
    files' = files.put logFile (.text left)

private theorem record_fails {e : Failure} (h : Fails (record done) w e w') :
    w'.files = w.files ∨ LogBroken w.files w'.files done e := by
  unfold record at h
  split at h
  · exact .inl ((Job.keeps_say _).files_of_fails h)
  · rcases Job.fails_bind.mp h with hread | ⟨log, w₁, hread, hrun⟩
    · exact .inl (readLog_keeps.files_of_fails hread)
    obtain ⟨hlog, rfl⟩ := readLog_returns_iff.mp hread
    rcases Job.fails_bind.mp hrun with hextend | ⟨extended, w₂, hextend, hrun⟩
    · exact .inl ((Job.keeps_lift _).files_of_fails hextend)
    obtain ⟨hlonger, rfl⟩ := Job.returns_lift.mp hextend
    obtain ⟨old, rfl, rfl⟩ := extendLog_eq_ok hlonger
    rcases Job.fails_bind.mp hrun with hwrite | ⟨_, w₃, _, hsay⟩
    · rcases Job.writeJson_fails hwrite with rfl | ⟨left, hbreaks, hleft⟩
      · exact .inl rfl
      · exact .inr ⟨old, left, hlog, hbreaks, (Job.writeText_returns hleft).1⟩
    · cases (Prod.mk.inj hsay).1

def prepared (w : World σ) : World σ :=
  if w.files.has logDirectory then w
  else { w with files := w.files.makeDirectory logDirectory }

private theorem prepared_entries (w : World σ) : (prepared w).files.entries = w.files.entries := by
  unfold prepared
  split <;> rfl

private theorem prepared_connected (w : World σ) : (prepared w).connected = w.connected := by
  unfold prepared
  split <;> rfl

variable [Outside σ]

/-- The incidents of a list that are not known, in the worlds that those before them leave. -/
def attempts (known : List Value) : List Value → World σ → List (Attempt σ)
  | [], _ => []
  | incident :: rest, w =>
    match idOf incident with
    | .error _ => []
    | .ok id =>
      if known.any (· == id) then attempts known rest w
      else ⟨incident, w⟩ :: attempts known rest ((attempt id incident).outcome w).2

namespace Attempt

def logged (a : Attempt σ) : Option Value :=
  ((ingest a.incident).outcome a.before).1.toOption

/-- The graph ran every query that the incident takes, without an error. -/
def Executed (a : Attempt σ) : Prop :=
  a.before.connected = true ∧
    ∃ i qs, (plan a.incident).Yields i qs ∧ ∀ x ∈ answers qs a.before.outside, x.isSound = true

theorem logged_eq_some_iff {a : Attempt σ} {i : Value} :
    a.logged = some i ↔ ∃ qs, (plan a.incident).Yields i qs ∧
      (a.before.connected = true → ∀ x ∈ answers qs a.before.outside, x.isLost = false) := by
  rw [← ingest_returns_iff]
  unfold logged Returns
  rcases (ingest a.incident).outcome a.before with ⟨r, w'⟩
  cases r <;> simp [Except.toOption]

private theorem logged_of_executed (a : Attempt σ) (h : a.Executed) : ∃ i, a.logged = some i := by
  obtain ⟨-, i, qs, hplan, hsound⟩ := h
  refine ⟨i, logged_eq_some_iff.mpr ⟨qs, hplan, fun _ x hx => ?_⟩⟩
  have := hsound x hx
  rw [Answer.isSound_eq, Bool.and_eq_true, Bool.not_eq_true'] at this
  simpa using this.2

/-- An attempt is logged wrongly where there was no graph, or where queries failed and none of them took
the connection with it. -/
theorem logged_unexecuted_iff (a : Attempt σ) :
    (∃ i, a.logged = some i) ∧ ¬ a.Executed ↔ ∃ i qs, (plan a.incident).Yields i qs ∧
      (a.before.connected = false ∨
        (∃ x ∈ answers qs a.before.outside, x.isFailed = true) ∧
          ∀ x ∈ answers qs a.before.outside, x.isLost = false) := by
  simp only [logged_eq_some_iff, Executed]
  constructor
  · intro h
    obtain ⟨⟨i, qs, hplan, hkept⟩, hnot⟩ := h
    refine ⟨i, qs, hplan, ?_⟩
    by_cases hconnected : a.before.connected = true
    · refine .inr ⟨?_, hkept hconnected⟩
      by_contra hnone
      push Not at hnone
      refine hnot ⟨hconnected, i, qs, hplan, fun x hx => ?_⟩
      rw [Answer.isSound_eq, hkept hconnected x hx, Bool.eq_false_iff.mpr (hnone x hx)]
      rfl
    · exact .inl (Bool.eq_false_iff.mpr hconnected)
  · intro h
    obtain ⟨i, qs, hplan, hcase⟩ := h
    constructor
    · refine ⟨i, qs, hplan, fun hconnected => ?_⟩
      rcases hcase with hdown | ⟨-, hkept⟩
      · rw [hdown] at hconnected
        cases hconnected
      · exact hkept
    · intro hexecuted
      obtain ⟨hconnected, i', qs', hplan', hsound⟩ := hexecuted
      obtain ⟨-, rfl⟩ := Plan.yields_unique hplan hplan'
      rcases hcase with hdown | ⟨⟨x, hx, hfailed⟩, -⟩
      · rw [hdown] at hconnected
        cases hconnected
      · have := hsound x hx
        rw [Answer.isSound_eq, hfailed] at this
        cases this

end Attempt

private theorem attempt_returns {id incident : Value} (h : Returns (attempt id incident) w done w') :
    done = (Attempt.mk incident w).logged.toList := by
  unfold Attempt.logged
  rcases Job.returns_recover.mp h with hrun | ⟨e, w₁, hfail, -, hrun⟩
  · obtain ⟨i, w₁, hingest, hdone⟩ := Job.returns_bind.mp hrun
    obtain ⟨rfl, -⟩ := Job.returns_pure.mp hdone
    rw [show Job.outcome _ _ = _ from hingest]
    rfl
  · rw [Job.returns_say_bind] at hrun
    obtain ⟨rfl, -⟩ := Job.returns_pure.mp hrun
    rcases Job.fails_bind.mp hfail with hingest | ⟨i, w₂, -, hpure⟩
    · rw [show Job.outcome _ _ = _ from hingest]
      rfl
    · cases (Prod.mk.inj hpure).1

private theorem attempt_keeps (id incident : Value) : Keeps (attempt id incident : Job σ (List Value)) := by
  apply Job.keeps_recover
  · exact Job.keeps_bind (ingest_keeps incident) fun _ => Job.keeps_pure _
  · intro e
    exact Job.keeps_bind (Job.keeps_say _) fun _ => Job.keeps_pure _

theorem ingestNew_returns {known incidents : List Value} (h : Returns (ingestNew known incidents) w done w') :
    done = (attempts known incidents w).filterMap Attempt.logged ∧
      (attempts known incidents w).map Attempt.incident =
        incidents.filter fun i => !isKnown known i := by
  induction incidents generalizing w w' done with
  | nil =>
    obtain ⟨rfl, -⟩ := Job.returns_pure.mp h
    exact ⟨rfl, rfl⟩
  | cons incident rest ih =>
    rw [ingestNew, Job.returns_lift_bind] at h
    obtain ⟨id, hid, hrun⟩ := h
    have hisKnown : isKnown known incident = known.any (· == id) := by rw [isKnown, hid]
    rw [attempts, hid]
    dsimp only
    split at hrun
    case isTrue hknown =>
      rw [if_pos hknown, List.filter_cons_of_neg (by rw [hisKnown, hknown]; decide)]
      exact ih hrun
    case isFalse hunknown =>
      obtain ⟨first, w₁, hfirst, hrun⟩ := Job.returns_bind.mp hrun
      obtain ⟨others, w₂, hothers, hdone⟩ := Job.returns_bind.mp hrun
      obtain ⟨rfl, -⟩ := Job.returns_pure.mp hdone
      obtain ⟨hlogged, hincidents⟩ := ih hothers
      rw [if_neg hunknown, show Job.outcome _ _ = _ from hfirst]
      constructor
      · rw [attempt_returns hfirst, hlogged, List.filterMap_cons]
        cases (Attempt.mk incident w).logged <;> rfl
      · rw [List.map_cons, hincidents, List.filter_cons_of_pos]
        rw [hisKnown, Bool.eq_false_iff.mpr hunknown]
        rfl

private theorem ingestNew_keeps (known incidents : List Value) :
    Keeps (ingestNew known incidents : Job σ (List Value)) := by
  induction incidents with
  | nil => exact Job.keeps_pure _
  | cons incident rest ih =>
    rw [ingestNew]
    refine Job.keeps_bind (Job.keeps_lift _) fun id => ?_
    refine Job.keeps_ite ih ?_
    refine Job.keeps_bind (attempt_keeps id incident) fun _ => ?_
    exact Job.keeps_bind ih fun _ => Job.keeps_pure _

/-- The attempts of a run that begins in `w`, at the stored incidents whose ids the log does not have. -/
def TakesUp (w : World σ) (as : List (Attempt σ)) : Prop :=
  ∃ stored, w.files.Lists storeFile stored ∧
    (stored.truthy = false ∧ as = [] ∨
      ∃ incidents log known, stored.elements = .ok incidents ∧ w.files.Lists logFile log ∧
        idsOf log = .ok known ∧ as = attempts known incidents w ∧
        as.map Attempt.incident = incidents.filter fun i => !isKnown known i)

theorem importFrom_records (h : Returns (importFrom shown) w () w') :
    ∃ as, TakesUp w as ∧ LogExtended w.files w'.files (as.filterMap Attempt.logged) ∧
      (as.filterMap Attempt.logged ≠ [] → LogTakes w.files (as.filterMap Attempt.logged)) := by
  unfold importFrom at h
  obtain ⟨v, w₁, hstored, hrun⟩ := Job.returns_bind.mp h
  obtain ⟨hlists, hsame⟩ := stored_returns hstored
  split at hrun
  case isTrue hnothing =>
    refine ⟨[], ⟨v, hlists, .inl ⟨?_, rfl⟩⟩, ?_⟩
    · simpa using hnothing
    · have hfiles := (stored_keeps shown).files hstored
      rw [Job.returns_say_bind] at hrun
      rw [← (Job.returns_pure.mp hrun).2]
      exact ⟨hfiles, fun hsome => absurd rfl hsome⟩
  case isFalse hsome =>
    obtain rfl := hsame (by simpa using hsome)
    obtain ⟨log, w₁, hread, hrun⟩ := Job.returns_bind.mp hrun
    obtain ⟨hlog, rfl⟩ := readLog_returns_iff.mp hread
    obtain ⟨known, hknown, hrun⟩ := Job.returns_lift_bind.mp hrun
    obtain ⟨incidents, helements, hrun⟩ := Job.returns_lift_bind.mp hrun
    obtain ⟨done, w₂, hingest, hrecord⟩ := Job.returns_bind.mp hrun
    obtain ⟨rfl, hincidents⟩ := ingestNew_returns hingest
    refine ⟨attempts known incidents w,
      ⟨v, hlists, .inr ⟨incidents, log, known, helements, hlog, hknown, rfl, hincidents⟩⟩, ?_⟩
    rw [← (ingestNew_keeps known incidents).files hingest]
    exact record_returns hrecord

private theorem importFrom_returns (h : Returns (importFrom shown) w () w') :
    ∃ as, TakesUp w as ∧ LogExtended w.files w'.files (as.filterMap Attempt.logged) := by
  obtain ⟨as, htakes, hlog, -⟩ := importFrom_records h
  exact ⟨as, htakes, hlog⟩

/-- A run that fails has logged nothing, whatever it brought in before, unless the log breaks off. -/
theorem importFrom_fails {e : Failure} (h : Fails (importFrom shown) w e w') : w'.files = w.files ∨
      ∃ as, TakesUp w as ∧ LogBroken w.files w'.files (as.filterMap Attempt.logged) e := by
  unfold importFrom at h
  rcases Job.fails_bind.mp h with hstored | ⟨v, w₁, hstored, hrun⟩
  · exact .inl ((stored_keeps shown).files_of_fails hstored)
  have hfiles := (stored_keeps shown).files hstored
  obtain ⟨hlists, hsame⟩ := stored_returns hstored
  split at hrun
  case isTrue =>
    rw [← hfiles]
    exact .inl ((Job.keeps_bind (Job.keeps_say _) fun _ => Job.keeps_pure _).files_of_fails hrun)
  case isFalse hsome =>
    obtain rfl := hsame (by simpa using hsome)
    rcases Job.fails_bind.mp hrun with hread | ⟨log, w₂, hread, hrun⟩
    · exact .inl (readLog_keeps.files_of_fails hread)
    obtain ⟨hlog, rfl⟩ := readLog_returns_iff.mp hread
    rcases Job.fails_bind.mp hrun with hknown | ⟨known, w₂, hknown, hrun⟩
    · exact .inl ((Job.keeps_lift _).files_of_fails hknown)
    obtain ⟨hids, rfl⟩ := Job.returns_lift.mp hknown
    rcases Job.fails_bind.mp hrun with helements | ⟨incidents, w₂, helements, hrun⟩
    · exact .inl ((Job.keeps_lift _).files_of_fails helements)
    obtain ⟨hitems, rfl⟩ := Job.returns_lift.mp helements
    rcases Job.fails_bind.mp hrun with hingest | ⟨done, w₂, hingest, hrecord⟩
    · exact .inl ((ingestNew_keeps known incidents).files_of_fails hingest)
    obtain ⟨rfl, hincidents⟩ := ingestNew_returns hingest
    have hbroken := record_fails hrecord
    rw [(ingestNew_keeps known incidents).files hingest] at hbroken
    refine hbroken.imp_right fun hbroken => ⟨attempts known incidents w, ?_, hbroken⟩
    exact ⟨v, hlists, .inr ⟨incidents, log, known, hitems, hlog, hids, rfl, hincidents⟩⟩

theorem outcome_importAll_of_has (hthere : w.files.has logDirectory = true) :
    Job.outcome importAll w = Job.outcome (importFrom s!"{w.root}/{storeFile}") w := by
  unfold importAll
  rw [Job.outcome_bind]
  dsimp only [Job.outcome_fileExists]
  rw [hthere, if_neg (by decide), Job.outcome_bind, Job.outcome_shownPath]

/-- A run makes the directory of the log first, and stops with nothing changed where it cannot. -/
theorem outcome_importAll (w : World σ) :
    Job.outcome importAll w = Job.outcome (importFrom s!"{w.root}/{storeFile}") (prepared w) ∨
      ∃ e, Job.outcome importAll w = (.error e, w) := by
  unfold prepared
  by_cases hthere : w.files.has logDirectory = true
  · rw [if_pos hthere]
    exact .inl (outcome_importAll_of_has hthere)
  · unfold importAll
    rw [Job.outcome_bind]
    dsimp only [Job.outcome_fileExists]
    rw [Bool.eq_false_iff.mpr hthere, if_pos Bool.not_false, Job.outcome_bind]
    rcases Job.outcome_makeDirectory (Bool.eq_false_iff.mpr hthere) with hmade | ⟨e, hnot⟩
    · left
      rw [hmade]
      dsimp only
      rw [if_neg (by decide), Job.outcome_bind, Job.outcome_shownPath]
    · rw [hnot]
      exact .inr ⟨e, rfl⟩

theorem attempts_connected {known incidents : List Value} {a : Attempt σ} (h : a ∈ attempts known incidents w) :
    a.before.connected = w.connected := by
  induction incidents generalizing w with
  | nil => cases h
  | cons incident rest ih =>
    rw [attempts] at h
    split at h
    · cases h
    · split at h
      · exact ih h
      · rcases List.mem_cons.mp h with rfl | hrest
        · rfl
        · rw [ih hrest]
          exact (attempt_keeps _ incident w).2

/-- A run that fails leaves the log as it was, unless what it has to log cannot be encoded; then the log
breaks off. One that ends logs exactly the attempts that counted as brought in. What was executed counts;
what was not counts just the same where there was no graph, or where a query failed and no connection was
lost. -/
theorem importAll_logs_unexecuted_iff :
    (∀ (w w' : World σ) (e : Failure), Fails importAll w e w' → w'.files.entries = w.files.entries ∨
      ∃ as, TakesUp (prepared w) as ∧
        LogBroken (prepared w).files w'.files (as.filterMap Attempt.logged) e) ∧
    (∀ w w' : World σ, Returns importAll w () w' → ∃ as, TakesUp (prepared w) as ∧
      (∀ a ∈ as, a.before.connected = w.connected) ∧
      LogExtended (prepared w).files w'.files (as.filterMap Attempt.logged)) ∧
    ∀ a : Attempt σ, (a.Executed → ∃ i, a.logged = some i) ∧
      ((∃ i, a.logged = some i) ∧ ¬ a.Executed ↔ ∃ i qs, (plan a.incident).Yields i qs ∧
        (a.before.connected = false ∨
          (∃ x ∈ answers qs a.before.outside, x.isFailed = true) ∧
            ∀ x ∈ answers qs a.before.outside, x.isLost = false)) := by
  refine ⟨?_, ?_, fun a => ⟨a.logged_of_executed, a.logged_unexecuted_iff⟩⟩
  · intro w w' e h
    rcases outcome_importAll w with hrun | ⟨e', hstop⟩
    · refine (importFrom_fails (hrun.symm.trans h)).imp_left fun hfiles => ?_
      rw [hfiles, prepared_entries]
    · cases hstop.symm.trans h
      exact .inl rfl
  · intro w w' h
    rcases outcome_importAll w with hrun | ⟨e, hstop⟩
    · obtain ⟨as, htakes, hlog⟩ := importFrom_returns (hrun.symm.trans h)
      refine ⟨as, htakes, fun a ha => ?_, hlog⟩
      obtain ⟨v, -, ⟨-, rfl⟩ | ⟨incidents, log, known, -, -, -, rfl, -⟩⟩ := htakes
      · cases ha
      · rw [attempts_connected ha, prepared_connected]
    · cases hstop.symm.trans h

end

/-- Without a graph an incident goes into the log, although none of its queries is sent. -/
theorem importAll_logs_unsent :
    let w : World Steady :=
      { outside := ⟨.rows [], .content .null⟩
        connected := false
        files := ⟨[(storeFile, .text ("[\x7b\"id\": \"i1\", \"title\": \"T\", " ++
          "\"victim\": \x7b\"organization\": \"O\"\x7d, \"attribution\": \x7b\x7d\x7d]"))], []⟩ }
    ∃ w' as, Returns importAll w () w' ∧ TakesUp (prepared w) as ∧
      ∃ a ∈ as, (∃ i, a.logged = some i) ∧ ¬ a.Executed := by
  intro w
  obtain ⟨_, w', hrun⟩ := Job.exists_returns_iff.mpr
    (show (Job.outcome importAll w).1.isOk = true by decide +kernel)
  have hentries : (Job.outcome importAll w).2.files.entries.length = 2 := by decide +kernel
  rw [show Job.outcome _ _ = _ from hrun] at hentries
  obtain ⟨as, htakes, hconnected, hlog⟩ := importAll_logs_unexecuted_iff.2.1 w w' hrun
  have hdone : as.filterMap Attempt.logged ≠ [] := by
    intro hnone
    rw [LogExtended, if_pos hnone] at hlog
    rw [hlog, prepared_entries] at hentries
    cases hentries
  obtain ⟨i, hi⟩ := List.exists_mem_of_ne_nil _ hdone
  obtain ⟨a, ha, hlogged⟩ := List.mem_filterMap.mp hi
  obtain ⟨qs, hplan, -⟩ := Attempt.logged_eq_some_iff.mp hlogged
  refine ⟨w', as, hrun, htakes, a, ha, ?_⟩
  exact (importAll_logs_unexecuted_iff.2.2 a).2.mpr ⟨i, qs, hplan, .inl (hconnected a ha)⟩

end ThreatAtlas.Incident
