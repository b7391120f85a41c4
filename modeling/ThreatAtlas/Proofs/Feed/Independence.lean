import ThreatAtlas.Proofs.Feed.Loading
import ThreatAtlas.Proofs.Plan

/-!
# Filling the graph while queries fail

Two fillings of the graph from the same files go in lockstep, whatever the graph answers each of them: as
long as no connection is lost, the same queries are sent, the same import log is removed, and either both
come to their end or neither does. So a query that fails keeps back none of those after it.
-/

namespace ThreatAtlas

variable {σ τ α β : Type}

/-- Services whose queries may fail but that never lose the connection. -/
def Lasting (σ : Type) [Outside σ] : Prop :=
  ∀ (q : Query) (s : σ), (Outside.query q s).1.isLost = false

namespace Job

/-- Both jobs fail in their worlds or both return the same result, and they leave the same files and send the
same queries. -/
def Matches (x : Job σ α) (w : World σ) (y : Job τ α) (v : World τ) : Prop :=
  (outcome x w).1.toOption = (outcome y v).1.toOption ∧ (outcome x w).2.files = (outcome y v).2.files ∧
    ∃ qs, Sends x w qs ∧ Sends y v qs

/-- The jobs match in all worlds that have the same files, whatever their services. -/
def Lockstep (x : Job σ α) (y : Job τ α) : Prop :=
  ∀ w v, w.files = v.files → Matches x w y v

variable {x : Job σ α} {y : Job τ α} {f : α → Job σ β} {g : α → Job τ β}

private theorem lockstep_lift {d e : Except Failure α} (h : d.toOption = e.toOption) :
    Lockstep (liftM d : Job σ α) (liftM e : Job τ α) :=
  fun _ _ hfiles => ⟨h, hfiles, [], sends_nil_of_outcome rfl, sends_nil_of_outcome rfl⟩

private theorem lockstep_of_delivers {x : Job σ Unit} {y : Job τ Unit} {qs : List Query}
    (hx : ∀ files, Delivers files x qs) (hy : ∀ files, Delivers files y qs) : Lockstep x y := by
  intro w v hfiles
  obtain ⟨_, w', hxrun, hw, hqs⟩ := hx _ w rfl
  obtain ⟨_, v', hyrun, hv, hqs'⟩ := hy _ v rfl
  unfold Matches Sends
  rw [show outcome x w = _ from hxrun, show outcome y v = _ from hyrun]
  exact ⟨rfl, hw.trans (hfiles.trans hv.symm), qs, hqs, hqs'⟩

private theorem lockstep_say (s t : String) : Lockstep (say s : Job σ Unit) (say t : Job τ Unit) :=
  lockstep_of_delivers (delivers_say · s) (delivers_say · t)

private theorem lockstep_bind (hx : Lockstep x y) (hf : ∀ a, Lockstep (f a) (g a)) :
    Lockstep (x >>= f) (y >>= g) := by
  intro w v hfiles
  obtain ⟨hr, hfiles₁, qs, hqs, hqs'⟩ := hx w v hfiles
  unfold Sends at hqs hqs'
  rcases hxrun : outcome x w with ⟨r, w₁⟩
  rcases hyrun : outcome y v with ⟨r', v₁⟩
  rw [hxrun] at hr hfiles₁ hqs
  rw [hyrun] at hr hfiles₁ hqs'
  cases r with
  | ok a =>
    cases r' with
    | error => cases hr
    | ok a' =>
      cases hr
      obtain ⟨hr₂, hfiles₂, rs, hrs, hrs'⟩ := hf a w₁ v₁ hfiles₁
      unfold Matches
      rw [outcome_bind_of_returns hxrun, outcome_bind_of_returns hyrun]
      exact ⟨hr₂, hfiles₂, qs ++ rs, sends_bind_of_returns hxrun hqs hrs,
        sends_bind_of_returns hyrun hqs' hrs'⟩
  | error e =>
    cases r' with
    | ok => cases hr
    | error e' =>
      have hfails : outcome (x >>= f) w = (.error e, w₁) := by rw [outcome_bind, hxrun]
      have hfails' : outcome (y >>= g) v = (.error e', v₁) := by rw [outcome_bind, hyrun]
      unfold Matches
      rw [hfails, hfails']
      exact ⟨rfl, hfiles₁, qs, sends_bind_of_fails hxrun hqs, sends_bind_of_fails hyrun hqs'⟩

private theorem lockstep_get_bind {f : World σ → Job σ α} {g : World τ → Job τ α}
    (h : ∀ w v, w.files = v.files → Matches (f w) w (g v) v) : Lockstep (get >>= f) (get >>= g) :=
  h

theorem lockstep_foldlM {f : β → α → Job σ β} {g : β → α → Job τ β} (h : ∀ b a, Lockstep (f b a) (g b a))
    (xs : List α) (b : β) : Lockstep (xs.foldlM f b) (xs.foldlM g b) := by
  induction xs generalizing b with
  | nil => exact lockstep_lift rfl
  | cons a xs ih =>
    rw [List.foldlM_cons, List.foldlM_cons]
    exact lockstep_bind (h b a) ih

private theorem lockstep_fileExists (path : String) :
    Lockstep (fileExists path : Job σ Bool) (fileExists path : Job τ Bool) :=
  lockstep_get_bind fun w v hfiles => lockstep_lift (by rw [hfiles]) w v hfiles

private theorem lockstep_shownPath_bind (path : String) {f : String → Job σ α} {g : String → Job τ α}
    (h : ∀ s t, Lockstep (f s) (g t)) : Lockstep (shownPath path >>= f) (shownPath path >>= g) :=
  lockstep_get_bind fun w v hfiles => h _ _ w v hfiles

private theorem lockstep_readText (path : String) :
    Lockstep (readText path : Job σ String) (readText path : Job τ String) := by
  refine lockstep_bind (lockstep_get_bind fun w v hfiles => ?_) fun content =>
    lockstep_bind (lockstep_lift rfl) fun _ => lockstep_lift rfl
  rw [hfiles]
  cases v.files.place path with
  | file content => exact lockstep_lift rfl w v hfiles
  | _ => exact lockstep_shownPath_bind path (fun _ _ => lockstep_lift rfl) w v hfiles

private theorem lockstep_removeFile (path : String) :
    Lockstep (removeFile path : Job σ Unit) (removeFile path : Job τ Unit) := by
  refine lockstep_get_bind fun w v hfiles => ?_
  rw [hfiles]
  cases v.files.place path with
  | file content => exact ⟨rfl, rfl, [], (List.append_nil _).symm, (List.append_nil _).symm⟩
  | _ => exact lockstep_shownPath_bind path (fun _ _ => lockstep_lift rfl) w v hfiles

section

variable [Outside σ] [Outside τ]

private theorem lockstep_send_bind (hσ : Lasting σ) (hτ : Lasting τ) (q : Query) {f : Answer → Job σ α}
    {g : Answer → Job τ α}
    (h : ∀ a b : Answer, a.isLost = false → b.isLost = false → Lockstep (f a) (g b)) :
    Lockstep (send q >>= f) (send q >>= g) := by
  intro w v hfiles
  obtain ⟨hr, hfiles₁, qs, hqs, hqs'⟩ :=
    h _ _ (hσ q w.outside) (hτ q v.outside) (w.querying q) (v.querying q) hfiles
  have hw : Returns (send q) w _ (w.querying q) := outcome_send q w
  have hv : Returns (send q) v _ (v.querying q) := outcome_send q v
  unfold Matches
  rw [outcome_bind_of_returns hw, outcome_bind_of_returns hv]
  exact ⟨hr, hfiles₁, [q] ++ qs, sends_bind_of_returns hw rfl hqs, sends_bind_of_returns hv rfl hqs'⟩

end

end Job

namespace Feed.Loading

open Job

section

variable [Outside σ] [Outside τ]

private theorem lockstep_run (hσ : Lasting σ) (hτ : Lasting τ) (title query : String) (params : Fields) :
    Lockstep (run title query params : Job σ Unit) (run title query params : Job τ Unit) := by
  refine lockstep_bind (lockstep_say _ _) fun _ => lockstep_send_bind hσ hτ _ fun a b ha hb => ?_
  cases a with
  | lost => cases ha
  | _ =>
    cases b with
    | lost => cases hb
    | _ => exact lockstep_say _ _

private theorem lockstep_applySchema (hσ : Lasting σ) (hτ : Lasting τ) :
    Lockstep (applySchema : Job σ Unit) (applySchema : Job τ Unit) := by
  refine lockstep_bind (lockstep_foldlM (fun lost query => ?_) _ _) fun lost => ?_
  · refine lockstep_send_bind hσ hτ _ fun a b ha hb => ?_
    cases a with
    | lost => cases ha
    | _ =>
      cases b with
      | lost => cases hb
      | _ => exact lockstep_lift rfl
  · cases lost <;> exact lockstep_lift rfl

theorem lockstep_load (table : Table) : Lockstep (load table : Job σ Unit) (load table : Job τ Unit) := by
  refine lockstep_bind (lockstep_fileExists _) fun found => ?_
  cases found with
  | true =>
    refine lockstep_bind (lockstep_readText _) fun text => lockstep_bind (lockstep_lift rfl) fun rows => ?_
    exact lockstep_of_delivers
      (fun files => delivers_forM fun batch _ => delivers_loadBatch files table.steps (batch.2 + 1) batch.1)
      fun files => delivers_forM fun batch _ => delivers_loadBatch files table.steps (batch.2 + 1) batch.1
  | false => exact lockstep_shownPath_bind _ fun _ _ => lockstep_say _ _

private theorem lockstep_opening (hσ : Lasting σ) (hτ : Lasting τ) :
    Lockstep (opening : Job σ Unit) (opening : Job τ Unit) := by
  have hschema : Lockstep (do
        say "\n=== [2/6] Creating Schema & Indexes ==="
        applySchema : Job σ Unit) (do
        say "\n=== [2/6] Creating Schema & Indexes ==="
        applySchema : Job τ Unit) :=
    lockstep_bind (lockstep_say _ _) fun _ => lockstep_applySchema hσ hτ
  refine lockstep_bind (lockstep_say _ _) fun _ => lockstep_bind (lockstep_run hσ hτ _ _ _) fun _ => ?_
  refine lockstep_bind (lockstep_fileExists _) fun found => ?_
  cases found with
  | true =>
    refine lockstep_bind (lockstep_removeFile _) fun _ => lockstep_shownPath_bind _ fun _ _ => ?_
    exact lockstep_bind (lockstep_say _ _) fun _ => hschema
  | false => exact hschema

private theorem lockstep_fill (hσ : Lasting σ) (hτ : Lasting τ) :
    Lockstep (fill : Job σ Unit) (fill : Job τ Unit) := by
  rw [fill_eq, fill_eq]
  refine lockstep_bind (lockstep_opening hσ hτ) fun _ => lockstep_bind ?_ fun _ => ?_
  · refine lockstep_bind (lockstep_say _ _) fun _ => lockstep_bind (lockstep_say _ _) fun _ => ?_
    refine lockstep_bind (lockstep_load _) fun _ => lockstep_bind (lockstep_load _) fun _ => ?_
    refine lockstep_bind (lockstep_say _ _) fun _ => lockstep_bind (lockstep_load _) fun _ => ?_
    exact lockstep_bind (lockstep_say _ _) fun _ => lockstep_load _
  · refine lockstep_bind (lockstep_say _ _) fun _ => lockstep_bind (lockstep_run hσ hτ _ _ _) fun _ => ?_
    exact lockstep_say _ _

/-- Which queries fail has no effect on the others: from the same files the graph is filled by the queries of
a filling in which all of them succeed, in the same order and with the same parameters, and of the files the
same are left, so the same import log is removed. -/
theorem fill_alike_despite_failures (hσ : Lasting σ)
    (hτ : ∀ (q : Query) (s : τ), (Outside.query q s).1.isSound = true) {w : World σ} {v : World τ}
    (hfiles : w.files = v.files) :
    ∃ qs, Sends fill w qs ∧ Sends fill v qs ∧ (outcome fill w).2.files = (outcome fill v).2.files ∧
      (outcome fill w).1.isOk = (outcome fill v).1.isOk := by
  have hlasting : Lasting τ := by
    intro q s
    have hsound := hτ q s
    rw [Answer.isSound_eq, Bool.and_eq_true] at hsound
    simpa using hsound.2
  have hok (r : Except Failure Unit) : r.isOk = r.toOption.isSome := by cases r <;> rfl
  obtain ⟨hresult, hleft, qs, hw, hv⟩ := lockstep_fill hσ hlasting w v hfiles
  exact ⟨qs, hw, hv, hleft, by rw [hok, hok, hresult]⟩

end

/-- Every query fails, and still the log is removed and both steps of the one batch are made. -/
theorem fill_alike_when_all_fail :
    let files : Files := ⟨[(importLog, .text "[]"), (Urls.target, .text "id,url,tags\n1,u,t\n")], []⟩
    let w : World (Fixed (.failed "down")) := { outside := .services, files }
    let v : World (Fixed (.rows [])) := { outside := .services, files }
    ∃ qs, Sends fill w qs ∧ Sends fill v qs ∧ qs.length = 9 ∧
      (outcome fill w).2.files.has importLog = false := by
  intro files w v
  obtain ⟨qs, hw, hv, hleft, -⟩ := fill_alike_despite_failures (w := w) (v := v)
    (fun _ _ => rfl) (fun _ _ => rfl) rfl
  refine ⟨qs, hw, hv, ?_, ?_⟩
  · have hsent : (outcome fill v).2.trace.queries = qs := hv
    rw [← hsent]
    decide +kernel
  · rw [hleft]
    decide +kernel

end Feed.Loading

end ThreatAtlas
