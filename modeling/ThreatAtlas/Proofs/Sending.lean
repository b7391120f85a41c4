import ThreatAtlas.Proofs.Files

/-!
# What jobs send

The queries a job sends to the graph, in their order, whether the job then ends well or fails.
-/

namespace ThreatAtlas.Job

variable {σ α β : Type}

/-- Run in the world `w`, the job sends these queries. -/
def Sends (job : Job σ α) (w : World σ) (qs : List Query) : Prop :=
  (outcome job w).2.trace.queries = w.trace.queries ++ qs

theorem sends_pure (a : α) (w : World σ) : Sends (pure a) w [] :=
  (List.append_nil _).symm

variable {w w₁ : World σ} {job x : Job σ α} {qs : List Query} {f : α → Job σ β} {a : α} {files : Files}

theorem sends_nil_of_outcome {r : Except Failure α} (h : outcome job w = (r, w)) : Sends job w [] := by
  rw [Sends, h, List.append_nil]

theorem sends_bind_of_silent (hx : Sends x w qs) (hf : ∀ a v, Sends (f a) v []) : Sends (x >>= f) w qs := by
  unfold Sends at *
  rw [outcome_bind]
  rcases hrun : outcome x w with ⟨r, w₁⟩
  rw [hrun] at hx
  cases r with
  | ok a =>
    dsimp only at hx ⊢
    rw [hf a w₁, List.append_nil, hx]
  | error e => exact hx

theorem sends_bind_of_returns {qs' : List Query} (hx : Returns x w a w₁)
    (hqs : w₁.trace.queries = w.trace.queries ++ qs) (hf : Sends (f a) w₁ qs') :
    Sends (x >>= f) w (qs ++ qs') := by
  unfold Sends at *
  rw [outcome_bind, show outcome x w = _ from hx]
  dsimp only
  rw [hf, hqs, List.append_assoc]

theorem sends_bind_of_fails {e : Failure} (hx : Fails x w e w₁)
    (hqs : w₁.trace.queries = w.trace.queries ++ qs) : Sends (x >>= f) w qs := by
  rw [Sends, outcome_bind, show outcome x w = _ from hx]
  exact hqs

/-- Where both parts of a job send something, the whole does. -/
theorem exists_sends_bind (hx : ∀ w, ∃ qs, Sends x w qs) (hf : ∀ a w, ∃ qs, Sends (f a) w qs) (w : World σ) :
    ∃ qs, Sends (x >>= f) w qs := by
  obtain ⟨qs, hqs⟩ := hx w
  rcases hrun : outcome x w with ⟨r, w₁⟩
  rw [Sends, hrun] at hqs
  cases r with
  | ok a =>
    obtain ⟨rs, hrs⟩ := hf a w₁
    exact ⟨qs ++ rs, sends_bind_of_returns hrun hqs hrs⟩
  | error e => exact ⟨qs, sends_bind_of_fails hrun hqs⟩

theorem sends_bind_after_silent (hx : Returns x w a w₁) (hqs : w₁.trace.queries = w.trace.queries)
    (hf : Sends (f a) w₁ qs) : Sends (x >>= f) w qs := by
  have hnone : w₁.trace.queries = w.trace.queries ++ [] := by rw [hqs, List.append_nil]
  exact sends_bind_of_returns hx hnone hf

theorem sends_say_bind {s : String} {f : Unit → Job σ α} (h : Sends (f ()) (w.printing (s ++ "\n")) qs) :
    Sends (say s >>= f) w qs :=
  sends_bind_after_silent rfl rfl h

theorem sends_lift_bind (h : Sends (f a) w qs) : Sends (liftM (Except.ok a : Except Failure α) >>= f) w qs :=
  sends_bind_after_silent rfl rfl h

theorem sends_recover_of_silent {onError : Failure → Job σ α} (hjob : Sends job w qs)
    (herror : ∀ e v, Sends (onError e) v []) : Sends (recover job onError) w qs := by
  unfold Sends at *
  rw [outcome_recover]
  rcases hrun : outcome job w with ⟨r, w₁⟩
  rw [hrun] at hjob
  cases r with
  | ok a => exact hjob
  | error e =>
    dsimp only at hjob ⊢
    split
    · rw [herror e w₁, List.append_nil, hjob]
    · exact hjob

theorem sends_readJson (path : String) (w : World σ) : Sends (readJson path) w [] := by
  rw [Sends, world_readJson, List.append_nil]

theorem sends_writeText (path text : String) (w : World σ) : Sends (writeText path text) w [] := by
  rw [Sends, List.append_nil]
  rcases outcome_writeText path text w with hdone | ⟨e, hnot⟩
  · rw [hdone]
  · rw [hnot]

theorem sends_writeJson (path : String) (step : Nat) (v : Value) (w : World σ) :
    Sends (writeJson path step v) w [] := by
  unfold writeJson
  refine sends_bind_of_silent (sends_writeText _ _ w) fun _ w' => ?_
  cases Json.fault? (Json.pieces step v) with
  | none => exact sends_pure () w'
  | some why => exact sends_nil_of_outcome rfl

theorem sends_ask [Outside σ] (text : String) (params : Fields) (w : World σ) :
    Sends (ask text params) w (if w.connected then [⟨text, params⟩] else []) := by
  unfold Sends
  rw [outcome_ask]
  by_cases hconnected : w.connected = true
  · rw [if_pos hconnected, if_pos hconnected]
    cases (Outside.query ⟨text, params⟩ w.outside).1 <;> rfl
  · rw [if_neg hconnected, if_neg hconnected, List.append_nil]

/-- With these files the job returns, whatever the graph answers. It leaves the files as they are and
sends just these queries. -/
def Delivers (files : Files) (job : Job σ α) (qs : List Query) : Prop :=
  ∀ w, w.files = files → ∃ a w', Returns job w a w' ∧ w'.files = files ∧
    w'.trace.queries = w.trace.queries ++ qs

theorem Delivers.of_returns {w' : World σ} (h : Delivers w.files job qs) (hrun : Returns job w a w') :
    w'.files = w.files ∧ w'.trace.queries = w.trace.queries ++ qs := by
  obtain ⟨a', w₁, hrun', hafter⟩ := h w rfl
  cases hrun.symm.trans hrun'
  exact hafter

theorem delivers_pure (files : Files) (a : α) : Delivers files (pure a : Job σ α) [] :=
  fun w hw => ⟨a, w, rfl, hw, (List.append_nil _).symm⟩

theorem delivers_say (files : Files) (s : String) : Delivers files (say s : Job σ Unit) [] :=
  fun w hw => ⟨(), w.printing (s ++ "\n"), rfl, hw, (List.append_nil _).symm⟩

theorem delivers_send [Outside σ] (files : Files) (q : Query) :
    Delivers files (send q : Job σ Answer) [q] :=
  fun w hw => ⟨_, w.querying q, rfl, hw, rfl⟩

theorem delivers_bind {qs' : List Query} (hx : Delivers files x qs) (hf : ∀ a, Delivers files (f a) qs') :
    Delivers files (x >>= f) (qs ++ qs') := by
  intro w hw
  obtain ⟨a, w₁, hrun, hfiles, hqs⟩ := hx w hw
  obtain ⟨b, w₂, hrun', hfiles', hqs'⟩ := hf a w₁ hfiles
  refine ⟨b, w₂, returns_bind.mpr ⟨a, w₁, hrun, hrun'⟩, hfiles', ?_⟩
  rw [hqs', hqs, List.append_assoc]

theorem delivers_say_bind {s : String} {f : Unit → Job σ α} (h : Delivers files (f ()) qs) :
    Delivers files (say s >>= f) qs :=
  delivers_bind (delivers_say files s) fun _ => h

theorem delivers_forM {xs : List α} {job : α → Job σ PUnit} {sent : α → List Query}
    (h : ∀ x ∈ xs, Delivers files (job x) (sent x)) : Delivers files (xs.forM job) (xs.flatMap sent) := by
  induction xs with
  | nil => exact delivers_pure files _
  | cons x xs ih =>
    exact delivers_bind (h x (by simp)) fun _ => ih fun y hy => h y (by simp [hy])

end ThreatAtlas.Job
