import ThreatAtlas.Proofs.Report.StepNumbers

/-!
# What processing leaves as it was

Processing filters and cleans what the model read and does nothing else to it: what is not a step stays,
the steps stay in order with their words, and their entities are some of those they had, cleaned. For
each entity that is left the resolving model is called once or not at all.
-/

namespace ThreatAtlas

open Job (Returns)

namespace Entity

@[simp] theorem cleaned_kind (e : Entity) : e.cleaned.kind = e.kind := by
  unfold cleaned
  dsimp only
  split <;> rfl

/-- The second entity is the first after cleaning, with whatever grounding says of it. -/
structure Cleaned (e g : Entity) : Prop where
  kind : g.kind = e.kind
  value : g.value = e.cleaned.value

variable {e g : Entity} {model : Model}

private theorem Grounds.cleaned {σ : Type} [Outside σ] (h : Grounds σ model e.cleaned g) : e.Cleaned g :=
  ⟨h.kind_eq.trans e.cleaned_kind, h.value_eq⟩

/-- The call, if there is one, asks whether this entity is one of some candidates. -/
def Resolves (model : Model) (e : Entity) (call? : Option ModelCall) : Prop :=
  ∀ call ∈ call?, ∃ candidates, call = e.resolutionCall model candidates

private theorem resolutionCall_congr (hkind : g.kind = e.kind) (hvalue : g.value = e.value)
    (candidates : List Candidate) :
    g.resolutionCall model candidates = e.resolutionCall model candidates := by
  unfold resolutionCall question
  rw [hkind, hvalue]

theorem ground_resolves {σ : Type} [Outside σ] {w w' : World σ} (h : Returns (e.ground model) w g w') :
    ∃ call?, g.Resolves model call? ∧
      w'.trace.consultations = w.trace.consultations ++ call?.toList.map .call := by
  have hworld : (Job.outcome (e.ground model) w).2 = w' := by
    rw [show Job.outcome (e.ground model) w = _ from h]
  have hgrounds : Grounds σ model e g := ⟨w, w', h⟩
  rcases world_ground model e w with hsilent | ⟨candidates, hasked⟩
  · refine ⟨none, nofun, ?_⟩
    rw [← hworld, hsilent, consultations_afterLookup]
    simp
  · refine ⟨some (e.resolutionCall model candidates), ?_, ?_⟩
    · rintro call ⟨⟩
      exact ⟨candidates, (resolutionCall_congr hgrounds.kind_eq hgrounds.value_eq candidates).symm⟩
    · rw [← hworld, hasked]
      change (e.afterLookup w).trace.consultations ++ _ = _
      rw [consultations_afterLookup]
      rfl

end Entity

namespace Step

/-- The second step is the first with some of its entities left out and the others cleaned. -/
structure Filtered (s s' : Step) : Prop where
  number : s'.number = s.number
  phase : s'.phase = s.phase
  description : s'.description = s.description
  entities : ∃ kept, kept.Sublist s.entities ∧ List.Forall₂ Entity.Cleaned kept s'.entities

variable {σ : Type} [Outside σ] {model : Model} {s s' : Step}

private theorem Settled.filtered (h : s.Settled σ model s') : s.Filtered s' := by
  refine ⟨h.number, h.phase, h.description, s.entities.filter Entity.isKept, List.filter_sublist, ?_⟩
  exact (List.forall₂_map_left_iff.mp h.entities).imp fun _ _ hgrounds => hgrounds.cleaned

private theorem Settled.isValid (h : s.Settled σ model s') : ∀ g ∈ s'.entities, g.isValid = true := by
  intro g hg
  obtain ⟨e, he, hgrounds⟩ := exists_left_of_forall₂ (List.forall₂_map_left_iff.mp h.entities) hg
  have hkept : e.isKept = true := (List.mem_filter.mp he).2
  have hvalid : e.cleaned.isValid = true := (Bool.and_eq_true_iff.mp hkept).2
  unfold Entity.isValid at hvalid ⊢
  rw [hgrounds.value_eq]
  exact hvalid

end Step

namespace Report

section

variable {σ : Type}

/-- The calls of models between two worlds are those asked for the entities, one or none for each. -/
def Asks (model : Model) (w : World σ) (gs : List Entity) (w' : World σ) : Prop :=
  ∃ asked : List (Option ModelCall), List.Forall₂ (Entity.Resolves model) gs asked ∧
    w'.trace.consultations = w.trace.consultations ++ asked.reduceOption.map .call

private theorem asks_nil (model : Model) (w : World σ) : Asks model w [] w :=
  ⟨[], .nil, by simp⟩

variable {w w' : World σ} {model : Model}

private theorem Asks.append {w₁ w₂ : World σ} {gs hs : List Entity} (h : Asks model w gs w₁)
    (h' : Asks model w₁ hs w₂) : Asks model w (gs ++ hs) w₂ := by
  obtain ⟨asked, hasked, hworld⟩ := h
  obtain ⟨asked', hasked', hworld'⟩ := h'
  refine ⟨asked ++ asked', List.rel_append hasked hasked', ?_⟩
  rw [hworld', hworld, List.reduceOption_append, List.map_append, List.append_assoc]

variable [Outside σ]

private theorem asks_ground {e g : Entity} (h : Returns (e.ground model) w g w') : Asks model w [g] w' := by
  obtain ⟨call?, hcall, hworld⟩ := Entity.ground_resolves h
  refine ⟨[call?], .cons hcall .nil, ?_⟩
  rw [hworld]
  cases call? <;> rfl

theorem asks_settle {es gs : List Entity} (h : Returns (settle model es) w gs w') : Asks model w gs w' := by
  induction es generalizing gs w w' with
  | nil =>
    obtain ⟨rfl, rfl⟩ := Job.returns_pure.mp h
    exact asks_nil model w
  | cons e es ih =>
    rw [settle] at h
    by_cases hkept : (e.isValid && e.cleaned.isValid) = true
    · rw [if_pos hkept] at h
      obtain ⟨g, w₁, hground, hrun⟩ := Job.returns_bind.mp h
      obtain ⟨rest, w₂, hrest, hdone⟩ := Job.returns_bind.mp hrun
      obtain ⟨rfl, rfl⟩ := Job.returns_pure.mp hdone
      exact (asks_ground hground).append (ih hrest)
    · rw [if_neg hkept] at h
      exact ih h

private theorem asks_settleSteps {ss ss' : List Step} (h : Returns (settleSteps model ss) w ss' w') :
    Asks model w (ss'.flatMap Step.entities) w' := by
  induction ss generalizing ss' w w' with
  | nil =>
    obtain ⟨rfl, rfl⟩ := Job.returns_pure.mp h
    exact asks_nil model w
  | cons s ss ih =>
    rw [settleSteps] at h
    obtain ⟨entities, w₁, hentities, hrun⟩ := Job.returns_bind.mp h
    obtain ⟨rest, w₂, hrest, hdone⟩ := Job.returns_bind.mp hrun
    obtain ⟨rfl, rfl⟩ := Job.returns_pure.mp hdone
    exact (asks_settle hentities).append (ih hrest)

private theorem exists_added (r : Report) (indicators : List Entity) : ∃ added : List Step, added.length ≤ 1 ∧
    r.addObserved indicators = { r with steps := r.steps ++ added } := by
  by_cases homits : r.Omits indicators
  · obtain ⟨entities, hadded⟩ := addObserved_of_omits homits
    exact ⟨[_], le_rfl, hadded⟩
  · refine ⟨[], Nat.zero_le 1, ?_⟩
    rw [addObserved_of_not_omits homits, List.append_nil]

/-- Processing only filters and cleans: whatever the model reads, the graph answers and the resolver
says, all but the steps of what was read stays, the steps stay in order with at most one after them,
each with some of its entities, cleaned, all entities are valid, and for each of them the resolver is
called once or not at all. -/
theorem process_only_filters_and_cleans {s : Settings} {text : String} {r : Report} {w w' : World σ}
    (h : Returns (process s text) w r w') :
    ∃ drafted w₁ added, Returns (read (.ofSettings s (.int 0)) text) w (some drafted) w₁ ∧
      (r.title = drafted.title ∧ r.category = drafted.category ∧ r.summary = drafted.summary ∧
        r.timestamp = drafted.timestamp ∧ r.victim = drafted.victim ∧ r.attacker = drafted.attacker) ∧
      drafted.addObserved (Indicator.extract text) = { drafted with steps := drafted.steps ++ added } ∧
      added.length ≤ 1 ∧
      List.Forall₂ Step.Filtered (drafted.steps ++ added) r.steps ∧
      (∀ e ∈ r.entities, e.isValid = true) ∧
      Asks (.ofSettings s (.int 0)) w₁ r.entities w' := by
  obtain ⟨drafted, w₁, ss, hread, hsteps, hr⟩ := process_runs h
  obtain ⟨added, hone, hadded⟩ := exists_added drafted (Indicator.extract text)
  rw [hadded] at hsteps hr
  subst hr
  have hsettled := settleSteps_returns hsteps
  refine ⟨drafted, w₁, added, hread, ⟨rfl, rfl, rfl, rfl, rfl, rfl⟩, hadded, hone, ?_, ?_,
    asks_settleSteps hsteps⟩
  · exact hsettled.imp fun _ _ hstep => hstep.filtered
  · intro g hg
    obtain ⟨s', hs', hg⟩ := List.mem_flatMap.mp hg
    obtain ⟨_, -, hstep⟩ := exists_left_of_forall₂ hsettled hs'
    exact hstep.isValid g hg

end

/-- A stock word is left out of the one step that was read, and the step of what the text names besides
comes after it. -/
theorem process_filters_stock_word :
    let entity (kind value : String) := Value.record [("type", .text kind), ("value", .text value)]
    let reply := Value.record [("title", "T"), ("category", "Incident"), ("summary", "S"),
      ("attack_flow", .list [.record [("step", .int 7), ("phase", "P"), ("description", "D"),
        ("related_entities", .list [entity "Tool" "unknown", entity "IP" "1[.]2.3.4:80"])]])]
    let w : World Steady := { outside := ⟨.rows [], .object reply⟩ }
    ∃ r w', Returns (process {} "c2: 5.6.7.8") w r w' ∧ r.title = "T" ∧ r.steps.length ≤ 2 ∧
      ∀ e ∈ r.entities, e.isValid = true := by
  intro entity reply w
  obtain ⟨r, w', h⟩ := Job.exists_returns_iff.mpr
    (show (Job.outcome (process {} "c2: 5.6.7.8") w).1.isOk = true by decide +kernel)
  obtain ⟨drafted, w₁, added, hread, ⟨htitle, -⟩, -, hone, hsteps, hvalid, -⟩ :=
    process_only_filters_and_cleans h
  have hdraft : (Job.outcome (read (.ofSettings {} (.int 0)) "c2: 5.6.7.8") w).1.toOption.map
      (Option.map fun d => (d.title, d.steps.length)) = some (some ("T", 1)) := by
    decide +kernel
  rw [show Job.outcome _ _ = _ from hread] at hdraft
  simp only [Except.toOption, Option.map_some, Option.some.injEq, Prod.mk.injEq] at hdraft
  obtain ⟨htitle', hlength⟩ := hdraft
  refine ⟨r, w', h, htitle.trans htitle', ?_, hvalid⟩
  rw [← hsteps.length_eq, List.length_append, hlength]
  omega

end Report

end ThreatAtlas
