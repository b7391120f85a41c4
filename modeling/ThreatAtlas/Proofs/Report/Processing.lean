import ThreatAtlas.Proofs.Indicator.Cleaning
import ThreatAtlas.Proofs.Report.Grounding
import ThreatAtlas.Report.Processing

/-!
# What becomes of a report

A processed report is the one the model made, with at most one step added, in which each step keeps its
number, phase and description and holds what was grounded of its entities. Every indicator of the text
that is worth keeping is among them.
-/

namespace ThreatAtlas

open Job (Returns)

namespace Entity

/-- Whether an entity passes the check before cleaning and the one after it. -/
def isKept (e : Entity) : Bool :=
  e.isValid && e.cleaned.isValid

/-- In some world `g` is what a grounding of `e` gives. -/
def Grounds (σ : Type) [Outside σ] (model : Model) (e g : Entity) : Prop :=
  ∃ w w' : World σ, Returns (e.ground model) w g w'

theorem Grounds.value_eq {σ : Type} [Outside σ] {model : Model} {e g : Entity}
    (h : Grounds σ model e g) : g.value = e.value := by
  obtain ⟨w, w', hreturns⟩ := h
  rw [(ground_returns hreturns).2, settledBy_value]

theorem Grounds.kind_eq {σ : Type} [Outside σ] {model : Model} {e g : Entity}
    (h : Grounds σ model e g) : g.kind = e.kind := by
  obtain ⟨w, w', hreturns⟩ := h
  rw [(ground_returns hreturns).2, settledBy_kind]

end Entity

/-- The second step is the first with its entities cleaned, checked and grounded. -/
structure Step.Settled (σ : Type) [Outside σ] (model : Model) (s s' : Step) : Prop where
  number : s'.number = s.number
  phase : s'.phase = s.phase
  description : s'.description = s.description
  entities : List.Forall₂ (Entity.Grounds σ model)
    ((s.entities.filter Entity.isKept).map Entity.cleaned) s'.entities

namespace Report

section

variable {σ : Type} [Outside σ]
variable {w w' : World σ}

private theorem settle_returns {model : Model} {es gs : List Entity} (h : Returns (settle model es) w gs w') :
    List.Forall₂ (Entity.Grounds σ model) ((es.filter Entity.isKept).map Entity.cleaned) gs := by
  induction es generalizing gs w w' with
  | nil =>
    obtain ⟨rfl, -⟩ := Job.returns_pure.mp h
    exact .nil
  | cons e es ih =>
    rw [settle] at h
    split at h
    case isTrue hkept =>
      obtain ⟨g, w₁, hground, hrun⟩ := Job.returns_bind.mp h
      obtain ⟨gs, w₂, hrest, hdone⟩ := Job.returns_bind.mp hrun
      obtain ⟨rfl, -⟩ := Job.returns_pure.mp hdone
      rw [List.filter_cons_of_pos (show e.isKept = true from hkept), List.map_cons]
      exact .cons ⟨w, w₁, hground⟩ (ih hrest)
    case isFalse hkept =>
      rw [List.filter_cons_of_neg (show ¬ e.isKept = true from hkept)]
      exact ih h

theorem settleSteps_returns {model : Model} {ss ss' : List Step} (h : Returns (settleSteps model ss) w ss' w') :
    List.Forall₂ (Step.Settled σ model) ss ss' := by
  induction ss generalizing ss' w w' with
  | nil =>
    obtain ⟨rfl, -⟩ := Job.returns_pure.mp h
    exact .nil
  | cons s ss ih =>
    rw [settleSteps] at h
    obtain ⟨entities, w₁, hentities, hrun⟩ := Job.returns_bind.mp h
    obtain ⟨rest, w₂, hrest, hdone⟩ := Job.returns_bind.mp hrun
    obtain ⟨rfl, -⟩ := Job.returns_pure.mp hdone
    exact .cons ⟨rfl, rfl, rfl, settle_returns hentities⟩ (ih hrest)

theorem process_runs {s : Settings} {text : String} {r : Report} (h : Returns (process s text) w r w') :
    ∃ drafted w₁ ss, Returns (read (.ofSettings s (.int 0)) text) w (some drafted) w₁ ∧
      Returns (settleSteps (.ofSettings s (.int 0)) (drafted.addObserved (Indicator.extract text)).steps)
        w₁ ss w' ∧
      r = { drafted.addObserved (Indicator.extract text) with steps := ss } := by
  obtain ⟨draft?, w₁, hread, hrun⟩ := Job.returns_bind.mp h
  cases draft? with
  | none => exact absurd hrun Job.returns_throw
  | some drafted =>
    obtain ⟨ss, w₂, hsteps, hdone⟩ := Job.returns_bind.mp hrun
    obtain ⟨rfl, rfl⟩ := Job.returns_pure.mp hdone
    exact ⟨drafted, w₁, ss, hread, hsteps, rfl⟩

theorem process_returns {s : Settings} {text : String} {r : Report} (h : Returns (process s text) w r w') :
    ∃ drafted w₁ ss, Returns (read (.ofSettings s (.int 0)) text) w (some drafted) w₁ ∧
      List.Forall₂ (Step.Settled σ (.ofSettings s (.int 0)))
        (drafted.addObserved (Indicator.extract text)).steps ss ∧
      r = { drafted.addObserved (Indicator.extract text) with steps := ss } := by
  obtain ⟨drafted, w₁, ss, hread, hsteps, hr⟩ := process_runs h
  exact ⟨drafted, w₁, ss, hread, settleSteps_returns hsteps, hr⟩

end

private theorem known_or_unmentioned {i : Entity} {es : List Entity} (hi : i ∈ es) (known : List String) :
    Indicator.clean i.value ∈ known ∨
      ∃ e ∈ unmentioned known es, Indicator.clean e.value = Indicator.clean i.value := by
  induction es generalizing known with
  | nil => cases hi
  | cons e es ih =>
    rw [unmentioned]
    by_cases hknown : known.contains (Indicator.clean e.value) = true
    · rw [if_pos hknown]
      rcases List.mem_cons.mp hi with rfl | hi
      · exact .inl (by simpa using hknown)
      · exact ih hi known
    · rw [if_neg hknown]
      rcases List.mem_cons.mp hi with rfl | hi
      · exact .inr ⟨i, by simp, rfl⟩
      · rcases ih hi (Indicator.clean e.value :: known) with hmem | ⟨e', he', heq⟩
        · rcases List.mem_cons.mp hmem with heq | hmem
          · exact .inr ⟨e, by simp, heq.symm⟩
          · exact .inl hmem
        · exact .inr ⟨e', List.mem_cons_of_mem _ he', heq⟩

/-- A completed report mentions every indicator, in some spelling. -/
theorem addObserved_mentions (r : Report) {indicators : List Entity} {i : Entity}
    (hi : i ∈ indicators) : ∃ e ∈ (r.addObserved indicators).entities,
      Indicator.clean e.value = Indicator.clean i.value := by
  unfold addObserved
  dsimp only
  rcases known_or_unmentioned hi (r.entities.map (Indicator.clean ·.value)) with hknown | ⟨e, he, heq⟩
  · obtain ⟨e, he, heq⟩ := List.mem_map.mp hknown
    refine ⟨e, ?_, heq⟩
    split
    · exact he
    · simp only [entities, List.flatMap_append, List.mem_append]
      exact .inl he
  · refine ⟨e, ?_, heq⟩
    split
    case isTrue hempty =>
      rw [List.isEmpty_iff.mp hempty] at he
      cases he
    case isFalse =>
      simp only [entities, List.flatMap_append, List.mem_append, List.flatMap_cons, List.flatMap_nil,
        List.append_nil]
      exact .inr he

/-- No indicator is lost: whatever the model, the graph and the resolver answer, a report that is
processed holds the cleaned value of every indicator of the text that is worth keeping. -/
theorem process_keeps_indicators {σ : Type} [Outside σ] {s : Settings} {text : String} {r : Report}
    {w w' : World σ} (h : Returns (process s text) w r w') {i : Entity}
    (hi : i ∈ Indicator.extract text)
    (hvalid : Indicator.isValid (Indicator.clean i.value) = true) :
    ∃ step ∈ r.steps, ∃ e ∈ step.entities, e.value = Indicator.clean i.value := by
  obtain ⟨drafted, w₁, ss, -, hsettled, rfl⟩ := process_returns h
  obtain ⟨e, he, hclean⟩ := addObserved_mentions drafted hi
  obtain ⟨step, hstep, he⟩ := List.mem_flatMap.mp he
  obtain ⟨step', hstep', hsettled⟩ := exists_right_of_forall₂ hsettled hstep
  have hvalue : e.cleaned.value = Indicator.clean i.value := by
    rw [← hclean]
    apply Entity.cleaned_value
    rw [hclean]
    exact Indicator.splitPorts?_clean_of_mem_extract hi
  have hkept : e.isKept = true := by
    unfold Entity.isKept Entity.isValid
    rw [hvalue, hvalid, Bool.and_true]
    apply Indicator.isValid_of_isValid_clean
    rw [hclean]
    exact hvalid
  have hmem : e.cleaned ∈ (step.entities.filter Entity.isKept).map Entity.cleaned :=
    List.mem_map_of_mem (List.mem_filter.mpr ⟨he, hkept⟩)
  obtain ⟨g, hg, hgrounds⟩ := exists_right_of_forall₂ hsettled.entities hmem
  exact ⟨step', hstep', g, hg, hgrounds.value_eq.trans hvalue⟩

/-- An address that the model spelt in another way is found under its plain form. -/
theorem process_keeps_respelt_address :
    let reply := Value.record [("title", "T"), ("category", "Incident"), ("summary", "S"),
      ("attack_flow", .list [.record [("step", .int 1), ("phase", "P"), ("description", "D"),
        ("related_entities", .list [.record [("type", "Tool"), ("value", "1(.)2.3.4")]])]])]
    let w : World Steady := { outside := ⟨.rows [], .object reply⟩ }
    ∃ r w', Returns (process {} "c2: 1[.]2.3.4") w r w' ∧
      ∃ step ∈ r.steps, ∃ e ∈ step.entities, e.value = "1.2.3.4" := by
  intro reply w
  obtain ⟨r, w', h⟩ := Job.exists_returns_iff.mpr
    (show (Job.outcome (process {} "c2: 1[.]2.3.4") w).1.isOk = true by decide +kernel)
  have hvalues : (Indicator.extract "c2: 1[.]2.3.4").map Entity.value = ["1[.]2.3.4"] := by
    decide +kernel
  obtain ⟨i, hi, hvalue⟩ := List.mem_map.mp (hvalues ▸ List.mem_singleton_self "1[.]2.3.4")
  have hclean : Indicator.clean i.value = "1.2.3.4" := by
    rw [hvalue]
    decide +kernel
  have hkept := process_keeps_indicators h hi (by rw [hclean]; decide +kernel)
  rw [hclean] at hkept
  exact ⟨r, w', h, hkept⟩

end Report

end ThreatAtlas
