import ThreatAtlas.Proofs.Job
import ThreatAtlas.Report.Grounding

/-!
# How an entity is grounded

A grounding that returns has reached one of three verdicts: no node is taken to be the entity, the best
candidate is certain, or a model says which node it is. The verdict is a function of the rows the graph
answers and of the model's reply, and with the entity it determines the result.
-/

namespace ThreatAtlas

section

variable {σ : Type} [Outside σ]

def World.rowsFor (w : World σ) (q : Query) : List Row :=
  if w.connected then
    match (Outside.query q w.outside).1 with
    | .rows rows => rows
    | _ => []
  else []

theorem Job.outcome_askOrNone (q : Query) (w : World σ) :
    (outcome (askOrNone q) w).1 = .ok (w.rowsFor q) := by
  unfold askOrNone World.rowsFor
  rw [outcome_recover, outcome_ask]
  by_cases hconnected : w.connected = true
  · rw [if_pos hconnected, if_pos hconnected]
    cases (Outside.query q w.outside).1 <;> rfl
  · rw [if_neg hconnected, if_neg hconnected]

private theorem Job.consultations_askOrNone (q : Query) (w : World σ) :
    (outcome (askOrNone q) w).2.trace.consultations = w.trace.consultations := by
  unfold askOrNone
  rw [outcome_recover, outcome_ask]
  by_cases hconnected : w.connected = true
  · rw [if_pos hconnected]
    cases (Outside.query q w.outside).1 <;> rfl
  · rw [if_neg hconnected]

end

namespace Entity

open Job (Returns outcome)

inductive Verdict where
  /-- No node is taken to be the entity. -/
  | unmatched
  | certain (c : Candidate)
  /-- A model says that the entity is one of the candidates. -/
  | resolved (r : Resolution)

def settledBy (e : Entity) : Verdict → Entity
  | .unmatched => e.ungrounded
  | .certain c => { e with normalized := some c.name, existingId := c.id, isNew := false }
  | .resolved r => { e with normalized := r.name, existingId := .ofOption r.matchedId, isNew := false }

@[simp] theorem settledBy_value (e : Entity) (v : Verdict) : (e.settledBy v).value = e.value := by
  cases v <;> rfl

@[simp] theorem settledBy_kind (e : Entity) (v : Verdict) : (e.settledBy v).kind = e.kind := by
  cases v <;> rfl

variable {σ : Type} [Outside σ]

def namesakes (e : Entity) (w : World σ) : List Row :=
  w.rowsFor e.nodesQuery

def afterLookup (e : Entity) (w : World σ) : World σ :=
  (outcome (Job.askOrNone e.nodesQuery) w).2

theorem outcome_lookup (e : Entity) (w : World σ) :
    outcome (Job.askOrNone e.nodesQuery) w = (.ok (e.namesakes w), e.afterLookup w) :=
  Prod.ext (Job.outcome_askOrNone e.nodesQuery w) rfl

def resolutionCall (model : Model) (e : Entity) (candidates : List Candidate) : ModelCall :=
  { model, prompt := .plain (e.question candidates), shape := some "EntityResolution" }

/-- What a model says of the candidates, if it answers in the shape that was asked for. -/
def judgement (model : Model) (e : Entity) (candidates : List Candidate) (w : World σ) :
    Option Resolution :=
  match (Outside.model (e.resolutionCall model candidates) w.outside).1 with
  | .object v => (Resolution.decode v).toOption
  | _ => none

private theorem resolve_returns {model : Model} {e : Entity} {candidates : List Candidate}
    {answer : Option Resolution} {w w' : World σ}
    (h : Returns (e.resolve model candidates) w answer w') :
    answer = e.judgement model candidates w := by
  unfold resolve Job.consultShaped at h
  change Returns (Job.recover (Job.consult (e.resolutionCall model candidates) >>= _) _) w answer w' at h
  unfold Returns at h
  rw [Job.outcome_recover, Job.outcome_bind, Job.outcome_consult] at h
  unfold judgement
  cases hreply : (Outside.model (e.resolutionCall model candidates) w.outside).1 with
  | content v =>
    rw [hreply] at h
    exact (Except.ok.inj (Prod.mk.inj h).1).symm
  | object v =>
    rw [hreply] at h
    dsimp only at h ⊢
    rw [Job.outcome_bind, Job.outcome_lift] at h
    cases hdecoded : Resolution.decode v with
    | ok r =>
      rw [hdecoded] at h
      exact (Except.ok.inj (Prod.mk.inj h).1).symm
    | error why =>
      rw [hdecoded] at h
      dsimp only at h
      split at h
      · exact (Except.ok.inj (Prod.mk.inj h).1).symm
      · cases (Prod.mk.inj h).1
  | failed why =>
    rw [hreply] at h
    exact (Except.ok.inj (Prod.mk.inj h).1).symm
  | interrupted =>
    rw [hreply] at h
    cases (Prod.mk.inj h).1

def verdict (model : Model) (e : Entity) (w : World σ) : Verdict :=
  match (e.namesakes w).mapM e.candidate with
  | .error _ => .unmatched
  | .ok candidates =>
    match best? candidates with
    | none => .unmatched
    | some best =>
      if isCertain best.score then .certain best
      else if isLikely best.score then
        match e.judgement model candidates (e.afterLookup w) with
        | some r => if r.isMatch then .resolved r else .unmatched
        | none => .unmatched
      else .unmatched

/-- A grounding that returns has read all rows, and gives the entity as its verdict settles it. -/
theorem ground_returns {model : Model} {e g : Entity} {w w' : World σ}
    (h : Returns (e.ground model) w g w') :
    (∃ candidates, (e.namesakes w).mapM e.candidate = .ok candidates) ∧
      g = e.settledBy (e.verdict model w) := by
  unfold ground at h
  change Returns (Job.askOrNone e.nodesQuery >>= _) w g w' at h
  obtain ⟨rows, w₁, hrows, h⟩ := Job.returns_bind.mp h
  obtain ⟨rfl, rfl⟩ : rows = e.namesakes w ∧ w₁ = e.afterLookup w := by
    have := hrows.symm.trans (e.outcome_lookup w)
    simpa using this
  obtain ⟨candidates, w₂, hread, h⟩ := Job.returns_bind.mp h
  obtain ⟨hcandidates, rfl⟩ := Job.returns_lift.mp hread
  change (e.namesakes w).mapM e.candidate = .ok candidates at hcandidates
  refine ⟨⟨candidates, hcandidates⟩, ?_⟩
  unfold verdict
  rw [hcandidates]
  dsimp only
  cases hbest : best? candidates with
  | none =>
    rw [hbest] at h
    exact (Job.returns_pure.mp h).1.symm
  | some best =>
    rw [hbest] at h
    dsimp only at h ⊢
    by_cases hcertain : isCertain best.score = true
    · rw [if_pos hcertain] at h ⊢
      exact (Job.returns_pure.mp h).1.symm
    · rw [if_neg hcertain] at h ⊢
      by_cases hlikely : isLikely best.score = true
      · rw [if_pos hlikely] at h ⊢
        obtain ⟨answer, w₃, hanswer, h⟩ := Job.returns_bind.mp h
        have hjudged : answer = e.judgement model candidates (e.afterLookup w) :=
          resolve_returns hanswer
        rw [← hjudged]
        cases answer with
        | none => exact (Job.returns_pure.mp h).1.symm
        | some r =>
          dsimp only at h ⊢
          by_cases hmatch : r.isMatch = true
          · rw [if_pos hmatch] at h ⊢
            exact (Job.returns_pure.mp h).1.symm
          · rw [if_neg hmatch] at h ⊢
            exact (Job.returns_pure.mp h).1.symm
      · rw [if_neg hlikely] at h ⊢
        exact (Job.returns_pure.mp h).1.symm

theorem consultations_afterLookup (e : Entity) (w : World σ) :
    (e.afterLookup w).trace.consultations = w.trace.consultations :=
  Job.consultations_askOrNone e.nodesQuery w

private theorem world_resolve (model : Model) (e : Entity) (candidates : List Candidate) (w : World σ) :
    (outcome (e.resolve model candidates) w).2 = w.consulting (e.resolutionCall model candidates) := by
  unfold resolve Job.consultShaped
  change (outcome (Job.recover (Job.consult (e.resolutionCall model candidates) >>= _) _) w).2 = _
  rw [Job.outcome_recover, Job.outcome_bind, Job.outcome_consult]
  cases (Outside.model (e.resolutionCall model candidates) w.outside).1 with
  | object v =>
    dsimp only
    rw [Job.outcome_bind, Job.outcome_lift]
    cases Resolution.decode v with
    | ok r => rfl
    | error why =>
      dsimp only
      split <;> rfl
  | _ => rfl

/-- Whatever it comes to, a grounding looks the entity up, and then calls a model once or not at all. -/
theorem world_ground (model : Model) (e : Entity) (w : World σ) :
    (outcome (e.ground model) w).2 = e.afterLookup w ∨ ∃ candidates,
      (outcome (e.ground model) w).2 =
        (e.afterLookup w).consulting (e.resolutionCall model candidates) := by
  unfold ground
  change (outcome (Job.askOrNone e.nodesQuery >>= _) w).2 = _ ∨ ∃ _, (outcome (Job.askOrNone e.nodesQuery >>= _) w).2 = _
  rw [Job.outcome_bind, outcome_lookup]
  dsimp only
  rw [Job.outcome_bind, Job.outcome_lift]
  cases (e.namesakes w).mapM e.ungrounded.candidate with
  | error why => exact .inl rfl
  | ok candidates =>
    dsimp only
    cases best? candidates with
    | none => exact .inl rfl
    | some best =>
      dsimp only
      split
      · exact .inl rfl
      · split
        · refine .inr ⟨candidates, ?_⟩
          rw [Job.outcome_bind]
          have hworld := world_resolve model e candidates (e.afterLookup w)
          change (outcome (e.ungrounded.resolve model candidates) (e.afterLookup w)).2 = _ at hworld
          generalize outcome (e.ungrounded.resolve model candidates) (e.afterLookup w) = result
            at hworld ⊢
          obtain ⟨r, w₁⟩ := result
          cases r with
          | error why => exact hworld
          | ok answer =>
            cases answer with
            | none => exact hworld
            | some r =>
              dsimp only at hworld ⊢
              split <;> exact hworld
        · exact .inl rfl

end Entity

end ThreatAtlas
