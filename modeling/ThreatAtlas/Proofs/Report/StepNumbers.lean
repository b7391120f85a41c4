import ThreatAtlas.Proofs.Report.Processing

/-!
# Step numbers

The graph tells the steps of a report apart by their numbers, which the model chose. The step of observed
indicators is numbered by the count of the steps before it, and this number may be taken: a model need
not count from one.
-/

namespace ThreatAtlas.Report

open Job (Returns)

def numbers (r : Report) : List Int :=
  r.steps.map Step.number

def stepIds (r : Report) : List String :=
  r.steps.map fun s => r.title ++ "_" ++ toString s.number

/-- The cleaned value of some indicator is that of no entity of the report. -/
def Omits (r : Report) (indicators : List Entity) : Prop :=
  ∃ i ∈ indicators, ∀ e ∈ r.entities, Indicator.clean e.value ≠ Indicator.clean i.value

private theorem stepIds_nodup_iff_numbers (r : Report) : r.stepIds.Nodup ↔ r.numbers.Nodup := by
  have hids : r.stepIds = r.numbers.map fun n => r.title ++ "_" ++ toString n := by
    simp only [stepIds, numbers, List.map_map, Function.comp_def]
  rw [hids]
  apply List.nodup_map_iff
  intro m n h
  exact Int.repr_injective ((String.append_right_inj _).mp h)

private theorem unmentioned_eq_nil_iff {known : List String} {es : List Entity} :
    unmentioned known es = [] ↔ ∀ e ∈ es, Indicator.clean e.value ∈ known := by
  induction es with
  | nil => simp [unmentioned]
  | cons e es ih =>
    rw [unmentioned, List.forall_mem_cons]
    by_cases hknown : Indicator.clean e.value ∈ known
    · simpa [hknown] using ih
    · simp [hknown]

variable {indicators : List Entity} {r : Report}

/-- A step is added exactly when the report omits something. -/
theorem omits_iff : r.Omits indicators ↔
    unmentioned (r.entities.map (Indicator.clean ·.value)) indicators ≠ [] := by
  rw [Ne, unmentioned_eq_nil_iff]
  simp [Omits]

theorem addObserved_of_omits (h : r.Omits indicators) : ∃ entities, r.addObserved indicators =
      { r with steps := r.steps ++ [observedStep (r.steps.length + 1) entities] } := by
  refine ⟨unmentioned (r.entities.map (Indicator.clean ·.value)) indicators, ?_⟩
  unfold addObserved
  apply if_neg
  rw [List.isEmpty_iff]
  exact omits_iff.mp h

theorem addObserved_of_not_omits (h : ¬ r.Omits indicators) : r.addObserved indicators = r := by
  unfold addObserved
  apply if_pos
  rw [List.isEmpty_iff]
  exact not_not.mp (mt omits_iff.mpr h)

private theorem addObserved_numbers_nodup_iff (r : Report) (indicators : List Entity) :
    (r.addObserved indicators).numbers.Nodup ↔ r.numbers.Nodup ∧
      (r.Omits indicators → (r.steps.length + 1 : Int) ∉ r.numbers) := by
  by_cases homits : r.Omits indicators
  · obtain ⟨entities, hadded⟩ := addObserved_of_omits homits
    have hnumbers : (r.addObserved indicators).numbers =
        r.numbers ++ [(r.steps.length + 1 : Int)] := by
      rw [hadded, numbers, List.map_append]
      rfl
    rw [hnumbers, ← List.concat_eq_append, List.nodup_concat]
    constructor
    · intro h
      obtain ⟨hfree, hnodup⟩ := h
      exact ⟨hnodup, fun _ => hfree⟩
    · intro h
      obtain ⟨hnodup, hfree⟩ := h
      exact ⟨hfree homits, hnodup⟩
  · rw [addObserved_of_not_omits homits]
    exact ⟨fun hnodup => ⟨hnodup, fun h => absurd h homits⟩, And.left⟩

section

variable {σ : Type} [Outside σ]

private theorem numbers_of_settled {model : Model} {ss ss' : List Step}
    (h : List.Forall₂ (Step.Settled σ model) ss ss') :
    ss'.map Step.number = ss.map Step.number := by
  induction h with
  | nil => rfl
  | cons hsettled _ ih => rw [List.map_cons, List.map_cons, hsettled.number, ih]

/-- The added step takes the number after the count of the steps, so the steps of a completed report, and
of a processed one, have ids of their own exactly when the numbers were distinct and that one was free. -/
theorem stepIds_distinct_iff :
    (∀ (r : Report) (indicators : List Entity),
      (r.Omits indicators → ∃ entities, r.addObserved indicators =
        { r with steps := r.steps ++ [observedStep (r.steps.length + 1) entities] }) ∧
      (¬ r.Omits indicators → r.addObserved indicators = r) ∧
      ((r.addObserved indicators).stepIds.Nodup ↔ r.numbers.Nodup ∧
        (r.Omits indicators → (r.steps.length + 1 : Int) ∉ r.numbers))) ∧
    ∀ (s : Settings) (text : String) (r : Report) (w w' : World σ),
      Returns (process s text) w r w' →
      ∃ drafted w₁, Returns (read (.ofSettings s (.int 0)) text) w (some drafted) w₁ ∧
        (r.stepIds.Nodup ↔ drafted.numbers.Nodup ∧
          (drafted.Omits (Indicator.extract text) →
            (drafted.steps.length + 1 : Int) ∉ drafted.numbers)) := by
  constructor
  · intro r indicators
    refine ⟨addObserved_of_omits, addObserved_of_not_omits, ?_⟩
    rw [stepIds_nodup_iff_numbers, addObserved_numbers_nodup_iff]
  · intro s text r w w' h
    obtain ⟨drafted, w₁, ss, hread, hsettled, rfl⟩ := process_returns h
    refine ⟨drafted, w₁, hread, ?_⟩
    rw [stepIds_nodup_iff_numbers, ← addObserved_numbers_nodup_iff]
    rw [numbers, numbers_of_settled hsettled, ← numbers]

end

/-- A model that begins at two gives distinct numbers, and the step of indicators takes the second. -/
theorem stepIds_clash_of_two :
    let reply := Value.record [("title", "T"), ("category", "Incident"), ("summary", "S"),
      ("attack_flow", .list [.record [("step", .int 2), ("phase", "P"), ("description", "D")]])]
    let w : World Steady := { outside := ⟨.rows [], .object reply⟩ }
    ∃ drafted w₁ r w₂, Returns (read (.ofSettings {} (.int 0)) "c2: 1.2.3.4") w (some drafted) w₁ ∧
      Returns (process {} "c2: 1.2.3.4") w r w₂ ∧ drafted.numbers.Nodup ∧ ¬ r.stepIds.Nodup := by
  intro reply w
  obtain ⟨r, w₂, hprocess⟩ := Job.exists_returns_iff.mpr
    (show (Job.outcome (process {} "c2: 1.2.3.4") w).1.isOk = true by decide +kernel)
  obtain ⟨drafted, w₁, hread, hdistinct⟩ := stepIds_distinct_iff.2 {} "c2: 1.2.3.4" r w w₂ hprocess
  have hdraft : (Job.outcome (read (.ofSettings {} (.int 0)) "c2: 1.2.3.4") w).1.toOption.map
      (Option.map fun d => (d.numbers, d.entities.map Entity.value)) = some (some ([2], [])) := by
    decide +kernel
  rw [show Job.outcome _ _ = _ from hread] at hdraft
  simp only [Except.toOption, Option.map_some, Option.some.injEq, Prod.mk.injEq,
    List.map_eq_nil_iff] at hdraft
  obtain ⟨hnumbers, hentities⟩ := hdraft
  have hlength : drafted.steps.length = 1 := by
    simpa [numbers] using congrArg List.length hnumbers
  have homits : drafted.Omits (Indicator.extract "c2: 1.2.3.4") := by
    have hfound : (Indicator.extract "c2: 1.2.3.4").map Entity.value = ["1.2.3.4"] := by
      decide +kernel
    obtain ⟨i, hi, -⟩ := List.mem_map.mp (hfound ▸ List.mem_singleton_self "1.2.3.4")
    exact ⟨i, hi, by simp [hentities]⟩
  refine ⟨drafted, w₁, r, w₂, hread, hprocess, by simp [hnumbers], ?_⟩
  intro hnodup
  apply (hdistinct.mp hnodup).2 homits
  rw [hnumbers, hlength]
  decide

end ThreatAtlas.Report
