import ThreatAtlas.Proofs.Report.StepNumbers

/-!
# Which indicators are added

Completing a report leaves its steps as they are and adds, if there are any, the first indicators of each
cleaned value that the report lacks. Afterwards it lacks none of them, so that completing it again with
the same indicators does nothing.
-/

namespace ThreatAtlas.Report

/-- The indicators whose cleaned value is that of no entity of the report and of no indicator before
them. -/
def omitted (r : Report) (indicators : List Entity) : List Entity :=
  (indicators.zipIdx.filter fun p => (r.entities ++ indicators.take p.2).all
    fun e => Indicator.clean e.value != Indicator.clean p.1.value).map Prod.fst

private theorem unmentioned_concat (known : List String) (es : List Entity) (e : Entity) :
    unmentioned known (es ++ [e]) = unmentioned known es ++
      if Indicator.clean e.value ∈ known ∨ ∃ e' ∈ es, Indicator.clean e'.value = Indicator.clean e.value
      then [] else [e] := by
  induction es generalizing known with
  | nil => simp [unmentioned]
  | cons first es ih =>
    rw [List.cons_append, unmentioned, unmentioned]
    by_cases hknown : known.contains (Indicator.clean first.value) = true
    · -- the first one, which is known already, is no reason of its own to leave out the last
      have hsame : (Indicator.clean e.value ∈ known ∨
          ∃ e' ∈ first :: es, Indicator.clean e'.value = Indicator.clean e.value) ↔
          Indicator.clean e.value ∈ known ∨
            ∃ e' ∈ es, Indicator.clean e'.value = Indicator.clean e.value := by
        rw [List.exists_mem_cons_iff]
        have hfirst : Indicator.clean first.value ∈ known := List.contains_iff_mem.mp hknown
        constructor
        · rintro (h | h | h)
          · exact .inl h
          · exact .inl (h ▸ hfirst)
          · exact .inr h
        · rintro (h | h)
          · exact .inl h
          · exact .inr (.inr h)
      rw [if_pos hknown, if_pos hknown, ih, if_congr hsame rfl rfl]
    · have hsame : (Indicator.clean e.value ∈ known ∨
          ∃ e' ∈ first :: es, Indicator.clean e'.value = Indicator.clean e.value) ↔
          Indicator.clean e.value ∈ Indicator.clean first.value :: known ∨
            ∃ e' ∈ es, Indicator.clean e'.value = Indicator.clean e.value := by
        rw [List.exists_mem_cons_iff, List.mem_cons, eq_comm (a := Indicator.clean e.value)]
        tauto
      rw [if_neg hknown, if_neg hknown, ih, if_congr hsame rfl rfl, List.cons_append]

private theorem omitted_concat (r : Report) (indicators : List Entity) (i : Entity) :
    r.omitted (indicators ++ [i]) = r.omitted indicators ++
      if Indicator.clean i.value ∈ r.entities.map (Indicator.clean ·.value) ∨
        ∃ i' ∈ indicators, Indicator.clean i'.value = Indicator.clean i.value then [] else [i] := by
  unfold omitted
  rw [List.zipIdx_append, List.filter_append, List.map_append]
  congr 2
  · -- those before the last have the same ones before them
    apply List.filter_congr
    intro p hp
    rw [List.take_append_of_le_length (List.mem_zipIdx' hp).1.le]
  · have hbefore : (indicators ++ [i]).take (0 + indicators.length) = indicators := by
      rw [Nat.zero_add, List.take_left]
    rw [List.zipIdx_singleton, List.filter_singleton, cond_eq_ite, hbefore]
    by_cases hseen : Indicator.clean i.value ∈ r.entities.map (Indicator.clean ·.value) ∨
        ∃ i' ∈ indicators, Indicator.clean i'.value = Indicator.clean i.value
    · rw [if_pos hseen, if_neg]
      · rfl
      rw [List.all_eq_true]
      intro hnone
      rcases hseen with hmem | ⟨i', hi', heq⟩
      · obtain ⟨e, he, heq⟩ := List.mem_map.mp hmem
        exact bne_iff_ne.mp (hnone e (List.mem_append_left _ he)) heq
      · exact bne_iff_ne.mp (hnone i' (List.mem_append_right _ hi')) heq
    · rw [if_neg hseen, if_pos]
      · rfl
      rw [List.all_eq_true]
      intro e he
      rw [bne_iff_ne]
      intro heq
      rcases List.mem_append.mp he with he | he
      · exact hseen (.inl (List.mem_map.mpr ⟨e, he, heq⟩))
      · exact hseen (.inr ⟨e, he, heq⟩)

private theorem unmentioned_eq_omitted (r : Report) (indicators : List Entity) :
    unmentioned (r.entities.map (Indicator.clean ·.value)) indicators = r.omitted indicators := by
  induction indicators using List.reverseRecOn with
  | nil => rfl
  | append_singleton indicators i ih => rw [unmentioned_concat, omitted_concat, ih]

private theorem omits_iff_omitted {r : Report} {indicators : List Entity} :
    r.Omits indicators ↔ r.omitted indicators ≠ [] := by
  rw [omits_iff, unmentioned_eq_omitted]

private theorem addObserved_omitted {r : Report} {indicators : List Entity} (h : r.Omits indicators) :
    r.addObserved indicators =
      { r with steps := r.steps ++ [observedStep (r.steps.length + 1) (r.omitted indicators)] } := by
  unfold addObserved
  rw [unmentioned_eq_omitted]
  apply if_neg
  rw [List.isEmpty_iff]
  exact omits_iff_omitted.mp h

private theorem not_omits_addObserved (r : Report) (indicators : List Entity) :
    ¬ (r.addObserved indicators).Omits indicators := by
  rintro ⟨i, hi, hnone⟩
  obtain ⟨e, he, heq⟩ := r.addObserved_mentions hi
  exact hnone e he heq

/-- Completing a report adds one step, with the first indicators of each cleaned value that it lacks,
exactly when it lacks some; then every indicator is mentioned, and completing it again does nothing. -/
theorem addObserved_adds_omitted (r : Report) (indicators : List Entity) :
    (r.Omits indicators → r.addObserved indicators =
      { r with steps := r.steps ++ [observedStep (r.steps.length + 1) (r.omitted indicators)] }) ∧
    (¬ r.Omits indicators → r.addObserved indicators = r) ∧
    (∀ i ∈ indicators, ∃ e ∈ (r.addObserved indicators).entities,
      Indicator.clean e.value = Indicator.clean i.value) ∧
    (r.addObserved indicators).addObserved indicators = r.addObserved indicators :=
  ⟨addObserved_omitted, addObserved_of_not_omits, fun _ hi => r.addObserved_mentions hi,
    addObserved_of_not_omits (r.not_omits_addObserved indicators)⟩

/-- Of two spellings of an address the first is added, and one that is mentioned is not. -/
theorem addObserved_adds_first_spelling :
    let mention (value : String) : Entity := { kind := .ip, value }
    let r : Report := { title := "T", category := .incident, summary := "S",
                        steps := [⟨1, "P", "D", [mention "9(.)9.9.9"]⟩] }
    let indicators := [mention "9.9.9[.]9", mention "1[.]2.3.4", mention "1.2.3.4"]
    (∃ added, added.map Entity.value = ["1[.]2.3.4"] ∧
      r.addObserved indicators = { r with steps := r.steps ++ [observedStep 2 added] }) ∧
      (r.addObserved indicators).addObserved indicators = r.addObserved indicators := by
  intro mention r indicators
  have hvalues : (r.omitted indicators).map Entity.value = ["1[.]2.3.4"] := by decide +kernel
  obtain ⟨hadds, -, -, hagain⟩ := addObserved_adds_omitted r indicators
  have homits : r.Omits indicators := by
    rw [omits_iff_omitted]
    intro hnone
    rw [hnone] at hvalues
    cases hvalues
  exact ⟨⟨r.omitted indicators, hvalues, hadds homits⟩, hagain⟩

end ThreatAtlas.Report
