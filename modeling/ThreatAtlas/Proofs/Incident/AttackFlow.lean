import ThreatAtlas.Proofs.Incident.Ingestion
import ThreatAtlas.Proofs.Json.Scalars
import ThreatAtlas.Proofs.Text.Replace
import ThreatAtlas.Proofs.Value.Sort

/-!
# The chain of steps

The steps of an incident are brought in by rising number. The incident is linked to the first of them and
each of the others to the one before it, whatever else the steps are linked to. A step is linked to itself
only where two have the same number; steps of incidents that differ in their ids have different ids.
-/

namespace ThreatAtlas.Incident

open Job (Returns)

/-! Steps -/

def numberOf (step : Value) : ℤ :=
  match step.item "step" with
  | .ok (.int n) => n
  | _ => 0

def isNumbered (step : Value) : Bool :=
  match step.item "step" with
  | .ok (.int _) => true
  | _ => false

def idOfStep (incidentId step : Value) : String :=
  stepId incidentId (.int (numberOf step))

variable {step id incidentId incident : Value} {steps sorted : List Value} {qs : List Query}

private theorem item_of_isNumbered (h : isNumbered step = true) :
    ∃ fs, step = .record fs ∧ fs.lookup "step" = some (.int (numberOf step)) := by
  cases step with
  | record fs =>
    refine ⟨fs, rfl, ?_⟩
    unfold isNumbered at h
    unfold numberOf
    rw [← Value.item_eq_ok_iff]
    cases hitem : (Value.record fs).item "step" with
    | error e =>
      rw [hitem] at h
      cases h
    | ok v =>
      rw [hitem] at h
      cases v with
      | int n => rfl
      | _ => cases h
  | _ => cases h

def noLater (s t : Value) : Bool :=
  numberOf s ≤ numberOf t

private theorem sortSteps_of_isNumbered (h : ∀ s ∈ steps, isNumbered s = true) :
    sortSteps steps = .ok (steps.mergeSort noLater) := by
  have hkeys : (steps.mapM fun s => do return (← s.getD "step" (.int 0), s)) =
      .ok ((steps.map fun s => (numberOf s, s)).map fun a => (.int a.1, a.2)) := by
    rw [mapM_eq_ok, List.map_map, List.forall₂_map_right_iff, List.forall₂_same]
    intro s hs
    obtain ⟨fs, rfl, hstep⟩ := item_of_isNumbered (h s hs)
    change Except.ok ((fs.lookup "step").getD (.int 0), Value.record fs) = _
    rw [hstep]
    rfl
  unfold sortSteps
  rw [hkeys]
  change Value.sortByKey _ = _
  rw [Value.sortByKey_whole, List.map_mergeSort (s := noLater), List.map_map]
  · simp [Function.comp_def]
  · intro a ha b hb
    obtain ⟨s, -, rfl⟩ := List.mem_map.mp ha
    obtain ⟨t, -, rfl⟩ := List.mem_map.mp hb
    rfl

/-! Ids of steps -/

def stepQuery (incidentId step : Value) : Except Failure Query := do
  return ⟨Queries.step, ← stepParams (idOfStep incidentId step) step⟩

def linkTo (incidentId : Value) (previous : Option String) (id : String) : Query :=
  match previous with
  | none => ⟨Queries.firstLink, [("inc_id", incidentId), ("step_id", .text id)]⟩
  | some before => ⟨Queries.nextLink, [("prev_id", .text before), ("curr_id", .text id)]⟩

/-- The links of steps with these ids to what is before them. -/
def links (incidentId : Value) : Option String → List String → List Query
  | _, [] => []
  | previous, id :: rest => linkTo incidentId previous id :: links incidentId (some id) rest

def isCreation (q : Query) : Bool :=
  q.text == Queries.step

def isLink (q : Query) : Bool :=
  q.text == Queries.firstLink || q.text == Queries.nextLink

/-- The queries bring in the steps in this order and link each to what is before it. -/
structure Chained (incidentId : Value) (previous : Option String) (steps : List Value)
    (qs : List Query) : Prop where
  created : steps.mapM (stepQuery incidentId) = .ok (qs.filter isCreation)
  linked : qs.filter isLink = links incidentId previous (steps.map (idOfStep incidentId))

private theorem texts_of_links :
    isLink ⟨Queries.firstLink, []⟩ = true ∧ isLink ⟨Queries.nextLink, []⟩ = true ∧
      isCreation ⟨Queries.firstLink, []⟩ = false ∧ isCreation ⟨Queries.nextLink, []⟩ = false ∧
      isLink ⟨Queries.step, []⟩ = false ∧ Queries.nextLink ≠ Queries.firstLink := by
  simp [isCreation, isLink, Queries.step, Queries.firstLink, Queries.nextLink]

private theorem isCreation_of_stepQuery {q : Query} (h : stepQuery incidentId step = .ok q) :
    isCreation q = true ∧ isLink q = false := by
  obtain ⟨params, -, h⟩ := bind_eq_ok.mp h
  rw [← pure_eq_ok.mp h]
  exact ⟨beq_self_eq_true _, texts_of_links.2.2.2.2.1⟩

private theorem isLink_linkTo (incidentId : Value) (previous : Option String) (id : String) :
    isLink (linkTo incidentId previous id) = true ∧ isCreation (linkTo incidentId previous id) = false := by
  obtain ⟨hfirst, hnext, hfirstNot, hnextNot, -⟩ := texts_of_links
  cases previous with
  | none => exact ⟨hfirst, hfirstNot⟩
  | some before => exact ⟨hnext, hnextNot⟩

theorem Chained.cons {created : Query} (h : Chained incidentId (some (idOfStep incidentId step)) steps qs)
    (hcreated : stepQuery incidentId step = .ok created) (previous : Option String) :
    Chained incidentId previous (step :: steps)
      (created :: linkTo incidentId previous (idOfStep incidentId step) :: qs) := by
  obtain ⟨hcreation, hno⟩ := isCreation_of_stepQuery hcreated
  obtain ⟨hlink, hnot⟩ := isLink_linkTo incidentId previous (idOfStep incidentId step)
  constructor
  · rw [List.mapM_cons, hcreated, h.created, List.filter_cons_of_pos hcreation,
      List.filter_cons_of_neg (Bool.eq_false_iff.mp hnot)]
    rfl
  · rw [List.filter_cons_of_neg (Bool.eq_false_iff.mp hno), List.filter_cons_of_pos hlink, h.linked]
    rfl

structure Described (incident id : Value) (steps : List Value) : Prop where
  id : incident.item "id" = .ok id
  title : ∃ title, incident.item "title" = .ok title
  victim : ∃ victim organization, incident.item "victim" = .ok victim ∧
    victim.item "organization" = .ok organization
  attribution : ∃ attribution, incident.item "attribution" = .ok (.record attribution)
  flow : incident.getD "attack_flow" (.list []) = .ok (.list steps)

private theorem exists_fields_of_item {v w : Value} {name : String} (h : v.item name = .ok w) :
    ∃ fs, v = .record fs := by
  cases v with
  | record fs => exact ⟨fs, rfl⟩
  | _ => cases h

private theorem Described.coreParams (h : Described incident id steps) :
    ∃ params, coreParams incident = .ok params := by
  obtain ⟨fs, rfl⟩ := exists_fields_of_item h.id
  obtain ⟨title, htitle⟩ := h.title
  obtain ⟨victim, organization, hvictim, horganization⟩ := h.victim
  obtain ⟨vs, rfl⟩ := exists_fields_of_item horganization
  exact ⟨_, bind_eq_ok.mpr ⟨id, h.id, bind_eq_ok.mpr ⟨title, htitle, bind_eq_ok.mpr ⟨_, rfl,
    bind_eq_ok.mpr ⟨_, rfl, bind_eq_ok.mpr ⟨_, hvictim, bind_eq_ok.mpr ⟨_, horganization, rfl⟩⟩⟩⟩⟩⟩⟩

theorem Described.sortFlow (h : Described incident id steps) (hnumbered : ∀ s ∈ steps, isNumbered s = true) :
    ∃ i, sortFlow incident = .ok (i, steps.mergeSort noLater) := by
  obtain ⟨fs, rfl⟩ := exists_fields_of_item h.id
  unfold Incident.sortFlow
  rw [h.flow]
  change ∃ i, (sortSteps steps >>= _) = _
  rw [sortSteps_of_isNumbered hnumbered]
  by_cases hhas : Fields.has fs "attack_flow" = true
  · exact ⟨_, if_pos hhas⟩
  · exact ⟨_, if_neg hhas⟩

def firstLink (incidentId step : Value) : Query :=
  linkTo incidentId none (idOfStep incidentId step)

def nextLink (incidentId before step : Value) : Query :=
  linkTo incidentId (some (idOfStep incidentId before)) (idOfStep incidentId step)

private theorem filter_links {text : String} (h : isLink ⟨text, []⟩ = true) (qs : List Query) :
    qs.filter (·.text == text) = (qs.filter isLink).filter (·.text == text) := by
  rw [List.filter_filter]
  apply List.filter_congr
  intro q _
  by_cases htext : q.text = text
  · have hlink : isLink q = isLink ⟨text, []⟩ := by
      unfold isLink
      rw [htext]
    rw [hlink, h, Bool.and_true]
  · rw [beq_false_of_ne htext, Bool.false_and]

variable {σ : Type} [Outside σ]

def breach (steps : List Value) : Value :=
  .record [("id", .text "i1"), ("title", .text "T"), ("victim", .record [("organization", .text "O")]),
    ("attribution", .record []), ("attack_flow", .list steps)]

end ThreatAtlas.Incident
