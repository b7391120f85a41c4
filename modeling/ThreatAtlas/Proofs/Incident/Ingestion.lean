import ThreatAtlas.Incident.Ingestion
import ThreatAtlas.Proofs.Plan

/-!
# The plan of an incident

Bringing an incident in takes queries that follow from the incident alone. None of their answers is
looked at, so the incident counts as brought in unless the connection was lost under way.
-/

namespace ThreatAtlas.Incident

open Job (Returns Keeps)

variable {σ : Type} [Outside σ]

theorem ingest_keeps (incident : Value) : Keeps (ingest incident : Job σ Value) := by
  refine Job.keeps_bind (Job.keeps_lift _) fun title => ?_
  exact Job.keeps_bind (Job.keeps_say _) fun _ => Plan.keeps_run _

private theorem get_of_yields {incident i : Value} {qs : List Query} (h : (plan incident).Yields i qs)
    (name : String) : ∃ v, incident.get name = .ok v := by
  obtain ⟨params, _, _, hparams, -⟩ := Plan.yields_bind.mp h
  obtain ⟨id, hid, -⟩ := bind_eq_ok.mp (Plan.yields_lift.mp hparams).1
  cases incident with
  | record fs => exact ⟨_, rfl⟩
  | _ => cases hid

/-- Whether an incident counts as brought in is up to its plan and to the connection, not to what became
of its queries. -/
theorem ingest_returns_iff {incident i : Value} {w : World σ} :
    (∃ w', Returns (ingest incident) w i w') ↔ ∃ qs, (plan incident).Yields i qs ∧
      (w.connected = true → ∀ a ∈ answers qs w.outside, a.isLost = false) := by
  unfold ingest
  simp only [Job.returns_lift_bind, Job.returns_say_bind, Plan.run_returns_iff]
  constructor
  · intro h
    obtain ⟨w', title, -, qs, hplan, hall⟩ := h
    have hkept := Job.askAll_returns_iff.mp ⟨w', hall⟩
    exact ⟨qs, hplan, hkept⟩
  · intro h
    obtain ⟨qs, hplan, hkept⟩ := h
    obtain ⟨title, htitle⟩ := get_of_yields hplan "title"
    obtain ⟨w', hall⟩ := Job.askAll_returns_iff (w := w.printing _) |>.mpr hkept
    exact ⟨w', title, htitle, qs, hplan, hall⟩

end ThreatAtlas.Incident
