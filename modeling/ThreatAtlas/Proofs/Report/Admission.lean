import ThreatAtlas.Proofs.Indicator.Ports
import ThreatAtlas.Proofs.Report.Processing

/-!
# The check before cleaning

Entities are checked before they are cleaned and again afterwards. The first check lets through all that
the second one would, so that reports are processed alike without it.
-/

namespace ThreatAtlas

namespace Indicator

variable {p : PortedAddress} {s : String}

theorem PortedAddress.notMem_written (p : PortedAddress) {c : Char} (hdecimal : Text.isDecimal c = false)
    (hmark : c ∉ ['.', ':', ',']) : c ∉ p.written.toList := by
  simp only [List.mem_cons, List.not_mem_nil, or_false, not_or] at hmark
  obtain ⟨hdot, hcolon, hcomma⟩ := hmark
  rw [p.toList_written, List.mem_append, List.mem_cons]
  rintro (h | h | h)
  · exact p.notMem_ip hdecimal hdot h
  · exact hcolon h
  · exact p.notMem_list hdecimal hcomma h

private theorem strip_of_writtenAs (h : p.WrittenAs s) : Text.strip s = p.written := by
  have hblank (c : Char) (hc : c ∈ p.written.toList) : Text.isBlank c = false := by
    by_contra hblank
    refine p.notMem_written ?_ ?_ hc
    · by_contra hdecimal
      exact hblank (Text.isBlank_of_isDecimal (by simpa using hdecimal))
    · intro hmark
      simp only [List.mem_cons, List.not_mem_nil, or_false] at hmark
      rcases hmark with rfl | rfl | rfl <;> exact hblank (by decide)
  obtain ⟨feed, hs, hfeed⟩ : ∃ feed, s.toList = [] ++ p.written.toList ++ feed ∧
      ∀ c ∈ feed, Text.isBlank c = true := by
    rcases h with rfl | rfl
    · exact ⟨[], by simp, by simp⟩
    · exact ⟨['\n'], by simp, by simp; decide⟩
  rw [Text.strip, hs, Text.stripChars_padded (List.forall_mem_nil _) hfeed (Text.bare_of_forall hblank),
    String.ofList_toList]

theorem PortedAddress.isPlaceholder_written (p : PortedAddress) : isPlaceholder p.written = false := by
  rw [Bool.eq_false_iff]
  intro hplace
  simp only [isPlaceholder, Bool.or_eq_true, Bool.and_eq_true, Text.startsWith, Text.contains,
    List.isPrefixOf_iff_prefix, hasBlock_iff] at hplace
  rcases hplace with ((⟨hopen, -⟩ | ⟨hopen, -⟩) | ⟨a, b, hpart⟩) | ⟨a, b, hpart⟩
  · exact p.notMem_written (c := '\x7b') (by decide) (by decide) (hopen.subset (by decide))
  · exact p.notMem_written (c := '<') (by decide) (by decide) (hopen.subset (by decide))
  · exact p.notMem_written (c := 'I') (by decide) (by decide) (by rw [hpart]; simp)
  · exact p.notMem_written (c := 'T') (by decide) (by decide) (by rw [hpart]; simp)

private theorem isValid_of_writtenAs (h : p.WrittenAs s) : isValid s = true := by
  have hlength : 3 ≤ p.written.length := by
    have haddress : 0 < p.ip.toList.length := by
      have hdigits := List.length_pos_iff.mpr p.address.first.nonempty
      rw [p.toList_ip, Address.chars, List.length_append]
      omega
    have hports : 0 < p.list.toList.length :=
      List.length_pos_iff.mpr fun hnil => p.filled (String.toList_eq_nil_iff.mp hnil)
    rw [← String.length_toList, p.toList_written, List.length_append, List.length_cons]
    omega
  have hstock : Text.lower p.written ∉ stockWords := by
    have hwords : ∀ w ∈ stockWords, ':' ∉ w.toList := by decide
    intro hword
    refine hwords _ hword (mem_lower (by decide) (by decide) (by decide) ?_)
    simp [p.toList_written]
  simp [isValid, strip_of_writtenAs h, hlength, p.isPlaceholder_written, hstock]

end Indicator

theorem Entity.isValid_of_isValid_cleaned {e : Entity} (h : e.cleaned.isValid = true) : e.isValid = true := by
  apply Indicator.isValid_of_isValid_clean
  by_cases hported : ∃ p : Indicator.PortedAddress, p.WrittenAs (Indicator.clean e.value)
  · obtain ⟨p, hp⟩ := hported
    exact Indicator.isValid_of_writtenAs hp
  · rw [not_exists] at hported
    rwa [Entity.isValid, Entity.cleaned_value (Indicator.splitPorts?_of_not_writtenAs hported)] at h

namespace Report

variable {σ : Type} [Outside σ] {admits : Entity → Bool}

/-- Settles entities with `admits` in the place of the check before cleaning. -/
def settleAdmitted (admits : Entity → Bool) (model : Model) : List Entity → Job σ (List Entity)
  | [] => return []
  | e :: es => do
    if admits e && e.cleaned.isValid then
      let grounded ← e.cleaned.ground model
      return grounded :: (← settleAdmitted admits model es)
    else settleAdmitted admits model es

def settleStepsAdmitted (admits : Entity → Bool) (model : Model) : List Step → Job σ (List Step)
  | [] => return []
  | s :: ss => do
    let entities ← settleAdmitted admits model s.entities
    return { s with entities } :: (← settleStepsAdmitted admits model ss)

/-- Processes a text with `admits` in the place of the check before cleaning. -/
def processAdmitted (admits : Entity → Bool) (s : Settings) (text : String) : Job σ Report := do
  let model := Model.ofSettings s (.int 0)
  match ← read model text with
  | none => throw (.noMember Value.Kind.null.word "attack_flow")
  | some r =>
    let r := r.addObserved (Indicator.extract text)
    return { r with steps := ← settleStepsAdmitted admits model r.steps }

theorem settleAdmitted_eq (h : ∀ e : Entity, e.cleaned.isValid = true → admits e = true) (model : Model)
    (es : List Entity) : (settleAdmitted admits model es : Job σ _) = settle model es := by
  induction es with
  | nil => rfl
  | cons e es ih =>
    have hchecks : (admits e && e.cleaned.isValid) = (e.isValid && e.cleaned.isValid) := by
      cases hcleaned : e.cleaned.isValid with
      | false => rw [Bool.and_false, Bool.and_false]
      | true => rw [h e hcleaned, Entity.isValid_of_isValid_cleaned hcleaned]
    rw [settleAdmitted, settle, hchecks, ih]

theorem settleStepsAdmitted_eq (h : ∀ e : Entity, e.cleaned.isValid = true → admits e = true) (model : Model)
    (ss : List Step) : (settleStepsAdmitted admits model ss : Job σ _) = settleSteps model ss := by
  induction ss with
  | nil => rfl
  | cons s ss ih => rw [settleStepsAdmitted, settleSteps, settleAdmitted_eq h, ih]

theorem processAdmitted_eq (h : ∀ e : Entity, e.cleaned.isValid = true → admits e = true) (s : Settings)
    (text : String) : (processAdmitted admits s text : Job σ Report) = process s text := by
  refine bind_congr fun draft? => ?_
  cases draft? with
  | none => rfl
  | some r => exact congrArg (· >>= _) (settleStepsAdmitted_eq h _ _)

/-- No entity whose cleaned form is worth keeping is lost to the check before cleaning, and without that
check every text is processed in the same way, whatever the graph and the models answer. -/
theorem process_without_first_check :
    (∀ e : Entity, e.cleaned.isValid = true → e.isValid = true) ∧
      ∀ (s : Settings) (text : String),
        (processAdmitted Entity.isValid s text : Job σ Report) = process s text ∧
        (processAdmitted (fun _ => true) s text : Job σ Report) = process s text :=
  ⟨fun _ => Entity.isValid_of_isValid_cleaned, fun s text =>
    ⟨processAdmitted_eq (fun _ => Entity.isValid_of_isValid_cleaned) s text,
      processAdmitted_eq (fun _ _ => rfl) s text⟩⟩

/-- An address in brackets with a port behind it passes before and after it loses both. -/
theorem process_without_first_check_address :
    let e : Entity := { kind := .ip, value := "1[.]2.3.4[:]80" }
    e.cleaned.value = "1.2.3.4" ∧ e.cleaned.isValid = true ∧ e.isValid = true ∧
      (processAdmitted (fun _ => true) {} "c2: 1[.]2.3.4[:]80" : Job Steady Report) =
        process {} "c2: 1[.]2.3.4[:]80" := by
  intro e
  obtain ⟨hvalid, hprocess⟩ := process_without_first_check (σ := Steady)
  have hcleaned : e.cleaned.isValid = true := by decide +kernel
  exact ⟨by decide +kernel, hcleaned, hvalid e hcleaned, (hprocess {} _).2⟩

end Report

end ThreatAtlas
