import ThreatAtlas.Proofs.Indicator.Agreement
import ThreatAtlas.Proofs.Pattern.Spelling
import ThreatAtlas.Proofs.Text.Case
import ThreatAtlas.Proofs.Text.Split

/-!
# Hosts that are left out

A host is left out when the name of a vendor stands anywhere in it, in any mixture of cases. No such name has
a dot, so it stands in one of the labels of the host: it may be the label, or a part of a longer one that
belongs to somebody else.
-/

namespace ThreatAtlas.Indicator

open Pattern (isLetterAnyCase)

private theorem valuesOf_domain_extract (text : String) :
    valuesOf .domain (extract text) = (host.findAll text).filter (!namesAny vendors ·) := by
  unfold extract
  simp

private theorem topDomains_lower :
    (topDomains.all fun domain => domain.toList.all Char.isLower) = true := by
  decide

private theorem isHostChar_or_dot_of_mayHold {c : Char} (h : host.mayHold c = true) :
    isHostChar c = true ∨ c = '.' := by
  rw [host, Pattern.mayHold_sequence] at h
  simp only [List.any_cons, List.any_nil, Bool.or_false, Bool.or_eq_true, Pattern.mayHold,
    Bool.false_eq_true, false_or] at h
  rcases h with hlabels | htop
  · simpa [labels, Pattern.mayHold, Pattern.char, Pattern.one] using hlabels
  · rw [Pattern.mayHold_firstOf, List.any_map, List.any_eq_true] at htop
    obtain ⟨domain, hdomain, hc⟩ := htop
    rw [Function.comp_apply, Pattern.mayHold_word, List.any_eq_true] at hc
    obtain ⟨letter, hletter, hany⟩ := hc
    have hlower : letter.isLower = true :=
      List.all_eq_true.mp (List.all_eq_true.mp topDomains_lower domain hdomain) letter hletter
    exact .inl (by simp [isHostChar, Pattern.isLetterAnyCase_of_anyCase hlower hany])

private theorem isHostChar_or_dot_of_mem_findAll {text m : String} (h : m ∈ host.findAll text) :
    ∀ c ∈ m.toList, isHostChar c = true ∨ c = '.' := by
  intro c hc
  obtain ⟨_, _, -, -, htakes⟩ := Pattern.mem_findAll h
  exact isHostChar_or_dot_of_mayHold (htakes.mayHold hc)

theorem isHostChar_cases {c : Char} (h : isHostChar c = true) :
    c.toNat < 128 ∨ c ∈ ['\u017f', '\u212a', '\u0130', '\u0131'] := by
  simp only [isHostChar, isLetterAnyCase, Char.isAlpha, Char.isUpper, Char.isLower, Char.isDigit,
    Bool.or_eq_true, Bool.and_eq_true, decide_eq_true_eq, beq_iff_eq, ge_iff_le,
    UInt32.le_iff_toNat_le] at h
  simp only [List.mem_cons, List.not_mem_nil, or_false]
  rcases h with ((((((h | h) | h) | h) | h) | h) | h) | rfl
  · exact .inl (lt_of_le_of_lt h.2 (by decide))
  · exact .inl (lt_of_le_of_lt h.2 (by decide))
  · exact .inr (.inl h)
  · exact .inr (.inr (.inl h))
  · exact .inr (.inr (.inr (.inl h)))
  · exact .inr (.inr (.inr (.inr h)))
  · exact .inl (lt_of_le_of_lt h.2 (by decide))
  · exact .inl (by decide)

private theorem eq_dot_of_toLower_eq_dot :
    ∀ n < 128, (Char.ofNat n).toLower = '.' → Char.ofNat n = '.' := by
  decide

private theorem dot_notMem_lowerChars {c : Char} (hhost : isHostChar c = true) : '.' ∉ Text.lowerChars c := by
  have hdot : c ≠ '.' := by
    rintro rfl
    exact absurd hhost (by decide)
  rcases isHostChar_cases hhost with hascii | hother
  · have hdotted : c ≠ '\u0130' := by
      rintro rfl
      exact absurd hascii (by decide)
    rw [Text.lowerChars, if_neg hdotted, Text.lowerChar, if_pos hascii, List.mem_singleton]
    intro hlower
    have hsame := eq_dot_of_toLower_eq_dot c.toNat hascii
    rw [Char.ofNat_toNat] at hsame
    exact hdot (hsame hlower.symm)
  · have hnone : (['\u017f', '\u212a', '\u0130', '\u0131'].all fun d =>
        !(Text.lowerChars d).contains '.') = true := by
      decide +kernel
    simpa using List.all_eq_true.mp hnone c hother

/-- The vendor's name has no dot, so where it stands in a host it stands in one of its labels. -/
theorem contains_lower_iff_exists_label {m v : String}
    (hm : ∀ c ∈ m.toList, isHostChar c = true ∨ c = '.') (hv : '.' ∉ v.toList) :
    Text.contains v (Text.lower m) = true ↔
      ∃ label ∈ Text.split '.' m, Text.contains v (Text.lower label) = true := by
  have hsigma {cs : List Char} (hcs : cs ⊆ m.toList) : '\u03a3' ∉ cs := by
    intro hmem
    rcases hm _ (hcs hmem) with hhost | hdot
    · exact absurd hhost (by decide)
    · exact absurd hdot (by decide)
  have hlabels : Text.splitChars '.' (m.toList.flatMap Text.lowerChars) =
      (Text.splitChars '.' m.toList).map (·.flatMap Text.lowerChars) := by
    refine Text.splitChars_flatMap (by decide) fun c hc hdot => ?_
    exact dot_notMem_lowerChars ((hm c hc).resolve_right hdot)
  rw [Text.contains_iff_infix, Text.toList_lower (hsigma (List.Subset.refl _)),
    Text.infix_iff_exists_piece hv, hlabels]
  simp only [Text.split, List.mem_map, exists_exists_and_eq_and]
  refine exists_congr fun label => and_congr_right fun hlabel => ?_
  have hfree : '\u03a3' ∉ (String.ofList label).toList := by
    rw [String.toList_ofList]
    exact hsigma (Text.mem_of_mem_splitChars hlabel)
  rw [Text.contains_iff_infix, Text.toList_lower hfree, String.toList_ofList]

private theorem dot_notMem_of_mem_vendors {v : String} (hv : v ∈ vendors) : '.' ∉ v.toList := by
  have hnone : (vendors.all fun v => !v.toList.contains '.') = true := by decide
  simpa using List.all_eq_true.mp hnone v hv

/-- A label in which the name of a vendor is only a part. -/
def isLookAlike (label : String) : Bool :=
  vendors.any fun v => Text.contains v (Text.lower label) && Text.lower label != v

private theorem namesAny_vendors_iff {m : String} (hm : ∀ c ∈ m.toList, isHostChar c = true ∨ c = '.') :
    namesAny vendors m = true ↔ ∃ label ∈ Text.split '.' m, namesAny vendors label = true := by
  simp only [namesAny, List.any_eq_true]
  constructor
  · rintro ⟨v, hv, hcontains⟩
    obtain ⟨label, hlabel, hnamed⟩ :=
      (contains_lower_iff_exists_label hm (dot_notMem_of_mem_vendors hv)).mp hcontains
    exact ⟨label, hlabel, v, hv, hnamed⟩
  · rintro ⟨label, hlabel, v, hv, hnamed⟩
    have hcontains := (contains_lower_iff_exists_label hm (dot_notMem_of_mem_vendors hv)).mpr
      ⟨label, hlabel, hnamed⟩
    exact ⟨v, hv, hcontains⟩

private theorem namesAny_vendors_label (label : String) :
    namesAny vendors label = true ↔ Text.lower label ∈ vendors ∨ isLookAlike label = true := by
  simp only [namesAny, isLookAlike, List.any_eq_true, Bool.and_eq_true, bne_iff_ne]
  constructor
  · rintro ⟨v, hv, hcontains⟩
    by_cases hsame : Text.lower label = v
    · exact .inl (hsame ▸ hv)
    · exact .inr ⟨v, hv, hcontains, hsame⟩
  · rintro (hmem | ⟨v, hv, hcontains, -⟩)
    · exact ⟨Text.lower label, hmem, Text.contains_iff_infix.mpr (List.infix_refl _)⟩
    · exact ⟨v, hv, hcontains⟩

/-- A host is left out exactly if one of its labels is, in any mixture of cases, the name of a vendor or has
such a name as a part. So a host none of whose labels is a vendor's is left out exactly if one of them looks
like a vendor's. -/
theorem extract_leaves_host_out_iff {text m : String} (h : m ∈ host.findAll text) :
    (m ∉ valuesOf .domain (extract text) ↔
      (∃ label ∈ Text.split '.' m, Text.lower label ∈ vendors) ∨
        ∃ label ∈ Text.split '.' m, isLookAlike label = true) ∧
    ((∀ label ∈ Text.split '.' m, Text.lower label ∉ vendors) →
      (m ∉ valuesOf .domain (extract text) ↔ ∃ label ∈ Text.split '.' m, isLookAlike label = true)) := by
  have hout : m ∉ valuesOf .domain (extract text) ↔ namesAny vendors m = true := by
    simp [valuesOf_domain_extract, h]
  have hlabels : m ∉ valuesOf .domain (extract text) ↔
      (∃ label ∈ Text.split '.' m, Text.lower label ∈ vendors) ∨
        ∃ label ∈ Text.split '.' m, isLookAlike label = true := by
    rw [hout, namesAny_vendors_iff (isHostChar_or_dot_of_mem_findAll h)]
    simp only [namesAny_vendors_label, and_or_left, exists_or]
  refine ⟨hlabels, fun hnone => hlabels.trans (or_iff_right ?_)⟩
  rintro ⟨label, hlabel, hvendor⟩
  exact hnone label hlabel hvendor

/-- No label of this host is a vendor's, and it is not reported. -/
theorem extract_leaves_look_alike_out :
    "notGoogle.com" ∈ host.findAll "see notGoogle.com and evil.com" ∧
    (∀ label ∈ Text.split '.' "notGoogle.com", Text.lower label ∉ vendors) ∧
    "notGoogle.com" ∉ valuesOf .domain (extract "see notGoogle.com and evil.com") ∧
    "evil.com" ∈ valuesOf .domain (extract "see notGoogle.com and evil.com") := by
  have hfound : "notGoogle.com" ∈ host.findAll "see notGoogle.com and evil.com" := by decide +kernel
  have hnone : ∀ label ∈ Text.split '.' "notGoogle.com", Text.lower label ∉ vendors := by decide +kernel
  refine ⟨hfound, hnone, ?_, by decide +kernel⟩
  exact ((extract_leaves_host_out_iff hfound).2 hnone).mpr ⟨"notGoogle", by decide +kernel⟩

end ThreatAtlas.Indicator
