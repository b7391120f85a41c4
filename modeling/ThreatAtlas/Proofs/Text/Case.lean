import ThreatAtlas.Proofs.Indicator.Cleaning

/-!
# Words in upper and lower case

A word of plain letters that stands in a text, in whatever mixture of upper and lower case, stands in the
upper case of the text as it is written. Where there is no sigma, lower case is taken character by
character.
-/

namespace ThreatAtlas.Text

/-- The word stands in the text, in any mixture of upper and lower case. -/
def Spelled (word s : String) : Prop :=
  ∃ a found b, s.toList = a ++ found ++ b ∧ found.map Char.toUpper = word.toList

variable {c x : Char} {cs before : List Char} {s : String}

theorem toNat_lt_of_toUpper_lt (h : c.toUpper.toNat < 128) : c.toNat < 128 := by
  by_cases hlow : 'a'.val ≤ c.val ∧ c.val ≤ 'z'.val
  · have hle : c.toNat ≤ 122 := hlow.2
    omega
  · rwa [Char.toUpper, dif_neg hlow] at h

theorem flatMap_upperChars_of_plain (h : ∀ c ∈ cs.map Char.toUpper, c.toNat < 128) :
    cs.flatMap upperChars = cs.map Char.toUpper := by
  induction cs with
  | nil => rfl
  | cons c cs ih =>
    rw [List.map_cons, List.forall_mem_cons] at h
    rw [List.flatMap_cons, List.map_cons, upperChars, if_pos (toNat_lt_of_toUpper_lt h.1), ih h.2]
    rfl

theorem contains_upper_of_spelled {word : String} (hplain : ∀ c ∈ word.toList, c.toNat < 128)
    (h : Spelled word s) : contains word (upper s) = true := by
  obtain ⟨a, found, b, hs, hword⟩ := h
  rw [contains, Indicator.hasBlock_iff]
  refine ⟨a.flatMap upperChars, b.flatMap upperChars, ?_⟩
  have hfound : found.flatMap upperChars = word.toList := by
    rw [flatMap_upperChars_of_plain (by rwa [hword]), hword]
  rw [upper, String.toList_ofList, hs, List.flatMap_append, List.flatMap_append, hfound]

theorem contains_iff_infix {part : String} : contains part s = true ↔ part.toList <:+: s.toList := by
  rw [contains, Indicator.hasBlock_iff]
  simp only [List.IsInfix, eq_comm]

theorem lowerAfter_eq_nil_iff : lowerAfter before cs = [] ↔ cs = [] := by
  cases cs with
  | nil => exact iff_of_true rfl rfl
  | cons c cs =>
    refine iff_of_false ?_ (List.cons_ne_nil c cs)
    rw [lowerAfter]
    apply List.append_ne_nil_of_left_ne_nil
    split
    · exact List.cons_ne_nil _ _
    · split <;> exact List.cons_ne_nil _ _

theorem lower_eq_empty_iff : lower s = "" ↔ s = "" := by
  rw [lower, ← String.toList_inj, String.toList_ofList, String.toList_empty, lowerAfter_eq_nil_iff,
    ← String.toList_inj, String.toList_empty]

def lowerChars (c : Char) : List Char :=
  if c = '\u0130' then ['i', '\u0307'] else [lowerChar c]

theorem lowerAfter_cons (hc : c ≠ '\u03a3') (before cs : List Char) :
    lowerAfter before (c :: cs) = lowerChars c ++ lowerAfter (c :: before) cs := by
  have hsigma : (c == '\u03a3') = false := beq_eq_false_iff_ne.mpr hc
  rw [lowerAfter, hsigma]
  simp [lowerChars]

theorem lowerAfter_eq_flatMap (h : '\u03a3' ∉ cs) : lowerAfter before cs = cs.flatMap lowerChars := by
  induction cs generalizing before with
  | nil => rfl
  | cons c cs ih =>
    rw [List.mem_cons, not_or] at h
    rw [lowerAfter_cons (Ne.symm h.1), List.flatMap_cons, ih h.2]

theorem toList_lower (h : '\u03a3' ∉ s.toList) : (lower s).toList = s.toList.flatMap lowerChars := by
  rw [lower, String.toList_ofList, lowerAfter_eq_flatMap h]

theorem shiftBy_cases (runs : Array CaseRun) (c : Char) :
    shiftBy runs c = c ∨ ∃ run ∈ runs, run.lo ≤ c.toNat ∧ c.toNat ≤ run.hi ∧
      shiftBy runs c = Char.ofNat (Int.toNat (c.toNat + run.shift)) := by
  unfold shiftBy
  dsimp only
  cases hrun : runs[rank runs.size (fun i => (runs[i]?.map (·.lo)).getD 0) c.toNat - 1]? with
  | none => exact .inl rfl
  | some run =>
    dsimp only
    by_cases hinside : (run.lo ≤ c.toNat && c.toNat ≤ run.hi && (c.toNat - run.lo) % run.step == 0) = true
    · rw [if_pos hinside]
      simp only [Bool.and_eq_true, decide_eq_true_eq] at hinside
      exact .inr ⟨run, Array.mem_of_getElem? hrun, hinside.1.1, hinside.1.2, rfl⟩
    · rw [if_neg hinside]
      exact .inl rfl

private theorem lowerRuns_ends : (lowerRuns.all fun run =>
    (128 ≤ run.lo + run.shift || (97 ≤ run.lo + run.shift && run.hi + run.shift ≤ 122)) &&
      (run.hi + run.shift < 0xd800 || (0xdfff < run.lo + run.shift && run.hi + run.shift < 0x110000))) =
    true := by
  decide +kernel

theorem eq_of_lowerChar_eq (hascii : x.toNat < 128) (hlower : x.isLower = false) (h : lowerChar c = x) :
    c = x := by
  subst h
  unfold lowerChar at *
  by_cases hc : c.toNat < 128
  · rw [if_pos hc] at hlower ⊢
    rw [Char.isLower_toLower_eq_isAlpha] at hlower
    refine (Char.toLower_eq_of_not_isUpper fun hupper => ?_).symm
    simp [Char.isAlpha, hupper] at hlower
  · rw [if_neg hc] at hascii hlower ⊢
    rcases shiftBy_cases lowerRuns c with hsame | ⟨run, hrun, hlo, hhi, hshift⟩
    · exact hsame.symm
    · have hends := Array.all_eq_true_iff_forall_mem.mp lowerRuns_ends run hrun
      simp only [Bool.and_eq_true, Bool.or_eq_true, decide_eq_true_eq] at hends
      have hvalid : (Int.toNat (c.toNat + run.shift)).isValidChar := by
        unfold Nat.isValidChar
        omega
      have hcode : (shiftBy lowerRuns c).toNat = Int.toNat (c.toNat + run.shift) := by
        rw [hshift, Char.toNat_ofNat, if_pos hvalid]
      have hletter : (shiftBy lowerRuns c).isLower = true := by
        simp only [Char.isLower, Bool.and_eq_true, decide_eq_true_eq, ge_iff_le, UInt32.le_iff_toNat_le]
        change 97 ≤ (shiftBy lowerRuns c).toNat ∧ (shiftBy lowerRuns c).toNat ≤ 122
        omega
      rw [hletter] at hlower
      cases hlower

theorem eq_of_mem_lowerChars (hascii : x.toNat < 128) (hlower : x.isLower = false) (h : x ∈ lowerChars c) :
    c = x := by
  unfold lowerChars at h
  by_cases hdotted : c = '\u0130'
  · rw [if_pos hdotted, List.mem_cons, List.mem_singleton] at h
    rcases h with rfl | rfl
    · cases hlower
    · simp at hascii
  · rw [if_neg hdotted, List.mem_singleton] at h
    exact eq_of_lowerChar_eq hascii hlower h.symm

theorem mem_of_mem_lowerAfter (hascii : x.toNat < 128) (hlower : x.isLower = false)
    (h : x ∈ lowerAfter before cs) : x ∈ cs := by
  induction cs generalizing before with
  | nil => exact h
  | cons c cs ih =>
    by_cases hsigma : c = '\u03a3'
    · rw [lowerAfter, hsigma, if_pos (beq_self_eq_true _), List.singleton_append, List.mem_cons] at h
      rcases h with hhere | hlater
      · cases hends : endsWord before cs <;> simp [hends, hhere] at hascii
      · exact List.mem_cons_of_mem c (ih hlater)
    · rw [lowerAfter_cons hsigma, List.mem_append] at h
      rcases h with hhere | hlater
      · rw [eq_of_mem_lowerChars hascii hlower hhere]
        exact List.mem_cons_self
      · exact List.mem_cons_of_mem c (ih hlater)

/-- A character that has no case and ends words, so that the case of letters on one side of it does not
depend on the other side. -/
def partsCase (c : Char) : Bool :=
  !inRanges caseIgnorableBounds c && !inRanges casedBounds c && lowerChars c == [c]

private theorem nearest_append_cons (hx : partsCase x = true) (a b : List Char) :
    (((a ++ x :: b).dropWhile (inRanges caseIgnorableBounds)).head?.map (inRanges casedBounds)).getD false =
      ((a.dropWhile (inRanges caseIgnorableBounds)).head?.map (inRanges casedBounds)).getD false := by
  simp only [partsCase, Bool.and_eq_true, Bool.not_eq_true'] at hx
  obtain ⟨⟨hignorable, hcased⟩, -⟩ := hx
  induction a with
  | nil => simp [hignorable, hcased]
  | cons c a ih =>
    rw [List.cons_append, List.dropWhile_cons, List.dropWhile_cons]
    by_cases hc : inRanges caseIgnorableBounds c = true
    · rw [if_pos hc, if_pos hc, ih]
    · rw [if_neg hc, if_neg hc]
      rfl

theorem endsWord_append_cons (hx : partsCase x = true) (before after far : List Char) :
    endsWord before (after ++ x :: far) = endsWord before after := by
  simp only [endsWord, nearest_append_cons hx]

theorem endsWord_cons_append (hx : partsCase x = true) (before far after : List Char) :
    endsWord (before ++ x :: far) after = endsWord before after := by
  simp only [endsWord, nearest_append_cons hx]

theorem lowerAfter_behind (hx : partsCase x = true) (before far cs : List Char) :
    lowerAfter (before ++ x :: far) cs = lowerAfter before cs := by
  induction cs generalizing before with
  | nil => rfl
  | cons c cs ih =>
    rw [lowerAfter, lowerAfter, endsWord_cons_append hx, ← List.cons_append, ih]

theorem lowerAfter_append_cons (hx : partsCase x = true) (before a b : List Char) :
    lowerAfter before (a ++ x :: b) = lowerAfter before a ++ x :: lowerAfter [] b := by
  induction a generalizing before with
  | nil =>
    have hsigma : x ≠ '\u03a3' := by
      rintro rfl
      exact absurd hx (by decide +kernel)
    have hsame : lowerChars x = [x] := by
      simp only [partsCase, Bool.and_eq_true, beq_iff_eq] at hx
      exact hx.2
    have hrest := lowerAfter_behind hx [] before b
    rw [List.nil_append, lowerAfter_cons hsigma, hsame, ← List.nil_append (x :: before), hrest]
    rfl
  | cons c a ih =>
    rw [List.cons_append, lowerAfter, lowerAfter, endsWord_append_cons hx, ih, List.append_assoc]

end ThreatAtlas.Text
