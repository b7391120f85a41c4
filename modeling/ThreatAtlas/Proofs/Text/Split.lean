import ThreatAtlas.Proofs.Text.Replace

/-!
# Texts and their pieces

A text without the separator is one piece; any other is a piece, a separator and a shorter text. A word
without the separator stands in the text exactly if it stands in one of the pieces, and to change a text
character by character is to change each of its pieces so.
-/

namespace ThreatAtlas.Text

variable {sep : Char}
variable {a s piece mark : List Char}

theorem splitChars_of_notMem (h : sep ∉ a) : splitChars sep a = [a] := by
  induction a with
  | nil => rfl
  | cons c a ih =>
    rw [List.mem_cons, not_or] at h
    have hc : (c == sep) = false := by simpa using Ne.symm h.1
    rw [splitChars, hc, ih h.2]
    rfl

theorem splitChars_append_cons (h : sep ∉ a) (b : List Char) :
    splitChars sep (a ++ sep :: b) = a :: splitChars sep b := by
  induction a with
  | nil =>
    rw [List.nil_append, splitChars, beq_self_eq_true]
    rfl
  | cons c a ih =>
    rw [List.mem_cons, not_or] at h
    have hc : (c == sep) = false := by simpa using Ne.symm h.1
    rw [List.cons_append, splitChars, hc, ih h.2]
    rfl

@[elab_as_elim] theorem pieces_induction (sep : Char) {motive : List Char → Prop} (s : List Char)
    (last : ∀ a, sep ∉ a → motive a) (more : ∀ a b, sep ∉ a → motive b → motive (a ++ sep :: b)) :
    motive s := by
  induction hlen : s.length using Nat.strong_induction_on generalizing s with
  | _ n ih =>
  subst hlen
  by_cases hmem : sep ∈ s
  · obtain ⟨a, b, rfl, ha⟩ := List.eq_append_cons_of_mem hmem
    refine more a b ha (ih b.length ?_ b rfl)
    simp only [List.length_append, List.length_cons]
    omega
  · exact last s hmem

theorem splitChars_ne_nil (s : List Char) : splitChars sep s ≠ [] := by
  by_cases hmem : sep ∈ s
  · obtain ⟨a, b, rfl, ha⟩ := List.eq_append_cons_of_mem hmem
    rw [splitChars_append_cons ha]
    exact List.cons_ne_nil _ _
  · rw [splitChars_of_notMem hmem]
    exact List.cons_ne_nil _ _

theorem eq_of_splitChars_eq_singleton (h : splitChars sep s = [piece]) : s = piece := by
  by_cases hmem : sep ∈ s
  · obtain ⟨a, b, rfl, ha⟩ := List.eq_append_cons_of_mem hmem
    rw [splitChars_append_cons ha, List.cons.injEq] at h
    exact absurd h.2 (splitChars_ne_nil b)
  · simpa [splitChars_of_notMem hmem] using h

theorem mem_of_mem_splitChars (h : piece ∈ splitChars sep s) : piece ⊆ s := by
  induction s using pieces_induction sep with
  | last a ha =>
    rw [splitChars_of_notMem ha, List.mem_singleton] at h
    rw [h]
    exact List.Subset.refl a
  | more a b ha ih =>
    rw [splitChars_append_cons ha, List.mem_cons] at h
    rcases h with rfl | h
    · exact List.subset_append_left piece _
    · intro c hc
      have hb : c ∈ b := ih h hc
      simp [hb]

theorem notMem_of_mem_splitChars (h : piece ∈ splitChars sep s) : sep ∉ piece := by
  induction s using pieces_induction sep with
  | last a ha =>
    rw [splitChars_of_notMem ha, List.mem_singleton] at h
    rwa [h]
  | more a b ha ih =>
    rw [splitChars_append_cons ha, List.mem_cons] at h
    rcases h with rfl | h
    · exact ha
    · exact ih h

theorem cutChars_self_append (hmark : mark ≠ []) (b : List Char) :
    cutChars mark (mark ++ b) = some ([], b) := by
  obtain ⟨c, cs, rfl⟩ := List.exists_cons_of_ne_nil hmark
  have hstarts : (c :: cs).isPrefixOf (c :: (cs ++ b)) = true := by
    rw [List.isPrefixOf_iff_prefix]
    exact List.prefix_append (c :: cs) b
  rw [List.cons_append, cutChars, if_pos hstarts]
  simp

/-- A text is cut at the first mark. The mark must not stand earlier, and none may begin earlier and run
into it. -/
theorem cutChars_append (hmark : mark ≠ []) (h : ¬ mark <:+: a ++ mark.dropLast) (b : List Char) :
    cutChars mark (a ++ (mark ++ b)) = some (a, b) := by
  induction a with
  | nil => exact cutChars_self_append hmark b
  | cons c a ih =>
    have hstarts : ¬ mark.isPrefixOf (c :: (a ++ (mark ++ b))) = true := by
      rw [List.isPrefixOf_iff_prefix]
      intro hhere
      have hthere : c :: a ++ mark.dropLast <+: c :: (a ++ (mark ++ b)) := by
        rw [List.cons_append, List.prefix_cons_inj, List.prefix_append_right_inj]
        exact (List.dropLast_prefix mark).trans (List.prefix_append mark b)
      have hshort : mark.length ≤ (c :: a ++ mark.dropLast).length := by
        simp only [List.cons_append, List.length_cons, List.length_append, List.length_dropLast]
        omega
      exact h (List.prefix_of_prefix_length_le hhere hthere hshort).isInfix
    have hlater : ¬ mark <:+: a ++ mark.dropLast := fun hin => h (List.infix_cons hin)
    rw [List.cons_append, cutChars, if_neg hstarts, ih hlater]
    rfl

/-- Wherever a mark stands, all that is behind it is behind the cut. -/
theorem exists_cutChars_append (hmark : mark ≠ []) (a b : List Char) :
    ∃ before more, cutChars mark (a ++ (mark ++ b)) = some (before, more ++ b) := by
  induction a with
  | nil => exact ⟨[], [], cutChars_self_append hmark b⟩
  | cons c a ih =>
    by_cases hstarts : mark.isPrefixOf (c :: (a ++ (mark ++ b))) = true
    · have hlength : mark.length ≤ (c :: (a ++ mark)).length := by
        simp only [List.length_cons, List.length_append]
        omega
      refine ⟨[], (c :: (a ++ mark)).drop mark.length, ?_⟩
      rw [List.cons_append, cutChars, if_pos hstarts, ← List.drop_append_of_le_length hlength]
      simp
    · obtain ⟨before, more, hcut⟩ := ih
      refine ⟨c :: before, more, ?_⟩
      rw [List.cons_append, cutChars, if_neg hstarts, hcut]
      rfl

theorem cutChars_append_cons (h : sep ∉ a) (b : List Char) :
    cutChars [sep] (a ++ sep :: b) = some (a, b) := by
  refine cutChars_append (List.cons_ne_nil sep []) ?_ b
  simpa [List.singleton_infix_iff] using h

theorem cut?_eq_some {mark s : String} {b : List Char} (hmark : mark.toList = [sep])
    (h : cutChars [sep] s.toList = some (a, b)) : cut? mark s = some (String.ofList a, String.ofList b) := by
  rw [cut?, hmark, h]
  rfl

theorem infix_append_cons_iff {w b : List Char} {x : Char} (hx : x ∉ w) :
    w <:+: a ++ x :: b ↔ w <:+: a ∨ w <:+: b := by
  induction a with
  | nil =>
    have hhead : w <+: x :: b ↔ w <+: [] := prefix_append_cons (a := []) hx
    rw [List.nil_append, List.infix_cons_iff, hhead, List.prefix_nil, List.infix_nil]
  | cons c a ih =>
    have hhead : w <+: c :: (a ++ x :: b) ↔ w <+: c :: a := prefix_append_cons (a := c :: a) hx
    rw [List.cons_append, List.infix_cons_iff, hhead, ih, List.infix_cons_iff, or_assoc]

theorem infix_iff_exists_piece {w : List Char} (hw : sep ∉ w) (s : List Char) :
    w <:+: s ↔ ∃ piece ∈ splitChars sep s, w <:+: piece := by
  induction s using pieces_induction sep with
  | last a ha => simp [splitChars_of_notMem ha]
  | more a b ha ih => simp [splitChars_append_cons ha, infix_append_cons_iff hw, ih]

theorem splitChars_flatMap {f : Char → List Char} (hsep : f sep = [sep])
    (hother : ∀ c ∈ s, c ≠ sep → sep ∉ f c) :
    splitChars sep (s.flatMap f) = (splitChars sep s).map (·.flatMap f) := by
  have hfree {a : List Char} (ha : sep ∉ a) (hsub : a ⊆ s) : sep ∉ a.flatMap f := by
    intro hmem
    obtain ⟨c, hc, hmem⟩ := List.mem_flatMap.mp hmem
    exact hother c (hsub hc) (fun h => ha (h ▸ hc)) hmem
  have hpieces (t : List Char) (hsub : t ⊆ s) :
      splitChars sep (t.flatMap f) = (splitChars sep t).map (·.flatMap f) := by
    induction t using pieces_induction sep with
    | last a ha => rw [splitChars_of_notMem ha, splitChars_of_notMem (hfree ha hsub), List.map_singleton]
    | more a b ha ih =>
      have hleft : a ⊆ s := fun c hc => hsub (by simp [hc])
      have hright : b ⊆ s := fun c hc => hsub (by simp [hc])
      rw [List.flatMap_append, List.flatMap_cons, hsep, List.singleton_append,
        splitChars_append_cons (hfree ha hleft), splitChars_append_cons ha, List.map_cons, ih hright]
  exact hpieces s (List.Subset.refl s)

end ThreatAtlas.Text
