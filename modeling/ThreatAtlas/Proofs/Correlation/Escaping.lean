import ThreatAtlas.Correlation.Queries
import ThreatAtlas.Proofs.Text.Replace

/-!
# Escapes for text indexes

The special characters are escaped one kind after the other, over the whole text each time. No step touches
what another one put in, because a backslash is not special and every special character has one turn. So
the steps together are one pass over the text, in whichever order they are made.
-/

namespace ThreatAtlas.Correlation

/-- A character of a text, behind a backslash if it is one of the marks. -/
def marked (marks : List Char) (c : Char) : List Char :=
  if c ∈ marks then ['\\', c] else [c]

/-- The text without the backslashes that stand before one of the marks. -/
def unmarked (marks : List Char) : List Char → List Char
  | [] => []
  | c :: cs =>
    if c = '\\' ∧ ∃ m ∈ cs.head?, m ∈ marks then unmarked marks cs else c :: unmarked marks cs

variable {marks : List Char} {c : Char} {s : List Char}

private theorem marked_singleton (c d : Char) : marked [c] d = if d = c then ['\\', c] else [d] := by
  by_cases hd : d = c <;> simp [marked, hd]

private theorem flatMap_marked_singleton (hslash : '\\' ∉ marks) (hc : c ∉ marks) (d : Char) :
    (marked [c] d).flatMap (marked marks) = marked (c :: marks) d := by
  by_cases hd : d = c
  · simp [marked, hd, hslash, hc]
  · simp [marked, hd]

/-- Escapes of different marks, made one after the other, are one pass over the text. -/
theorem toList_foldl_replace (hslash : '\\' ∉ marks) (hmarks : marks.Nodup) (s : String) :
    (marks.foldl (fun s c => Text.replace (String.singleton c) (String.ofList ['\\', c]) s) s).toList =
      s.toList.flatMap (marked marks) := by
  induction marks generalizing s with
  | nil => exact (List.flatMap_singleton' _).symm
  | cons c marks ih =>
    obtain ⟨hc, hmarks⟩ := List.nodup_cons.mp hmarks
    have hslash : '\\' ∉ marks := fun h => hslash (List.mem_cons_of_mem c h)
    have hone : (Text.replace (String.singleton c) (String.ofList ['\\', c]) s).toList =
        s.toList.flatMap (marked [c]) := by
      rw [Text.replace, String.toList_ofList, String.toList_ofList, String.toList_singleton,
        Text.replaceChars_singleton, funext (marked_singleton c)]
    rw [List.foldl_cons, ih hslash hmarks, hone, List.flatMap_assoc]
    simp only [flatMap_marked_singleton hslash hc]

private theorem unmarked_cons_of_ne (hc : c ≠ '\\') (s : List Char) :
    unmarked marks (c :: s) = c :: unmarked marks s :=
  if_neg fun h => hc h.1

private theorem unmarked_flatMap_marked (hs : '\\' ∉ s) : unmarked marks (s.flatMap (marked marks)) = s := by
  induction s with
  | nil => rfl
  | cons c s ih =>
    obtain ⟨hc, hs⟩ := not_or.mp (mt List.mem_cons.mpr hs)
    have hrest : unmarked marks (c :: s.flatMap (marked marks)) = c :: s := by
      rw [unmarked_cons_of_ne (Ne.symm hc), ih hs]
    rw [List.flatMap_cons, marked]
    split
    case isTrue hmark =>
      rw [List.cons_append, List.singleton_append, unmarked, if_pos ⟨rfl, c, rfl, hmark⟩, hrest]
    case isFalse => exact hrest

/-- Escaping a text for the index puts one backslash before each special character and changes nothing
else. From the escaped form of a text without backslashes the text is read back, so no other such text has
that form. -/
theorem escapeForIndex_one_pass (s : String) :
    (escapeForIndex s).toList = s.toList.flatMap (marked indexSpecials) ∧
      ('\\' ∉ s.toList → unmarked indexSpecials (escapeForIndex s).toList = s.toList ∧
        ∀ t : String, '\\' ∉ t.toList → escapeForIndex t = escapeForIndex s → t = s) := by
  have hpass (s : String) : (escapeForIndex s).toList = s.toList.flatMap (marked indexSpecials) :=
    toList_foldl_replace (by decide) (by decide) s
  have hback {s : String} (hs : '\\' ∉ s.toList) :
      unmarked indexSpecials (escapeForIndex s).toList = s.toList := by
    rw [hpass, unmarked_flatMap_marked hs]
  refine ⟨hpass s, fun hs => ⟨hback hs, fun t ht heq => ?_⟩⟩
  apply String.toList_injective
  rw [← hback ht, heq, hback hs]

/-- Two marks in a row get a backslash each, and the text is read back from them. -/
theorem escapeForIndex_doubled_marks :
    (escapeForIndex "a&&b").toList = "a\\&\\&b".toList ∧ '\\' ∉ "a&&b".toList ∧
      unmarked indexSpecials (escapeForIndex "a&&b").toList = "a&&b".toList ∧
      '\\' ∉ "a&b".toList ∧ escapeForIndex "a&b" ≠ escapeForIndex "a&&b" := by
  obtain ⟨hpass, hback⟩ := escapeForIndex_one_pass "a&&b"
  have hs : '\\' ∉ "a&&b".toList := by decide
  have ht : '\\' ∉ "a&b".toList := by decide
  refine ⟨hpass.trans (by decide), hs, (hback hs).1, ht, fun heq => ?_⟩
  exact absurd ((hback hs).2 "a&b" ht heq) (by decide)

end ThreatAtlas.Correlation
