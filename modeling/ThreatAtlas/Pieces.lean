/-!
# Pieces of a list, and its members without repetitions
-/

namespace ThreatAtlas

/-- The list cut into pieces of `size`; a last piece may be shorter. -/
def pieces (size : Nat) (xs : List α) : List (List α) :=
  if size = 0 || xs.isEmpty then []
  else xs.take size :: pieces size (xs.drop size)
termination_by xs.length
decreasing_by
  rename_i h
  simp only [Bool.or_eq_true, decide_eq_true_eq, List.isEmpty_iff, not_or] at h
  have := List.length_pos_iff.mpr h.2
  simp only [List.length_drop]
  omega

theorem nodup_eraseDups : ∀ xs : List String, xs.eraseDups.Nodup
  | [] => List.nodup_nil
  | x :: xs => by
    rw [List.eraseDups_cons, List.nodup_cons]
    exact ⟨by simp [List.mem_eraseDups], nodup_eraseDups _⟩
termination_by xs => xs.length
decreasing_by exact Nat.lt_succ_of_le (List.length_filter_le ..)

end ThreatAtlas
