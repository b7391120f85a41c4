import Mathlib
import ThreatAtlas.Text.Class

/-!
# How character classes lie in each other

Decimal digits are digits in the wider sense. Decimal and hexadecimal digits are word characters, and so
are the syllables of the Korean script.
-/

namespace ThreatAtlas.Text

theorem rank_search_le (key : Nat → Nat) (x fuel lo hi : Nat) (hlo : lo ≤ hi)
    (hkey : 0 < lo → key (lo - 1) ≤ x) :
    rank.search key x fuel lo hi ≤ hi ∧
      (0 < rank.search key x fuel lo hi → key (rank.search key x fuel lo hi - 1) ≤ x) := by
  -- All keys before `lo` were met and found to be at most `x`; the last of them is remembered.
  induction fuel generalizing lo hi with
  | zero => exact ⟨hlo, hkey⟩
  | succ fuel ih =>
    rw [rank.search]
    split
    case isTrue hlt =>
      dsimp only
      split
      case isTrue hmid => exact ih _ _ (by omega) (fun _ => by simpa using hmid)
      case isFalse =>
        obtain ⟨hle, hlast⟩ := ih lo ((lo + hi) / 2) (by omega) hkey
        exact ⟨by omega, hlast⟩
    case isFalse => exact ⟨hlo, hkey⟩

theorem rank_le (size : Nat) (key : Nat → Nat) (x : Nat) :
    rank size key x ≤ size ∧ (0 < rank size key x → key (rank size key x - 1) ≤ x) :=
  rank_search_le _ _ _ _ _ (Nat.zero_le _) (by omega)

variable {c : Char}

theorem exists_block_of_isDecimal (h : isDecimal c = true) :
    ∃ i < decimalZeros.size, ∃ d < 10, c.toNat = decimalZeros.getD i 0 + d := by
  unfold isDecimal decimalValue? at h
  split at h
  case isTrue =>
    split at h
    case isTrue hdigit =>
      have hbounds : 48 ≤ c.toNat ∧ c.toNat ≤ 57 := by
        simpa [Char.isDigit, UInt32.le_iff_toNat_le] using hdigit
      have hfirst : decimalZeros.getD 0 0 = 48 := rfl
      exact ⟨0, by decide, c.toNat - 48, by omega, by omega⟩
    case isFalse => cases h
  case isFalse =>
    obtain ⟨hsize, hlast⟩ := rank_le decimalZeros.size (decimalZeros.getD · 0) c.toNat
    generalize rank decimalZeros.size (decimalZeros.getD · 0) c.toNat = i at h hsize hlast
    dsimp only at h
    split at h
    case isTrue hblock =>
      rw [Bool.and_eq_true, decide_eq_true_eq, decide_eq_true_eq] at hblock
      have hle := hlast hblock.1
      exact ⟨i - 1, by omega, c.toNat - decimalZeros.getD (i - 1) 0, by omega, by omega⟩
    case isFalse => cases h

private theorem digitBounds_hold_blocks : ∀ i < decimalZeros.size, ∀ d < 10,
    rank digitBounds.size (digitBounds.getD · 0) (decimalZeros.getD i 0 + d) % 2 = 1 := by
  decide +kernel

theorem isDigitLike_of_isDecimal (h : isDecimal c = true) : isDigitLike c = true := by
  obtain ⟨i, hi, d, hd, hc⟩ := exists_block_of_isDecimal h
  rw [isDigitLike, inRanges, hc, beq_iff_eq]
  exact digitBounds_hold_blocks i hi d hd

private theorem blankBounds_leave_blocks : ∀ i < decimalZeros.size, ∀ d < 10,
    rank blankBounds.size (blankBounds.getD · 0) (decimalZeros.getD i 0 + d) % 2 = 0 := by
  decide +kernel

theorem isBlank_of_isDecimal (h : isDecimal c = true) : isBlank c = false := by
  obtain ⟨i, hi, d, hd, hc⟩ := exists_block_of_isDecimal h
  rw [isBlank, inRanges, hc, blankBounds_leave_blocks i hi d hd]
  rfl

theorem isWord_of_isHex (h : isHex c = true) : isWord c = true := by
  have hrange : (48 ≤ c.toNat ∧ c.toNat ≤ 57) ∨ (97 ≤ c.toNat ∧ c.toNat ≤ 102) ∨
      65 ≤ c.toNat ∧ c.toNat ≤ 70 := by
    simp only [isHex, Char.isDigit, Bool.or_eq_true, Bool.and_eq_true, decide_eq_true_eq, Char.le_def,
      UInt32.le_iff_toNat_le] at h
    rcases h with (h | h) | h
    · exact .inl h
    · exact .inr (.inl h)
    · exact .inr (.inr h)
  have halphanum : c.isAlphanum = true := by
    simp only [Char.isAlphanum, Char.isAlpha, Char.isUpper, Char.isLower, Char.isDigit,
      Bool.or_eq_true, Bool.and_eq_true, decide_eq_true_eq, UInt32.le_iff_toNat_le, ge_iff_le]
    change ((65 ≤ c.toNat ∧ c.toNat ≤ 90) ∨ 97 ≤ c.toNat ∧ c.toNat ≤ 122) ∨ 48 ≤ c.toNat ∧ c.toNat ≤ 57
    omega
  rw [isWord, if_pos (by omega), halphanum, Bool.true_or]

theorem rank_eq_of_iff {size : Nat} {key : Nat → Nat} {x k : Nat} (hk : k ≤ size)
    (h : ∀ i < size, key i ≤ x ↔ i < k) : rank size key x = k := by
  have hsearch (fuel lo hi : Nat) (hlo : lo ≤ k) (hhi : k ≤ hi) (hsize : hi ≤ size)
      (hfuel : hi - lo ≤ fuel) : rank.search key x fuel lo hi = k := by
    induction fuel generalizing lo hi with
    | zero =>
      rw [rank.search]
      omega
    | succ fuel ih =>
      rw [rank.search]
      by_cases hlt : lo < hi
      · have hmid := h ((lo + hi) / 2) (by omega)
        simp only [hlt, if_true]
        by_cases hkey : key ((lo + hi) / 2) ≤ x
        · rw [if_pos hkey]
          have := hmid.mp hkey
          exact ih _ _ (by omega) hhi hsize (by omega)
        · rw [if_neg hkey]
          have := mt hmid.mpr hkey
          exact ih _ _ hlo (by omega) (by omega) (by omega)
      · rw [if_neg hlt]
        omega
  exact hsearch size 0 size (Nat.zero_le k) hk (Nat.le_refl size) (by omega)

/-- The ranges of a table, each with the bound that opens it and the one that closes it. -/
def rangesOf : List Nat → List (Nat × Nat)
  | first :: stop :: bounds => (first, stop) :: rangesOf bounds
  | _ => []

theorem exists_split_of_mem_rangesOf {bounds : List Nat} {range : Nat × Nat} (h : range ∈ rangesOf bounds) :
    ∃ lower upper, bounds = lower ++ range.1 :: range.2 :: upper ∧ lower.length % 2 = 0 := by
  induction bounds using rangesOf.induct with
  | case1 first stop bounds ih =>
    rw [rangesOf, List.mem_cons] at h
    rcases h with rfl | h
    · exact ⟨[], bounds, rfl, rfl⟩
    · obtain ⟨lower, upper, rfl, heven⟩ := ih h
      refine ⟨first :: stop :: lower, upper, rfl, ?_⟩
      simp only [List.length_cons]
      omega
  | case2 bounds hshort =>
    rw [rangesOf] at h
    · cases h
    · exact hshort

theorem inRanges_of_mem_rangesOf {bounds : Array Nat} (hsorted : bounds.toList.Pairwise (· ≤ ·))
    {range : Nat × Nat} (hrange : range ∈ rangesOf bounds.toList) (hfirst : range.1 ≤ c.toNat)
    (hstop : c.toNat < range.2) : inRanges bounds c = true := by
  obtain ⟨lower, upper, hbounds, heven⟩ := exists_split_of_mem_rangesOf hrange
  rw [hbounds, List.pairwise_append, List.pairwise_cons, List.pairwise_cons] at hsorted
  obtain ⟨-, ⟨-, hupper, -⟩, hlower⟩ := hsorted
  have hsize : bounds.size = lower.length + 2 + upper.length := by
    rw [← Array.length_toList, hbounds]
    simp only [List.length_append, List.length_cons]
    omega
  have hrank : rank bounds.size (bounds.getD · 0) c.toNat = lower.length + 1 := by
    apply rank_eq_of_iff (by omega)
    intro i hi
    have hget : bounds.getD i 0 = (lower ++ range.1 :: range.2 :: upper).getD i 0 := by
      rw [← hbounds]
      simp [Array.getD_eq_getD_getElem?, List.getD_eq_getElem?_getD]
    rw [hget]
    rcases Nat.lt_trichotomy i lower.length with hi' | rfl | hi'
    · have hmem : (lower ++ range.1 :: range.2 :: upper).getD i 0 ∈ lower := by
        rw [List.getD_append _ _ _ _ hi']
        simp [hi']
      have := hlower _ hmem range.1 (by simp)
      omega
    · simp [hfirst]
    · have hmem : (lower ++ range.1 :: range.2 :: upper).getD i 0 ∈ range.2 :: upper := by
        rw [List.getD_append_right _ _ _ _ hi'.le,
          show i - lower.length = (i - lower.length - 1) + 1 by omega,
          List.getD_cons_succ, List.getD_eq_getElem _ _ (by simp; omega)]
        exact List.getElem_mem _
      have hle : range.2 ≤ (lower ++ range.1 :: range.2 :: upper).getD i 0 := by
        rcases List.mem_cons.mp hmem with heq | hin
        · exact heq.ge
        · exact hupper _ hin
      omega
  rw [inRanges, hrank, beq_iff_eq]
  omega

theorem lt_key_rank_search {size : Nat} (key : Nat → Nat) (x fuel lo hi : Nat) (hlo : lo ≤ hi)
    (hfuel : hi - lo ≤ fuel) (hkey : hi < size → x < key hi) :
    rank.search key x fuel lo hi < size → x < key (rank.search key x fuel lo hi) := by
  -- The key at `hi` was met and found to be beyond `x`, unless it is the end of the table.
  induction fuel generalizing lo hi with
  | zero =>
    obtain rfl : lo = hi := by omega
    exact hkey
  | succ fuel ih =>
    rw [rank.search]
    split
    case isTrue hlt =>
      dsimp only
      split
      case isTrue => exact ih _ _ (by omega) (by omega) hkey
      case isFalse hmid => exact ih _ _ (by omega) (by omega) fun _ => by omega
    case isFalse =>
      obtain rfl : lo = hi := by omega
      exact hkey

theorem mem_rangesOf_getD {bounds : List Nat} {j : Nat} (h : 2 * j + 1 < bounds.length) :
    (bounds.getD (2 * j) 0, bounds.getD (2 * j + 1) 0) ∈ rangesOf bounds := by
  induction bounds using rangesOf.induct generalizing j with
  | case1 first stop bounds ih =>
    rw [rangesOf, List.mem_cons]
    cases j with
    | zero => exact .inl rfl
    | succ j =>
      simp only [List.length_cons] at h
      exact .inr (ih (j := j) (by omega))
  | case2 bounds hshort =>
    rcases bounds with _ | ⟨first, _ | ⟨stop, bounds⟩⟩
    · cases h
    · simp at h
    · exact absurd rfl (hshort first stop bounds)

/-- A character that is found in a table whose last range is closed lies in one of its ranges. -/
theorem exists_range_of_inRanges {bounds : Array Nat} (hclosed : bounds.size % 2 = 0)
    (h : inRanges bounds c = true) :
    ∃ range ∈ rangesOf bounds.toList, range.1 ≤ c.toNat ∧ c.toNat < range.2 := by
  obtain ⟨hsize, hfirst⟩ := rank_le bounds.size (bounds.getD · 0) c.toNat
  have hstop : rank bounds.size (bounds.getD · 0) c.toNat < bounds.size →
      c.toNat < bounds.getD (rank bounds.size (bounds.getD · 0) c.toNat) 0 :=
    lt_key_rank_search _ _ _ _ _ (Nat.zero_le _) (by omega) (by omega)
  rw [inRanges, beq_iff_eq] at h
  generalize rank bounds.size (bounds.getD · 0) c.toNat = k at h hsize hfirst hstop
  obtain ⟨j, rfl⟩ : ∃ j, k = 2 * j + 1 := ⟨k / 2, by omega⟩
  have hget (i : Nat) : bounds.getD i 0 = bounds.toList.getD i 0 := by
    simp [Array.getD_eq_getD_getElem?, List.getD_eq_getElem?_getD]
  refine ⟨_, mem_rangesOf_getD (j := j) (by rw [Array.length_toList]; omega), ?_, ?_⟩
  · rw [← hget (2 * j)]
    exact hfirst (by omega)
  · rw [← hget (2 * j + 1)]
    exact hstop (by omega)

theorem wordBounds_sorted : wordBounds.toList.Pairwise (· ≤ ·) := by
  rw [← List.isChain_iff_pairwise]
  decide +kernel

theorem exists_of_foldl_dropWhile {α β : Type} {inside : α → β → Bool} {ranges : List α} {xs : List β}
    (h : ranges.foldl (fun xs range => xs.dropWhile (inside range)) xs = []) :
    ∀ x ∈ xs, ∃ range ∈ ranges, inside range x = true := by
  induction ranges generalizing xs with
  | nil => simp_all
  | cons range ranges ih =>
    intro x hx
    rw [← List.takeWhile_append_dropWhile (p := inside range) (l := xs), List.mem_append] at hx
    rcases hx with hx | hx
    · exact ⟨range, by simp, List.mem_takeWhile_imp hx⟩
    · obtain ⟨range', hmem, hinside⟩ := ih h x hx
      exact ⟨range', by simp [hmem], hinside⟩

private theorem wordBounds_hold_digits : (rangesOf wordBounds.toList).foldl
    (fun zeros range => zeros.dropWhile fun z => Nat.ble range.1 z && Nat.ble (z + 10) range.2)
    decimalZeros.toList = [] := by
  decide +kernel

theorem isWord_of_isDecimal (h : isDecimal c = true) : isWord c = true := by
  unfold isWord
  by_cases hascii : c.toNat < 128
  · have hdigit : c.isDigit = true := by
      by_contra hno
      simp [isDecimal, decimalValue?, hascii, hno] at h
    simp [hascii, Char.isAlphanum, hdigit]
  · obtain ⟨i, hi, d, hd, hc⟩ := exists_block_of_isDecimal h
    have hmem : decimalZeros.getD i 0 ∈ decimalZeros.toList := by simp [Array.getD, hi]
    obtain ⟨range, hrange, hinside⟩ := exists_of_foldl_dropWhile wordBounds_hold_digits _ hmem
    rw [Bool.and_eq_true, Nat.ble_eq, Nat.ble_eq] at hinside
    rw [if_neg hascii]
    exact inRanges_of_mem_rangesOf wordBounds_sorted hrange (by omega) (by omega)

def isHangul (c : Char) : Bool :=
  '가' ≤ c && c ≤ '힣'

theorem isWord_of_isHangul (h : isHangul c = true) : isWord c = true := by
  have hbounds : 0xac00 ≤ c.toNat ∧ c.toNat ≤ 0xd7a3 := by
    simpa [isHangul, Char.le_def, UInt32.le_iff_toNat_le] using h
  have hrange : (0xac00, 0xd7a4) ∈ rangesOf wordBounds.toList := by decide +kernel
  rw [isWord, if_neg (by omega)]
  exact inRanges_of_mem_rangesOf wordBounds_sorted hrange hbounds.1 (by omega)

end ThreatAtlas.Text
