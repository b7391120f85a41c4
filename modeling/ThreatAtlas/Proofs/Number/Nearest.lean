import ThreatAtlas.Proofs.Number.Decimal

/-!
# The nearest binary fraction

`nearest` rounds a fraction to 53 bits without a smallest unit. What it gives keeps the order of the
fractions, and is off by no more than one part in `2 ^ 53`.
-/

namespace ThreatAtlas.Number

def nearestValue (num den : ℕ) : ℚ :=
  (nearest num den).1 * 2 ^ (nearest num den).2

theorem nearestValue_nonneg (num den : ℕ) : 0 ≤ nearestValue num den :=
  mul_nonneg (Nat.cast_nonneg _) (two_zpow_pos _).le

theorem abs_nearestEven_sub_le {u : ℚ} (hu : 0 ≤ u) : |(nearestEven u : ℚ) - u| ≤ 1 / 2 := by
  have hle := Nat.floor_le hu
  have hlt := Nat.lt_floor_add_one u
  rw [abs_le]
  unfold nearestEven
  split_ifs
  · constructor <;> linarith
  · push_cast
    constructor <;> linarith
  · -- in the middle the even neighbour may be the lower or the upper one
    have hmiddle : u - ⌊u⌋₊ = 1 / 2 := by linarith
    rcases Nat.mod_two_eq_zero_or_one ⌊u⌋₊ with heven | hodd
    · rw [heven]
      push_cast
      constructor <;> linarith
    · rw [hodd]
      push_cast
      constructor <;> linarith

theorem nearestEven_lt {u v : ℚ} (hu : 0 ≤ u) (h : u + 1 < v) : nearestEven u < nearestEven v := by
  have hlow := (abs_le.mp (abs_nearestEven_sub_le hu)).2
  have hhigh := (abs_le.mp (abs_nearestEven_sub_le (by linarith : 0 ≤ v))).1
  have hlt : (nearestEven u : ℚ) < nearestEven v := by linarith
  exact_mod_cast hlt

theorem scaled_eq (num den : ℕ) (e : ℤ) :
    ((num * 2 ^ (-e).toNat : ℕ) : ℚ) / ((den * 2 ^ e.toNat : ℕ) : ℚ) = num / den / 2 ^ e := by
  have he : e = (e.toNat : ℤ) - ((-e).toNat : ℤ) := by omega
  conv_rhs => rw [he, zpow_sub₀ (by norm_num), zpow_natCast, zpow_natCast]
  push_cast
  field_simp

theorem bounds_log2 {n : ℕ} (hn : 0 < n) :
    (2 : ℚ) ^ (n.log2 : ℤ) ≤ n ∧ (n : ℚ) < 2 ^ ((n.log2 : ℤ) + 1) := by
  constructor
  · rw [zpow_natCast]
    exact_mod_cast Nat.log2_self_le hn.ne'
  · have hlt : n < 2 ^ (n.log2 + 1) := Nat.lt_log2_self
    rw [← Nat.cast_succ, zpow_natCast]
    exact_mod_cast hlt

variable {num den : ℕ} {e : ℤ} {x : ℚ}

theorem bounds_of_log2 (hnum : 0 < num) (hden : 0 < den) :
    (2 : ℚ) ^ ((num.log2 : ℤ) - den.log2 - 1) < num / den ∧
      (num : ℚ) / den < 2 ^ ((num.log2 : ℤ) - den.log2 + 1) := by
  obtain ⟨hnumLow, hnumHigh⟩ := bounds_log2 hnum
  obtain ⟨hdenLow, hdenHigh⟩ := bounds_log2 hden
  have hpos : (0 : ℚ) < den := Nat.cast_pos.mpr hden
  constructor
  · rw [lt_div_iff₀ hpos]
    calc (2 : ℚ) ^ ((num.log2 : ℤ) - den.log2 - 1) * den
        < 2 ^ ((num.log2 : ℤ) - den.log2 - 1) * 2 ^ ((den.log2 : ℤ) + 1) :=
          mul_lt_mul_of_pos_left hdenHigh (two_zpow_pos _)
      _ = 2 ^ (num.log2 : ℤ) := by
          rw [← two_zpow_add]
          congr 1
          ring
      _ ≤ num := hnumLow
  · rw [div_lt_iff₀ hpos]
    calc (num : ℚ) < 2 ^ ((num.log2 : ℤ) + 1) := hnumHigh
      _ = 2 ^ ((num.log2 : ℤ) - den.log2 + 1) * 2 ^ (den.log2 : ℤ) := by
          rw [← two_zpow_add]
          congr 1
          ring
      _ ≤ 2 ^ ((num.log2 : ℤ) - den.log2 + 1) * den :=
          mul_le_mul_of_nonneg_left hdenLow (two_zpow_pos _).le

/-- The unit `2 ^ e` leaves 53 bits of the number. -/
def HasUnit (x : ℚ) (e : ℤ) : Prop :=
  2 ^ (52 + e) ≤ x ∧ x < 2 ^ (53 + e)

theorem HasUnit.pos (h : HasUnit x e) : 0 < x :=
  (two_zpow_pos _).trans_le h.1

theorem HasUnit.le {y : ℚ} {d : ℤ} (hx : HasUnit x d) (hy : HasUnit y e) (h : x ≤ y) : d ≤ e := by
  have hlt : (2 : ℚ) ^ (52 + d) < 2 ^ (53 + e) := (hx.1.trans h).trans_lt hy.2
  rw [zpow_lt_zpow_iff_right₀ (by norm_num)] at hlt
  omega

theorem HasUnit.bounds (h : HasUnit x e) :
    2 ^ (52 : ℤ) ≤ (nearestEven (x / 2 ^ e) : ℚ) ∧ (nearestEven (x / 2 ^ e) : ℚ) ≤ 2 ^ (53 : ℤ) := by
  have hlow : ((2 ^ 52 : ℕ) : ℚ) ≤ x / 2 ^ e := by
    rw [le_div_iff₀ (two_zpow_pos e)]
    have hle := h.1
    rw [two_zpow_add] at hle
    exact_mod_cast hle
  have hhigh : x / 2 ^ e ≤ ((2 ^ 53 : ℕ) : ℚ) := by
    rw [div_le_iff₀ (two_zpow_pos e)]
    have hle := h.2.le
    rw [two_zpow_add] at hle
    exact_mod_cast hle
  have hleast := nearestEven_mono hlow
  have hmost := nearestEven_mono hhigh
  rw [nearestEven_natCast] at hleast hmost
  exact ⟨by exact_mod_cast hleast, by exact_mod_cast hmost⟩

/-- The fraction is rounded to a whole number of the units that leave it 53 bits. -/
theorem nearest_eq (hnum : 0 < num) (hden : 0 < den) :
    ∃ e, HasUnit (num / den) e ∧ nearest num den = (nearestEven (num / den / 2 ^ e), e) := by
  let low : ℤ := (num.log2 : ℤ) - den.log2 - 53
  let exponent : ℤ :=
    if num * 2 ^ (-low).toNat < 2 ^ 53 * (den * 2 ^ low.toNat) then low else low + 1
  have hnearest : nearest num den = (roundDiv (num * 2 ^ (-exponent).toNat)
      (den * 2 ^ exponent.toNat), exponent) := rfl
  have hscaled (e : ℤ) : 0 < den * 2 ^ e.toNat := by positivity
  refine ⟨exponent, ?_, by rw [hnearest, roundDiv_eq _ (hscaled _), scaled_eq]⟩
  obtain ⟨hlow, hhigh⟩ := bounds_of_log2 hnum hden
  have hcompare : num * 2 ^ (-low).toNat < 2 ^ 53 * (den * 2 ^ low.toNat) ↔
      (num : ℚ) / den < 2 ^ (53 + low) := by
    have hpos : (0 : ℚ) < ((den * 2 ^ low.toNat : ℕ) : ℚ) := Nat.cast_pos.mpr (hscaled low)
    rw [two_zpow_add, ← div_lt_iff₀ (two_zpow_pos low), ← scaled_eq, div_lt_iff₀ hpos]
    exact_mod_cast Iff.rfl
  by_cases h : num * 2 ^ (-low).toNat < 2 ^ 53 * (den * 2 ^ low.toNat)
  · rw [show exponent = low from if_pos h]
    refine ⟨?_, hcompare.mp h⟩
    rw [show 52 + low = (num.log2 : ℤ) - den.log2 - 1 by omega]
    exact hlow.le
  · rw [show exponent = low + 1 from if_neg h]
    constructor
    · rw [show 52 + (low + 1) = 53 + low by omega]
      exact not_lt.mp (mt hcompare.mpr h)
    · rw [show 53 + (low + 1) = (num.log2 : ℤ) - den.log2 + 1 by omega]
      exact hhigh

theorem nearestValue_eq (hnum : 0 < num) (hden : 0 < den) :
    ∃ e, HasUnit (num / den) e ∧ nearestValue num den = nearestEven (num / den / 2 ^ e) * 2 ^ e := by
  obtain ⟨e, hunit, hnearest⟩ := nearest_eq hnum hden
  exact ⟨e, hunit, by rw [nearestValue, hnearest]⟩

theorem nearestValue_zero (den : ℕ) : nearestValue 0 den = 0 := by
  have hzero : (nearest 0 den).1 = 0 := by
    simp [nearest, roundDiv]
  rw [nearestValue, hzero, Nat.cast_zero, zero_mul]

theorem nearestValue_mono {num' den' : ℕ} (hden : 0 < den) (hden' : 0 < den')
    (h : (num : ℚ) / den ≤ num' / den') : nearestValue num den ≤ nearestValue num' den' := by
  rcases Nat.eq_zero_or_pos num with rfl | hnum
  · rw [nearestValue_zero]
    exact nearestValue_nonneg _ _
  obtain ⟨d, hd, hvalue⟩ := nearestValue_eq hnum hden
  have hnum' : 0 < num' := by
    rcases Nat.eq_zero_or_pos num' with rfl | hpos
    · rw [Nat.cast_zero, zero_div] at h
      exact absurd hd.pos (not_lt.mpr h)
    · exact hpos
  obtain ⟨e, he, hvalue'⟩ := nearestValue_eq hnum' hden'
  rw [hvalue, hvalue']
  rcases (hd.le he h).lt_or_eq with hlt | rfl
  · -- the greater fraction has a greater unit, and so many of it that the other one does not reach it
    calc (nearestEven ((num : ℚ) / den / 2 ^ d) : ℚ) * 2 ^ d
        ≤ 2 ^ (53 : ℤ) * 2 ^ d := mul_le_mul_of_nonneg_right hd.bounds.2 (two_zpow_pos _).le
      _ = 2 ^ (53 + d) := (two_zpow_add _ _).symm
      _ ≤ 2 ^ (52 + e) := two_zpow_le (by omega)
      _ = 2 ^ (52 : ℤ) * 2 ^ e := two_zpow_add _ _
      _ ≤ nearestEven ((num' : ℚ) / den' / 2 ^ e) * 2 ^ e :=
          mul_le_mul_of_nonneg_right he.bounds.1 (two_zpow_pos _).le
  · refine mul_le_mul_of_nonneg_right ?_ (two_zpow_pos _).le
    exact_mod_cast nearestEven_mono (div_le_div_of_nonneg_right h (two_zpow_pos _).le)

/-- Rounding takes a fraction no further than one part in `2 ^ 53`. -/
theorem abs_nearestValue_sub_le (num : ℕ) (hden : 0 < den) :
    |nearestValue num den - num / den| ≤ num / den / 2 ^ (53 : ℤ) := by
  rcases Nat.eq_zero_or_pos num with rfl | hnum
  · simp [nearestValue_zero]
  obtain ⟨e, he, hvalue⟩ := nearestValue_eq hnum hden
  have hpos := two_zpow_pos e
  have hsplit : nearestValue num den - num / den =
      ((nearestEven ((num : ℚ) / den / 2 ^ e) : ℚ) - num / den / 2 ^ e) * 2 ^ e := by
    rw [hvalue, sub_mul, div_mul_cancel₀ _ hpos.ne']
  rw [hsplit, abs_mul, abs_of_pos hpos]
  have hoff := abs_nearestEven_sub_le (div_nonneg he.pos.le hpos.le)
  calc |(nearestEven ((num : ℚ) / den / 2 ^ e) : ℚ) - num / den / 2 ^ e| * 2 ^ e
      ≤ 1 / 2 * 2 ^ e := mul_le_mul_of_nonneg_right hoff hpos.le
    _ = 2 ^ (52 + e) / 2 ^ (53 : ℤ) := by
        rw [two_zpow_add]
        norm_num
        ring
    _ ≤ num / den / 2 ^ (53 : ℤ) := div_le_div_of_nonneg_right he.1 (two_zpow_pos _).le

end ThreatAtlas.Number
