import Mathlib

/-!
# Rounding to 53 bits

A positive rational number is rounded to the nearest multiple of a power of two, which is chosen so that
53 bits are left, but not below the smallest one there is. Rounding keeps the order. The rounding of
floating point numbers, with its two extra bits, comes to the same.
-/

namespace ThreatAtlas.Number

/-- The whole number nearest to `u`, a tie going to the even one. -/
def nearestEven (u : ℚ) : ℕ :=
  if u - ⌊u⌋₊ < 1 / 2 then ⌊u⌋₊
  else if 1 / 2 < u - ⌊u⌋₊ then ⌊u⌋₊ + 1
  else ⌊u⌋₊ + ⌊u⌋₊ % 2

theorem nearestEven_natCast (n : ℕ) : nearestEven n = n := by
  simp [nearestEven]

theorem floor_le_nearestEven (u : ℚ) : ⌊u⌋₊ ≤ nearestEven u := by
  unfold nearestEven
  split_ifs <;> omega

theorem nearestEven_le (u : ℚ) : nearestEven u ≤ ⌊u⌋₊ + 1 := by
  unfold nearestEven
  split_ifs <;> omega

variable {u v x y : ℚ} {e : ℤ} {m : ℕ} {em : ExtendedMantissa}

theorem nearestEven_mono (h : u ≤ v) : nearestEven u ≤ nearestEven v := by
  rcases (Nat.floor_le_floor h).lt_or_eq with hlt | heq
  · calc nearestEven u ≤ ⌊u⌋₊ + 1 := nearestEven_le u
      _ ≤ ⌊v⌋₊ := hlt
      _ ≤ nearestEven v := floor_le_nearestEven v
  · -- between two whole numbers the one further up is on the same side of the middle or beyond it
    unfold nearestEven
    rw [← heq]
    split_ifs <;> first | omega | linarith

/-- The power of two of which a number is rounded to a multiple. -/
def unitOf (x : ℚ) : ℤ :=
  max (Int.log 2 x - 52) (-1074)

def rounded (x : ℚ) : ℚ :=
  nearestEven (x / 2 ^ unitOf x) * 2 ^ unitOf x

theorem two_zpow_pos (e : ℤ) : (0 : ℚ) < 2 ^ e :=
  zpow_pos (by norm_num) e

theorem two_zpow_le {d : ℤ} (h : d ≤ e) : (2 : ℚ) ^ d ≤ 2 ^ e :=
  zpow_le_zpow_right₀ (by norm_num) h

theorem two_zpow_add (d e : ℤ) : (2 : ℚ) ^ (d + e) = 2 ^ d * 2 ^ e :=
  zpow_add₀ (by norm_num) d e

theorem le_unitOf (x : ℚ) : -1074 ≤ unitOf x :=
  le_max_right _ _

theorem unitOf_mono (hx : 0 < x) (h : x ≤ y) : unitOf x ≤ unitOf y :=
  max_le_max (Int.sub_le_sub_right (Int.log_mono_right hx h) 52) le_rfl

theorem div_unitOf_le (x : ℚ) : x / 2 ^ unitOf x ≤ ((2 ^ 53 : ℕ) : ℚ) := by
  have hlog : x < 2 ^ (Int.log 2 x + 1) := by
    exact_mod_cast Int.lt_zpow_succ_log_self (b := 2) (by decide) x
  have hunit : (2 : ℚ) ^ (Int.log 2 x + 1) ≤ 2 ^ (53 + unitOf x) := by
    refine two_zpow_le ?_
    unfold unitOf
    omega
  rw [div_le_iff₀ (two_zpow_pos _)]
  rw [two_zpow_add 53] at hunit
  push_cast
  exact (hlog.trans_le hunit).le

theorem le_div_unitOf (hx : 0 < x) (hunit : unitOf x ≠ -1074) : ((2 ^ 52 : ℕ) : ℚ) ≤ x / 2 ^ unitOf x := by
  have hlog : (2 : ℚ) ^ Int.log 2 x ≤ x := by
    exact_mod_cast Int.zpow_log_le_self (b := 2) (by decide) hx
  have heq : Int.log 2 x = 52 + unitOf x := by
    unfold unitOf at *
    omega
  rw [heq, two_zpow_add] at hlog
  rw [le_div_iff₀ (two_zpow_pos _)]
  push_cast
  exact hlog

theorem nearestEven_unitOf_le (x : ℚ) : nearestEven (x / 2 ^ unitOf x) ≤ 2 ^ 53 := by
  simpa only [nearestEven_natCast] using nearestEven_mono (div_unitOf_le x)

theorem le_nearestEven_unitOf (hx : 0 < x) (hunit : unitOf x ≠ -1074) :
    2 ^ 52 ≤ nearestEven (x / 2 ^ unitOf x) := by
  simpa only [nearestEven_natCast] using nearestEven_mono (le_div_unitOf hx hunit)

theorem rounded_mono (hx : 0 < x) (h : x ≤ y) : rounded x ≤ rounded y := by
  rcases (unitOf_mono hx h).lt_or_eq with hlt | heq
  · -- the greater number has a greater unit, and so many of it that the other one does not reach it
    have hmost : (nearestEven (x / 2 ^ unitOf x) : ℚ) ≤ 2 ^ (53 : ℤ) := by
      exact_mod_cast nearestEven_unitOf_le x
    have hleast : (2 : ℚ) ^ (52 : ℤ) ≤ nearestEven (y / 2 ^ unitOf y) := by
      have hunit : unitOf y ≠ -1074 := by
        have := le_unitOf x
        omega
      exact_mod_cast le_nearestEven_unitOf (hx.trans_le h) hunit
    calc rounded x ≤ 2 ^ (53 : ℤ) * 2 ^ unitOf x :=
          mul_le_mul_of_nonneg_right hmost (two_zpow_pos _).le
      _ = 2 ^ (53 + unitOf x) := (two_zpow_add _ _).symm
      _ ≤ 2 ^ (52 + unitOf y) := two_zpow_le (by omega)
      _ = 2 ^ (52 : ℤ) * 2 ^ unitOf y := two_zpow_add _ _
      _ ≤ rounded y := mul_le_mul_of_nonneg_right hleast (two_zpow_pos _).le
  · unfold rounded
    rw [heq]
    refine mul_le_mul_of_nonneg_right ?_ (two_zpow_pos _).le
    exact_mod_cast nearestEven_mono (div_le_div_of_nonneg_right h (two_zpow_pos _).le)

theorem rounded_zero : rounded 0 = 0 := by
  simp [rounded, nearestEven]

theorem rounded_nonneg (x : ℚ) : 0 ≤ rounded x :=
  mul_nonneg (Nat.cast_nonneg _) (two_zpow_pos _).le

theorem rounded_le_rounded (hx : 0 ≤ x) (h : x ≤ y) : rounded x ≤ rounded y := by
  rcases hx.lt_or_eq with hx | rfl
  · exact rounded_mono hx h
  · rw [rounded_zero]
    exact rounded_nonneg y

theorem log_mul_zpow (hm : m ≠ 0) (hle : (m : ℚ) ≤ u) (hlt : u < m + 1) (e : ℤ) :
    Int.log 2 (u * 2 ^ e) = m.log2 + e := by
  have hu : 0 < u := (Nat.cast_pos.mpr (Nat.pos_of_ne_zero hm)).trans_le hle
  have hx : 0 < u * 2 ^ e := mul_pos hu (two_zpow_pos e)
  have hlow : (2 : ℚ) ^ ((m.log2 : ℤ) + e) ≤ u * 2 ^ e := by
    rw [two_zpow_add, zpow_natCast]
    refine mul_le_mul_of_nonneg_right (le_trans ?_ hle) (two_zpow_pos e).le
    exact_mod_cast Nat.log2_self_le hm
  have hhigh : u * 2 ^ e < (2 : ℚ) ^ ((m.log2 : ℤ) + 1 + e) := by
    rw [two_zpow_add]
    refine mul_lt_mul_of_pos_right (hlt.trans_le ?_) (two_zpow_pos e)
    exact_mod_cast Nat.lt_log2_self
  apply le_antisymm
  · have := (Int.lt_zpow_iff_log_lt (b := 2) (by decide) hx).mp (by exact_mod_cast hhigh)
    omega
  · exact (Int.zpow_le_iff_le_log (b := 2) (by decide) hx).mp (by exact_mod_cast hlow)

theorem rounded_natCast_mul_zpow {n : ℕ} (hn : n < 2 ^ 53) (he : -1074 ≤ e) :
    rounded (n * 2 ^ e) = n * 2 ^ e := by
  by_cases hzero : n = 0
  · rw [hzero, Nat.cast_zero, zero_mul, rounded_zero]
  · have hunit : unitOf (n * 2 ^ e) ≤ e := by
      have := (Nat.log2_lt hzero).mpr hn
      unfold unitOf
      rw [log_mul_zpow hzero le_rfl (lt_add_one _)]
      omega
    obtain ⟨j, hj⟩ := Int.eq_ofNat_of_zero_le (Int.sub_nonneg_of_le hunit)
    have hwhole : (n * 2 ^ e : ℚ) / 2 ^ unitOf (n * 2 ^ e) = (n * 2 ^ j : ℕ) := by
      rw [mul_div_assoc, ← zpow_sub₀ (by norm_num), hj]
      push_cast
      rfl
    unfold rounded
    rw [hwhole, nearestEven_natCast, ← hwhole, div_mul_cancel₀ _ (two_zpow_pos _).ne']

open Float.Model Float.Model.UnpackedFloat

/-- The mantissa is the whole part of `u`; the two bits tell where between it and the next one `u` is. -/
def Locates (em : ExtendedMantissa) (u : ℚ) : Prop :=
  match em.roundBit, em.stickyBit with
  | false, false => u = em.mantissa
  | false, true => (em.mantissa : ℚ) < u ∧ u < em.mantissa + 1 / 2
  | true, false => u = em.mantissa + 1 / 2
  | true, true => em.mantissa + 1 / 2 < u ∧ u < em.mantissa + 1

theorem locates_exact (m : ℕ) : Locates (.ofMantissaAndAccuracy m .exact) m :=
  rfl

theorem Locates.bounds (h : Locates em u) : (em.mantissa : ℚ) ≤ u ∧ u < em.mantissa + 1 := by
  obtain ⟨m, roundBit, stickyBit⟩ := em
  cases roundBit <;> cases stickyBit <;> simp only [Locates] at h ⊢ <;> constructor <;> linarith

theorem Locates.floor (h : Locates em u) : ⌊u⌋₊ = em.mantissa := by
  obtain ⟨hle, hlt⟩ := h.bounds
  exact (Nat.floor_eq_iff ((Nat.cast_nonneg _).trans hle)).mpr ⟨hle, hlt⟩

theorem Locates.shiftRightOne (h : Locates em u) : Locates em.shiftRightOne (u / 2) := by
  obtain ⟨m, roundBit, stickyBit⟩ := em
  -- the last bit of the mantissa becomes the first of the two, and the other one remembers both
  have hsplit : (m : ℚ) = 2 * (m / 2 : ℕ) + (m % 2 : ℕ) := by
    exact_mod_cast (Nat.div_add_mod m 2).symm
  rcases Nat.mod_two_eq_zero_or_one m with hbit | hbit <;>
    cases roundBit <;> cases stickyBit <;>
    simp [Locates, ExtendedMantissa.shiftRightOne, hbit] at h hsplit ⊢ <;>
    first | linarith | constructor <;> linarith

theorem Locates.shiftRight (h : Locates em u) (n : ℕ) : Locates (em >>> n) (u / 2 ^ n) := by
  change Locates (n.repeat ExtendedMantissa.shiftRightOne em) _
  induction n with
  | zero => simpa [Nat.repeat] using h
  | succ n ih =>
    rw [pow_succ, ← div_div]
    exact ih.shiftRightOne

theorem Locates.roundedMantissa (h : Locates em u) : em.roundedMantissa = nearestEven u := by
  have hfloor := h.floor
  obtain ⟨m, roundBit, stickyBit⟩ := em
  unfold nearestEven
  rw [hfloor]
  cases roundBit <;> cases stickyBit <;> simp only [Locates] at h ⊢
  · rw [if_pos (by linarith)]
    rfl
  · rw [if_pos (by linarith)]
    rfl
  · rw [if_neg (by linarith), if_neg (by linarith)]
    rfl
  · rw [if_neg (by linarith), if_pos (by linarith)]
    rfl

theorem targetExponent_eq_max (m : ℕ) (e : ℤ) :
    Format.binary64.targetExponent (totalExponent m e) = max (m.log2 + e - 52) (-1074) := by
  change max ((m.log2 : ℤ) + 1 + e - 53) (-1074) = _
  congr 1
  omega

theorem targetExponent_eq (hu : 0 < u) (hle : (m : ℚ) ≤ u) (hlt : u < m + 1)
    (he : e ≤ Format.binary64.targetExponent (totalExponent m e)) :
    Format.binary64.targetExponent (totalExponent m e) = unitOf (u * 2 ^ e) := by
  rw [targetExponent_eq_max] at he ⊢
  unfold unitOf
  by_cases hm : m = 0
  · -- less than one: the unit is the smallest for both
    have hx : u * 2 ^ e < 2 ^ e := by
      rw [hm, Nat.cast_zero, zero_add] at hlt
      exact mul_lt_of_lt_one_left (two_zpow_pos e) hlt
    have hlog : Int.log 2 (u * 2 ^ e) < e :=
      (Int.lt_zpow_iff_log_lt (b := 2) (by decide) (mul_pos hu (two_zpow_pos e))).mp
        (by exact_mod_cast hx)
    rw [hm] at he ⊢
    rw [Nat.log2_zero] at he ⊢
    omega
  · rw [log_mul_zpow hm hle hlt]

/-- An unpacked number of a sign and a size, of 53 bits unless its exponent is the least. -/
inductive Stands (s : Sign) : UnpackedFloat → ℚ → Prop where
  | zero : Stands s (.zero s) 0
  | finite {m : ℕ} {e : ℤ} (hm : 0 < m) (hbits : m < 2 ^ 53) (hleast : -1074 ≤ e)
      (hfull : 2 ^ 52 ≤ m ∨ e = -1074) : Stands s (.finite s m e hm) (m * 2 ^ e)

variable {s : Sign}

theorem Stands.rounded_eq {f : UnpackedFloat} (h : Stands s f v) : rounded v = v := by
  cases h with
  | zero => exact rounded_zero
  | finite hm hbits hleast hfull => exact rounded_natCast_mul_zpow hbits hleast

theorem Stands.nonneg {f : UnpackedFloat} (h : Stands s f v) : 0 ≤ v := by
  rw [← h.rounded_eq]
  exact rounded_nonneg v

theorem shiftToExponent_of_le {t : ℤ} (h : t ≤ e) (acc : Accuracy) :
    shiftToExponent m e acc t = (.ofMantissaAndAccuracy m acc, e) := by
  have hnone : (t - e).toNat = 0 := by omega
  unfold shiftToExponent
  rw [hnone]
  simp only [Nat.cast_zero, add_zero]
  rfl

/-- The second shift, after rounding, only matters when the mantissa has run over. -/
theorem stands_shifted {k : ℕ} {t : ℤ} (hk : k ≤ 2 ^ 53) (ht : -1074 ≤ t)
    (hfull : 2 ^ 52 ≤ k ∨ t = -1074) :
    Stands s (let (em, e) := shiftToTargetExponent Format.binary64 k t .exact
      if h : em.mantissa = 0 then .zero s
      else .finite s em.mantissa e (Nat.pos_of_ne_zero h)) (k * 2 ^ t) := by
  unfold shiftToTargetExponent
  rw [targetExponent_eq_max]
  rcases hk.lt_or_eq with hlt | rfl
  · have hlog : k.log2 ≤ 52 := by
      by_cases hzero : k = 0
      · rw [hzero, Nat.log2_zero]
        omega
      · have := (Nat.log2_lt hzero).mpr hlt
        omega
    rw [shiftToExponent_of_le (by omega)]
    dsimp only [ExtendedMantissa.ofMantissaAndAccuracy]
    by_cases hzero : k = 0
    · rw [dif_pos hzero, hzero, Nat.cast_zero, zero_mul]
      exact .zero
    · rw [dif_neg hzero]
      exact .finite _ hlt ht hfull
  · have hshift : max ((Nat.log2 (2 ^ 53) : ℤ) + t - 52) (-1074) = t + 1 := by
      rw [Nat.log2_two_pow]
      omega
    have hvalue : ((2 ^ 53 : ℕ) : ℚ) * 2 ^ t = ((2 ^ 52 : ℕ) : ℚ) * 2 ^ (t + 1) := by
      rw [two_zpow_add]
      push_cast
      ring
    have hone : (t + 1 - t).toNat = 1 := by omega
    rw [hshift, hvalue]
    dsimp only [shiftToExponent]
    rw [hone]
    exact Stands.finite (m := 2 ^ 52) (by norm_num) (by norm_num) (by omega) (.inl le_rfl)

/-- Rounding gives the number of 53 bits that is nearest, whatever the bits to start from, unless
they are too few. -/
theorem stands_roundWithAccuracy {acc : Accuracy} (hu : 0 < u) (h : Locates (.ofMantissaAndAccuracy m acc) u)
    (he : e ≤ Format.binary64.targetExponent (totalExponent m e)) :
    Stands s (roundWithAccuracy Format.binary64 s m e acc) (rounded (u * 2 ^ e)) := by
  obtain ⟨hle, hlt⟩ := h.bounds
  have hmantissa : (ExtendedMantissa.ofMantissaAndAccuracy m acc).mantissa = m := by
    unfold ExtendedMantissa.ofMantissaAndAccuracy
    split <;> rfl
  rw [hmantissa] at hle hlt
  have htarget := targetExponent_eq hu hle hlt he
  have hx : 0 < u * 2 ^ e := mul_pos hu (two_zpow_pos e)
  rw [htarget] at he
  obtain ⟨n, hn⟩ := Int.eq_ofNat_of_zero_le (Int.sub_nonneg_of_le he)
  have hshift : shiftToTargetExponent Format.binary64 m e acc =
      (ExtendedMantissa.ofMantissaAndAccuracy m acc >>> n, unitOf (u * 2 ^ e)) := by
    dsimp only [shiftToTargetExponent, shiftToExponent]
    rw [htarget, hn, Int.toNat_natCast, ← hn]
    congr 1
    omega
  have hscaled : u / 2 ^ n = u * 2 ^ e / 2 ^ unitOf (u * 2 ^ e) := by
    have hunit : unitOf (u * 2 ^ e) = e + n := by omega
    rw [hunit, two_zpow_add, zpow_natCast, mul_comm u, mul_div_mul_left _ _ (two_zpow_pos e).ne']
  unfold roundWithAccuracy
  rw [hshift]
  dsimp only
  rw [(h.shiftRight n).roundedMantissa, hscaled]
  refine stands_shifted (nearestEven_unitOf_le _) (le_unitOf _) ?_
  by_cases hunit : unitOf (u * 2 ^ e) = -1074
  · exact .inr hunit
  · exact .inl (le_nearestEven_unitOf hx hunit)

/-- A number can be given too few bits: it is then written with more of them. -/
theorem stands_round (hm : 0 < m) (e : ℤ) :
    Stands s (UnpackedFloat.round Format.binary64 s m e) (rounded (m * 2 ^ e)) := by
  unfold UnpackedFloat.round decreaseExponent
  dsimp only
  set t := Format.binary64.targetExponent (totalExponent m e) with ht
  set n := (e - t).toNat with hn
  have hm' : 0 < m <<< n := by
    rw [Nat.shiftLeft_eq]
    positivity
  have hmore : ((m <<< n : ℕ) : ℚ) * 2 ^ (e - n) = m * 2 ^ e := by
    rw [Nat.shiftLeft_eq, Nat.cast_mul, mul_assoc]
    congr 1
    push_cast
    rw [← zpow_natCast, ← two_zpow_add]
    congr 1
    omega
  have hlog : ((m <<< n).log2 : ℤ) + (e - n) = m.log2 + e := by
    rw [← log_mul_zpow hm'.ne' le_rfl (lt_add_one _), hmore,
      log_mul_zpow hm.ne' le_rfl (lt_add_one _)]
  rw [← hmore]
  refine stands_roundWithAccuracy (Nat.cast_pos.mpr hm') (locates_exact _) ?_
  rw [targetExponent_eq_max] at ht ⊢
  omega

theorem locates_div (m : ℕ) {n : ℕ} (hn : 0 < n) :
    Locates (.ofMantissaAndAccuracy (m / n) (accuracyOfFraction (m % n) n)) ((m : ℚ) / n) := by
  have hnq : (0 : ℚ) < n := Nat.cast_pos.mpr hn
  have hsplit : (m : ℚ) / n = (m / n : ℕ) + ((m % n : ℕ) : ℚ) / n := by
    have hm : (m : ℚ) = n * (m / n : ℕ) + (m % n : ℕ) := by
      exact_mod_cast (Nat.div_add_mod m n).symm
    rw [eq_comm, ← mul_left_inj' hnq.ne', add_mul, div_mul_cancel₀ _ hnq.ne',
      div_mul_cancel₀ _ hnq.ne', mul_comm]
    exact hm.symm
  have hrest : (((m % n : ℕ) : ℚ) / n) < 1 :=
    (div_lt_one hnq).mpr (by exact_mod_cast Nat.mod_lt m hn)
  rw [hsplit]
  generalize m / n = q
  generalize m % n = r at hrest
  unfold accuracyOfFraction
  by_cases hr : r = 0
  · rw [if_pos hr, hr, Nat.cast_zero, zero_div, add_zero]
    exact locates_exact q
  · have hrq : (0 : ℚ) < r := Nat.cast_pos.mpr (Nat.pos_of_ne_zero hr)
    have hpos : (0 : ℚ) < r / n := div_pos hrq hnq
    rw [if_neg hr]
    rcases lt_trichotomy (2 * r) n with h | h | h
    · have hhalf : (r : ℚ) / n < 1 / 2 := by
        rw [div_lt_div_iff₀ hnq (by norm_num)]
        have : (2 * r : ℚ) < n := by exact_mod_cast h
        linarith
      rw [Nat.compare_eq_lt.mpr h]
      exact ⟨lt_add_of_pos_right _ hpos, add_lt_add_right hhalf _⟩
    · have hhalf : (r : ℚ) / n = 1 / 2 := by
        rw [div_eq_div_iff hnq.ne' (by norm_num)]
        have : (2 * r : ℚ) = n := by exact_mod_cast h
        linarith
      rw [Nat.compare_eq_eq.mpr h, hhalf]
      exact rfl
    · have hhalf : 1 / 2 < (r : ℚ) / n := by
        rw [div_lt_div_iff₀ (by norm_num) hnq]
        have : (n : ℚ) < 2 * r := by exact_mod_cast h
        linarith
      rw [Nat.compare_eq_gt.mpr h]
      exact ⟨add_lt_add_right hhalf _, add_lt_add_right hrest _⟩

theorem stands_divCore {m₁ m₂ : ℕ} (hm₁ : 0 < m₁) (hm₂ : 0 < m₂) (e₁ e₂ : ℤ) :
    Stands s (let (m, e, acc) := divCore Format.binary64 m₁ e₁ m₂ e₂
      roundWithAccuracy Format.binary64 s m e acc)
      (rounded (m₁ * 2 ^ e₁ / (m₂ * 2 ^ e₂))) := by
  unfold divCore
  dsimp only
  set t := min (e₁ - e₂)
    (Format.binary64.targetExponent (totalExponent m₁ e₁ - totalExponent m₂ e₂)) with ht
  obtain ⟨n, hn⟩ := Int.eq_ofNat_of_zero_le (show 0 ≤ e₁ - e₂ - t by omega)
  rw [hn, Int.toNat_natCast]
  have hm₂q : (0 : ℚ) < m₂ := Nat.cast_pos.mpr hm₂
  have hvalue : (m₁ * 2 ^ e₁ / (m₂ * 2 ^ e₂) : ℚ) = ((m₁ <<< n : ℕ) : ℚ) / m₂ * 2 ^ t := by
    rw [Nat.shiftLeft_eq, mul_div_mul_comm, ← zpow_sub₀ (by norm_num),
      show e₁ - e₂ = n + t by omega, two_zpow_add, zpow_natCast]
    push_cast
    ring
  have hshifted : 0 < m₁ <<< n := by
    rw [Nat.shiftLeft_eq]
    positivity
  rw [hvalue]
  refine stands_roundWithAccuracy (div_pos (Nat.cast_pos.mpr hshifted) hm₂q) (locates_div _ hm₂) ?_
  rw [targetExponent_eq_max]
  by_cases hleast : t ≤ -1074
  · omega
  · -- the numerator was given 53 bits more than the denominator has
    have hbits : m₂.log2 + 53 ≤ m₁.log2 + n := by
      have htarget : t ≤ max ((m₁.log2 : ℤ) + 1 + e₁ - (m₂.log2 + 1 + e₂) - 53) (-1074) :=
        min_le_right _ _
      omega
    have hquot : 2 ^ 52 ≤ m₁ <<< n / m₂ := by
      rw [Nat.le_div_iff_mul_le hm₂, Nat.shiftLeft_eq]
      calc 2 ^ 52 * m₂ ≤ 2 ^ 52 * 2 ^ (m₂.log2 + 1) :=
            Nat.mul_le_mul_left _ Nat.lt_log2_self.le
        _ = 2 ^ (m₂.log2 + 53) := by
            rw [← Nat.pow_add]
            congr 1
            omega
        _ ≤ 2 ^ (m₁.log2 + n) := Nat.pow_le_pow_right (by decide) hbits
        _ = 2 ^ m₁.log2 * 2 ^ n := Nat.pow_add ..
        _ ≤ m₁ * 2 ^ n := Nat.mul_le_mul_right _ (Nat.log2_self_le hm₁.ne')
    have := (Nat.le_log2 (by omega)).mpr hquot
    omega

end ThreatAtlas.Number
