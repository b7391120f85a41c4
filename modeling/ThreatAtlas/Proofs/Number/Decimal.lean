import ThreatAtlas.Proofs.Number.Amount

/-!
# Numbers made from decimals

A decimal with not too many places is read as the number nearest to it, and a number is rounded to places
by way of such a decimal. Both keep the order.
-/

namespace ThreatAtlas.Number

open Float.Model Float.Model.UnpackedFloat

/-! The exact value -/

def isNegative : Sign → Bool
  | .negative => true
  | .positive => false

def exactOf : UnpackedFloat → Exact
  | .notANumber => .nan
  | .infinity s => .infinite (isNegative s)
  | .zero s => .finite (isNegative s) 0 (-1074)
  | .finite s m e _ => .finite (isNegative s) m e

theorem toNat_unpackExponent (b : BitVec Format.binary64.numBits) :
    (unpackExponent b).toNat = b.toNat / 2 ^ 52 % 2 ^ 11 := by
  simp [unpackExponent, BitVec.extractLsb_toNat, Nat.shiftRight_eq_div_pow]

theorem toNat_unpackMantissa (b : BitVec Format.binary64.numBits) :
    (unpackMantissa b).toNat = b.toNat % 2 ^ 52 := by
  simp [unpackMantissa, BitVec.extractLsb_toNat]

theorem isNegative_unpackSign (b : BitVec Format.binary64.numBits) :
    isNegative (Sign.ofBitVec (unpackSign b)) = (b.toNat / 2 ^ 63 == 1) := by
  have hbits : b.toNat < 2 ^ 64 := b.isLt
  have hsign : (unpackSign b).toNat = b.toNat / 2 ^ 63 % 2 := by
    simp [unpackSign, BitVec.extractLsb_toNat, Nat.shiftRight_eq_div_pow]
  unfold Sign.ofBitVec
  rw [Bool.eq_iff_iff, beq_iff_eq]
  by_cases hzero : unpackSign b = 0#1
  · rw [hzero] at hsign
    rw [if_pos hzero]
    refine ⟨nofun, fun h => ?_⟩
    rw [h] at hsign
    exact absurd hsign (by decide)
  · have hne : (unpackSign b).toNat ≠ 0 := fun h => hzero (BitVec.eq_of_toNat_eq h)
    rw [if_neg hzero]
    exact ⟨fun _ => by omega, fun _ => rfl⟩

theorem exactOf_unpack (b : BitVec Format.binary64.numBits) :
    exactOf (unpack Format.binary64 b) =
      if b.toNat / 2 ^ 52 % 2 ^ 11 == 2047 then
        if b.toNat % 2 ^ 52 == 0 then .infinite (b.toNat / 2 ^ 63 == 1) else .nan
      else if b.toNat / 2 ^ 52 % 2 ^ 11 == 0 then
        .finite (b.toNat / 2 ^ 63 == 1) (b.toNat % 2 ^ 52) (-1074)
      else .finite (b.toNat / 2 ^ 63 == 1) (2 ^ 52 + b.toNat % 2 ^ 52)
        ((b.toNat / 2 ^ 52 % 2 ^ 11 : ℕ) - 1075) := by
  rw [← toNat_unpackExponent, ← toNat_unpackMantissa, ← isNegative_unpackSign]
  have hall : ((unpackExponent b).toNat == 2047) = true ↔ unpackExponent b = -1#11 := by
    rw [beq_iff_eq]
    exact ⟨fun h => BitVec.eq_of_toNat_eq h, fun h => by rw [h]; rfl⟩
  have hzero : ((unpackExponent b).toNat == 0) = true ↔ unpackExponent b = 0#11 := by
    rw [beq_iff_eq]
    exact ⟨fun h => BitVec.eq_of_toNat_eq h, fun h => by rw [h]; rfl⟩
  have hnone : ((unpackMantissa b).toNat == 0) = true ↔ unpackMantissa b = 0#52 := by
    rw [beq_iff_eq]
    exact ⟨fun h => BitVec.eq_of_toNat_eq h, fun h => by rw [h]; rfl⟩
  have hbias : ((Format.binary64.exponentBias : ℤ) + (Format.binary64.mantissaBitsWithoutImplicit : ℤ)) =
      1075 := rfl
  unfold UnpackedFloat.unpack
  dsimp only
  rw [hbias]
  simp only [hall, hzero, hnone]
  split_ifs with h₁ h₂ h₃ h₄
  · rfl
  · rfl
  · simp only [exactOf, h₄]
    rfl
  · simp only [exactOf, h₃]
    rfl
  · simp only [exactOf, toNat_one_append]

theorem exact_eq (x : Float) : exact x = exactOf x.toModel.unpack :=
  (exactOf_unpack x.toModel.toBits.toBitVec).symm

theorem fraction_eq (m : ℕ) (e : ℤ) :
    (m * 2 ^ e : ℚ) = ((fraction m e).1 : ℚ) / (fraction m e).2 ∧ 0 < (fraction m e).2 := by
  have he : e = (e.toNat : ℤ) - ((-e).toNat : ℤ) := by omega
  refine ⟨?_, show 0 < 2 ^ (-e).toNat by positivity⟩
  change _ = ((m * 2 ^ e.toNat : ℕ) : ℚ) / ((2 ^ (-e).toNat : ℕ) : ℚ)
  conv_lhs => rw [he, zpow_sub₀ (by norm_num), zpow_natCast, zpow_natCast]
  push_cast
  ring

variable {m n k places : ℕ} {x : Float} {p : Amount}

theorem compareInt_finite {s : Sign} {e : ℤ} (hx : exact x = .finite (isNegative s) m e) (n : ℤ) :
    (compareInt n x = some .lt ↔ (n : ℚ) < signedBy s (m * 2 ^ e)) ∧
      (compareInt n x = some .gt ↔ signedBy s (m * 2 ^ e) < (n : ℚ)) := by
  obtain ⟨hvalue, hden⟩ := fraction_eq m e
  have hdenq : (0 : ℚ) < (fraction m e).2 := Nat.cast_pos.mpr hden
  have hsigned : signedBy s (m * 2 ^ e) =
      ((if isNegative s then -((fraction m e).1 : ℤ) else ((fraction m e).1 : ℤ) : ℤ) : ℚ) /
        (fraction m e).2 := by
    rw [hvalue]
    cases s with
    | positive => simp [signedBy, isNegative]
    | negative => simp [signedBy, isNegative, neg_div]
  unfold compareInt
  rw [hx, hsigned, lt_div_iff₀ hdenq, div_lt_iff₀ hdenq]
  dsimp only
  rw [Option.some_inj, Option.some_inj, Int.compare_eq_lt, Int.compare_eq_gt]
  constructor <;> norm_cast

theorem compareInt_iff (hx : Worth x p) (n : ℤ) :
    (compareInt n x = some .lt ↔ .ofRat n < p) ∧ (compareInt n x = some .gt ↔ p < .ofRat n) := by
  have hexact := exact_eq x
  have hmeasures : Measures x.toModel.unpack p := hx
  generalize x.toModel.unpack = f at hmeasures hexact
  cases hmeasures with
  | infinite s =>
    unfold compareInt
    rw [hexact]
    cases s with
    | positive => simp [exactOf, isNegative, Amount.infinite, Amount.ofRat_lt_top]
    | negative => simp [exactOf, isNegative, Amount.infinite, Amount.bot_lt_ofRat]
  | @below s _ v hstands _ =>
    rw [Amount.ofRat_lt_ofRat, Amount.ofRat_lt_ofRat]
    cases hstands with
    | zero =>
      have h := compareInt_finite hexact n
      rwa [Nat.cast_zero, zero_mul] at h
    | finite => exact compareInt_finite hexact n

theorem compareInt_of_isNan (hx : IsNan x) (n : ℤ) : compareInt n x = none := by
  unfold compareInt
  rw [exact_eq, show x.toModel.unpack = .notANumber from hx]
  rfl

theorem compareInt_eq_eq (hx : Worth x p) (n : ℤ) : compareInt n x = some .eq ↔ .ofRat n = p := by
  obtain ⟨hlt, hgt⟩ := compareInt_iff hx n
  have hsome : (compareInt n x).isSome = true := by
    unfold compareInt
    rw [exact_eq]
    have hmeasures : Measures x.toModel.unpack p := hx
    generalize x.toModel.unpack = f at hmeasures
    cases hmeasures with
    | infinite s => rfl
    | below hstands _ => cases hstands <;> rfl
  obtain ⟨o, ho⟩ := Option.isSome_iff_exists.mp hsome
  rw [ho, Option.some_inj] at hlt hgt ⊢
  exact eq_iff_of_ordering hlt hgt


/-! Decimals -/

theorem rounded_of_nat (h : n < 2 ^ 53) : rounded n = n := by
  have h := rounded_natCast_mul_zpow h (show (-1074 : ℤ) ≤ 0 by norm_num)
  rwa [zpow_zero, mul_one] at h

theorem natCast_two_pow (k : ℕ) : ((2 ^ k : ℕ) : ℚ) = 2 ^ (k : ℤ) := by
  rw [Nat.cast_pow, zpow_natCast, Nat.cast_ofNat]

theorem limit_eq_zpow : limit = 2 ^ (1024 : ℤ) := by
  rw [limit_eq (show (1024 : ℤ) + 0 = 1024 from rfl), zpow_zero, mul_one]

theorem natCast_lt_limit (h : n < 2 ^ k) (hk : k ≤ 1024) : (n : ℚ) < limit := by
  calc (n : ℚ) < (2 ^ k : ℕ) := Nat.cast_lt.mpr h
    _ = 2 ^ (k : ℤ) := natCast_two_pow k
    _ ≤ 2 ^ (1024 : ℤ) := two_zpow_le (by omega)
    _ = limit := limit_eq_zpow.symm

theorem limit_le_natCast (h : 2 ^ k ≤ n) (hk : 1024 ≤ k) : limit ≤ n := by
  calc limit = 2 ^ (1024 : ℤ) := limit_eq_zpow
    _ ≤ 2 ^ (k : ℤ) := two_zpow_le (by omega)
    _ = (2 ^ k : ℕ) := (natCast_two_pow k).symm
    _ ≤ n := Nat.cast_le.mpr h

theorem clamp_natCast (h : n < 2 ^ k) (hk : k ≤ 1024) : clamp n = .ofRat n := by
  have hlimit := limit_pos
  have hn : (0 : ℚ) ≤ n := Nat.cast_nonneg n
  exact clamp_of_lt (by linarith) (natCast_lt_limit h hk)

theorem settle_natCast (h : n < 2 ^ 53) : settle (.ofRat n) = .ofRat n := by
  rw [settle_of_nonneg (Nat.cast_nonneg n), rounded_of_nat h, clamp_natCast h (by decide)]

theorem worth_toFloat_uint64 (h : n < 2 ^ 53) : Worth n.toUInt64.toFloat (.ofRat n) := by
  have hworth : Worth n.toUInt64.toFloat (settle (.ofRat ((n.toUInt64.toNat : ℤ) * 2 ^ (0 : ℤ)))) :=
    measures_normalize _ 0
  have hsame : n.toUInt64.toNat = n := by
    rw [Nat.toUInt64, UInt64.toNat_ofNat']
    omega
  rwa [zpow_zero, mul_one, Int.cast_natCast, hsame, settle_natCast h] at hworth

theorem worth_powerOfTen (e : Fin 23) :
    Worth (Float.exactlyRepresentablePowersOfTen[e]) (.ofRat (10 ^ (e : ℕ))) := by
  have htable : ∀ e : Fin 23, Float.exactlyRepresentablePowersOfTen[e] =
      .ofModel (.pack (UnpackedFloat.round Format.binary64 .positive (10 ^ (e : ℕ)) 0)) := by
    decide +kernel
  have hodd : ∀ e : Fin 23, 5 ^ (e : ℕ) < 2 ^ 53 ∧ 10 ^ (e : ℕ) < 2 ^ 80 := by
    decide +kernel
  have hstands := stands_round (s := .positive) (show 0 < 10 ^ (e : ℕ) by positivity) 0
  have hsplit : ((10 ^ (e : ℕ) : ℕ) : ℚ) * 2 ^ (0 : ℤ) = (5 ^ (e : ℕ) : ℕ) * 2 ^ ((e : ℕ) : ℤ) := by
    rw [zpow_zero, mul_one, zpow_natCast]
    push_cast
    rw [← mul_pow]
    norm_num
  have hworth := measures_pack hstands
  rw [hsplit, rounded_natCast_mul_zpow (hodd e).1 (by omega), ← hsplit, zpow_zero, mul_one] at hworth
  change Measures _ (clamp ((10 ^ (e : ℕ) : ℕ) : ℚ)) at hworth
  rw [clamp_natCast (hodd e).2 (by decide), Nat.cast_pow, Nat.cast_ofNat] at hworth
  rw [htable e]
  exact hworth

/-- What a decimal with its point moved to the right, or to the left, stands for. -/
def decimal (digits : ℕ) (left : Bool) (places : ℕ) : ℚ :=
  if left then digits / 10 ^ places else digits * 10 ^ places

theorem decimal_nonneg (digits : ℕ) (left : Bool) (places : ℕ) : 0 ≤ decimal digits left places := by
  unfold decimal
  split_ifs <;> positivity

theorem stands_ofScientific_mul (hm : 0 < m) (e : ℕ) :
    Stands .positive (roundWithAccuracy Format.binary64 .positive (m <<< 53 * 10 ^ e) (-53 + 0) .exact)
      (rounded (m * 10 ^ e)) := by
  have hlarge : 2 ^ 53 ≤ m <<< 53 * 10 ^ e := by
    rw [Nat.shiftLeft_eq]
    calc 2 ^ 53 ≤ m * 2 ^ 53 := Nat.le_mul_of_pos_left _ hm
      _ ≤ m * 2 ^ 53 * 10 ^ e := Nat.le_mul_of_pos_right _ (by positivity)
  have hvalue : ((m <<< 53 * 10 ^ e : ℕ) : ℚ) * 2 ^ (-53 + 0 : ℤ) = m * 10 ^ e := by
    rw [Nat.shiftLeft_eq]
    push_cast
    norm_num
    ring
  rw [← hvalue]
  refine stands_roundWithAccuracy (Nat.cast_pos.mpr (by omega)) (locates_exact _) ?_
  have := (Nat.le_log2 (by omega)).mpr hlarge
  rw [targetExponent_eq_max]
  omega

theorem stands_ofScientific_div (hm : 0 < m) (e : ℕ) :
    Stands .positive (let (k, t, acc) := divCore Format.binary64 m 0 (10 ^ e) 0
      roundWithAccuracy Format.binary64 .positive k t acc) (rounded (m / 10 ^ e)) := by
  have hstands := stands_divCore (s := .positive) hm (show 0 < 10 ^ e by positivity) 0 0
  rwa [zpow_zero, mul_one, mul_one, Nat.cast_pow, Nat.cast_ofNat] at hstands

theorem stands_ofScientific (hm : 0 < m) {e : ℕ} (he : e ≤ 22) (left : Bool) :
    Stands .positive (UnpackedFloat.ofScientific Format.binary64 m
      (if left then Int.negOfNat e else Int.ofNat e)) (rounded (decimal m left e)) := by
  have hpow : (2 ^ Format.binary64.exponentBits : ℤ) = 2048 := rfl
  have hmul : Stands .positive (UnpackedFloat.ofScientific Format.binary64 m (e : ℤ))
      (rounded (m * 10 ^ e)) := by
    unfold UnpackedFloat.ofScientific
    rw [dif_neg hm.ne', hpow, if_neg (by omega), if_neg (by omega), if_pos (by omega)]
    exact stands_ofScientific_mul hm e
  cases left with
  | false => exact hmul
  | true =>
    cases e with
    | zero =>
      rw [pow_zero, mul_one] at hmul
      change Stands _ _ (rounded (m / 10 ^ 0))
      rw [pow_zero, div_one]
      exact hmul
    | succ e =>
      have hneg : Int.negOfNat (e + 1) = -((e + 1 : ℕ) : ℤ) := Int.negOfNat_eq
      unfold UnpackedFloat.ofScientific
      simp only [if_true]
      rw [dif_neg hm.ne', hpow, hneg, if_neg (by omega), if_neg (by omega), if_neg (by omega)]
      exact stands_ofScientific_div hm (e + 1)

theorem worth_ofScientific (m : ℕ) {e : ℕ} (he : e ≤ 22) (left : Bool) :
    Worth (Float.ofScientific m left e) (settle (.ofRat (decimal m left e))) := by
  unfold Float.ofScientific
  by_cases hfast : m < 2 ^ 53 ∧ e ≤ 22
  · -- both the digits and the power of ten are numbers of 53 bits
    have hm := worth_toFloat_uint64 hfast.1
    have hten := worth_powerOfTen ⟨e, by omega⟩
    have hpos : (0 : ℚ) < 10 ^ e := by positivity
    rw [dif_pos hfast]
    cases left with
    | true => exact hm.div hten hpos
    | false => exact hm.mul hten hpos
  · have hm : 0 < m := by
      by_contra hzero
      exact hfast ⟨by omega, he⟩
    rw [dif_neg hfast, settle_of_nonneg (decimal_nonneg m left e)]
    exact measures_pack (stands_ofScientific hm he left)

theorem worth_toFloat (n : ℕ) : Worth n.toFloat (settle (.ofRat n)) := by
  have hworth := worth_ofScientific n (Nat.zero_le 22) false
  rwa [decimal, if_neg Bool.false_ne_true, pow_zero, mul_one] at hworth

theorem settle_eq_top {v : ℚ} (h : limit ≤ v) : settle (.ofRat v) = ⊤ := by
  have hlimit : rounded limit = limit := by
    have hone := rounded_natCast_mul_zpow (show 1 < 2 ^ 53 by norm_num) (show -1074 ≤ 1024 by norm_num)
    rwa [Nat.cast_one, one_mul, ← limit_eq_zpow] at hone
  rw [settle_of_nonneg (limit_pos.le.trans h)]
  refine clamp_of_le ?_
  rw [← hlimit]
  exact rounded_le_rounded limit_pos.le h

theorem limit_le_decimal {digits size : ℕ} (hsize : 2 ^ 1024 ≤ 10 ^ size)
    (hdigits : 10 ^ (size + places) ≤ digits) : limit ≤ (digits : ℚ) / 10 ^ places := by
  have hten : (0 : ℚ) < 10 ^ places := by positivity
  rw [le_div_iff₀ hten]
  calc limit * 10 ^ places ≤ ((10 ^ size : ℕ) : ℚ) * 10 ^ places :=
        mul_le_mul_of_nonneg_right (limit_le_natCast hsize le_rfl) hten.le
    _ = ((10 ^ (size + places) : ℕ) : ℚ) := by
        push_cast
        rw [pow_add]
    _ ≤ digits := Nat.cast_le.mpr hdigits

theorem worth_infinite : Worth (1.0 / 0.0) ⊤ := by
  have hunpack : (1.0 / 0.0 : Float).toModel.unpack = .infinity .positive := by rfl
  unfold Worth
  rw [hunpack]
  exact .infinite .positive

theorem worth_zero : Worth 0.0 (settle (.ofRat 0)) := by
  have hread := worth_ofScientific 0 (show 1 ≤ 22 by decide) true
  rwa [decimal, if_pos rfl, Nat.cast_zero, zero_div] at hread

theorem worth_ofDecimal (digits : ℕ) (h : places ≤ 22) :
    Worth (ofDecimal false digits (-(places : ℤ))) (settle (.ofRat (digits / 10 ^ places))) := by
  have hlength : 0 < (Nat.toDigits 10 digits).length := Nat.length_toDigits_pos
  unfold ofDecimal
  simp only [Bool.false_eq_true, if_false, Bool.or_eq_true, beq_iff_eq, decide_eq_true_eq]
  split_ifs with hsmall hlarge hleft
  · have hzero : digits = 0 := by omega
    rw [hzero, Nat.cast_zero, zero_div]
    exact worth_zero
  · -- more than 310 digits in front of the point
    have hdigits : 10 ^ (310 + places) ≤ digits := by
      by_contra hless
      have := (Nat.length_toDigits_le_iff (b := 10) (by decide) (by omega)).mpr (not_le.mp hless)
      omega
    rw [settle_eq_top (limit_le_decimal (by decide +kernel) hdigits)]
    exact worth_infinite
  · have hread := worth_ofScientific digits h true
    rw [decimal, if_pos rfl] at hread
    rwa [Int.natAbs_neg, Int.natAbs_natCast]
  · have hnone : places = 0 := by omega
    have hread := worth_ofScientific digits h false
    rw [decimal, if_neg Bool.false_ne_true] at hread
    rw [Int.natAbs_neg, Int.natAbs_natCast]
    rw [hnone, pow_zero, mul_one] at hread
    rw [hnone, pow_zero, div_one]
    exact hread

theorem worth_ofInt {n : ℤ} (h : 0 ≤ n) : Worth (ofInt n) (settle (.ofRat n)) := by
  have hworth := worth_ofDecimal n.natAbs (Nat.zero_le 22)
  have hcast : ((n.natAbs : ℕ) : ℚ) = n := by
    rw [← Int.cast_natCast, Int.natAbs_of_nonneg h]
  unfold ofInt
  rw [decide_eq_false h.not_gt]
  rwa [pow_zero, div_one, hcast] at hworth

theorem settle_intCast {n : ℤ} (h : 0 ≤ n) (hlt : n < 2 ^ 53) : settle (.ofRat n) = .ofRat n := by
  obtain ⟨k, rfl⟩ := Int.eq_ofNat_of_zero_le h
  rw [Int.cast_natCast]
  exact settle_natCast (by exact_mod_cast hlt)

theorem settle_pos (h : .ofRat 1 ≤ p) : .ofRat 0 < settle p := by
  have hone : settle (.ofRat 1) = .ofRat 1 := by
    rw [← Nat.cast_one]
    exact settle_natCast (by decide)
  calc Amount.ofRat 0 < .ofRat 1 := Amount.ofRat_lt_ofRat.mpr one_pos
    _ = settle (.ofRat 1) := hone.symm
    _ ≤ settle p := settle_mono h

theorem settle_nonneg (h : .ofRat 0 ≤ p) : .ofRat 0 ≤ settle p := by
  have hzero : settle (.ofRat 0) = .ofRat 0 := by
    rw [← Nat.cast_zero]
    exact settle_natCast (by decide)
  calc Amount.ofRat 0 = settle (.ofRat 0) := hzero.symm
    _ ≤ settle p := settle_mono h

def isPositive (x : Float) : Bool :=
  match x.toModel.unpack with
  | .finite .positive _ _ _ => true
  | _ => false

theorem worth_of_isPositive (h : isPositive x = true) : ∃ v, 0 < v ∧ Worth x (.ofRat v) := by
  rcases isNan_or_worth x with hnan | ⟨p, hx⟩
  · unfold isPositive at h
    rw [show x.toModel.unpack = .notANumber from hnan] at h
    cases h
  have hmeasures : Measures x.toModel.unpack p := hx
  unfold isPositive at h
  generalize x.toModel.unpack = f at hmeasures h
  cases hmeasures with
  | infinite s => cases h
  | @below s _ v hstands _ =>
    cases hstands with
    | zero => cases h
    | @finite m e hm _ _ _ =>
      cases s with
      | negative => cases h
      | positive => exact ⟨_, mul_pos (Nat.cast_pos.mpr hm) (two_zpow_pos e), hx⟩

/-! Rounding to places -/

theorem roundDiv_eq (num : ℕ) {den : ℕ} (hden : 0 < den) :
    roundDiv num den = nearestEven ((num : ℚ) / den) := by
  rw [← (locates_div num hden).roundedMantissa]
  unfold roundDiv accuracyOfFraction
  dsimp only
  generalize num / den = q
  generalize num % den = r
  by_cases hr : r = 0
  · rw [if_pos hr, if_pos (by omega)]
    rfl
  · rw [if_neg hr]
    rcases lt_trichotomy (2 * r) den with h | h | h
    · rw [Nat.compare_eq_lt.mpr h, if_pos h]
      rfl
    · rw [Nat.compare_eq_eq.mpr h, if_neg h.not_lt, if_neg h.not_gt]
      change _ = q + q % 2
      split_ifs with heven
      · rw [beq_iff_eq.mp heven, add_zero]
      · have : q % 2 ≠ 0 := fun h => heven (beq_iff_eq.mpr h)
        omega
    · rw [Nat.compare_eq_gt.mpr h, if_neg h.not_gt, if_pos h]
      rfl

theorem units_eq (places m : ℕ) (e : ℤ) :
    units places m e = nearestEven (m * 2 ^ e * 10 ^ places) := by
  obtain ⟨hvalue, hden⟩ := fraction_eq m e
  change roundDiv ((fraction m e).1 * 10 ^ places) (fraction m e).2 = _
  rw [roundDiv_eq _ hden, hvalue]
  congr 1
  push_cast
  ring

def toPlaces (places : ℕ) (v : ℚ) : ℚ :=
  nearestEven (v * 10 ^ places) / 10 ^ places

theorem toPlaces_nonneg (places : ℕ) (v : ℚ) : 0 ≤ toPlaces places v := by
  unfold toPlaces
  positivity

theorem toPlaces_mono (places : ℕ) : Monotone (mirrored (toPlaces places)) := by
  refine mirrored_mono (toPlaces_nonneg places) fun v w _ h => ?_
  have hten : (0 : ℚ) < 10 ^ places := by positivity
  refine div_le_div_of_nonneg_right ?_ hten.le
  exact_mod_cast nearestEven_mono (mul_le_mul_of_nonneg_right h hten.le)

theorem toPlaces_zero (places : ℕ) : toPlaces places 0 = 0 := by
  simp [toPlaces, nearestEven]

theorem mirrored_neg {f : ℚ → ℚ} (hzero : f 0 = 0) (v : ℚ) : mirrored f (-v) = -mirrored f v := by
  unfold mirrored
  rcases lt_trichotomy v 0 with h | rfl | h
  · rw [if_neg (by linarith), if_pos h, neg_neg]
  · simp [hzero]
  · rw [if_pos (by linarith), if_neg (by linarith), neg_neg]

def Amount.negate : Amount → Amount
  | none => ⊤
  | some none => ⊥
  | some (some v) => .ofRat (-v)

theorem clamp_neg (v : ℚ) : clamp (-v) = (clamp v).negate := by
  have := limit_pos
  rcases lt_or_ge v limit with hhigh | hhigh
  · rcases lt_or_ge (-limit) v with hlow | hlow
    · rw [clamp_of_lt hlow hhigh, clamp_of_lt (by linarith) (by linarith)]
      rfl
    · rw [clamp_of_le (show limit ≤ -v by linarith), clamp, if_pos hlow]
      rfl
  · rw [clamp_of_le hhigh, clamp, if_pos (by linarith)]
    rfl

theorem Worth.neg (h : Worth x p) : Worth (-x) p.negate := by
  change Measures (unpack Format.binary64 (pack Format.binary64 x.toModel.unpack.neg)) _
  have hx : Measures x.toModel.unpack p := h
  generalize x.toModel.unpack = f at hx
  cases hx with
  | infinite s => cases s <;> exact measures_pack_infinity _
  | @below s _ v hf hv =>
    have hneg : Stands (-s) f.neg v := by
      cases hf with
      | zero => exact .zero
      | finite hm hbits hleast hfull => exact .finite hm hbits hleast hfull
    have hworth := measures_pack hneg
    have hsigned : signedBy (-s) v = -signedBy s v := by
      cases s with
      | positive => rfl
      | negative => exact (neg_neg v).symm
    rwa [hsigned, clamp_neg, clamp_signedBy hf.nonneg, if_pos hv] at hworth

theorem settle_neg (v : ℚ) : settle (.ofRat (-v)) = (settle (.ofRat v)).negate := by
  rw [settle_ofRat, settle_ofRat, mirrored_neg rounded_zero, clamp_neg]

theorem worth_ofDecimal_signedBy (s : Sign) (digits : ℕ) (h : places ≤ 22) :
    Worth (ofDecimal (isNegative s) digits (-(places : ℤ)))
      (settle (.ofRat (signedBy s (digits / 10 ^ places)))) := by
  cases s with
  | positive => exact worth_ofDecimal digits h
  | negative =>
    change Worth (-ofDecimal false digits (-(places : ℤ))) (settle (.ofRat (-_)))
    rw [settle_neg]
    exact (worth_ofDecimal digits h).neg

theorem worth_units (s : Sign) (m : ℕ) (e : ℤ) (h : places ≤ 22) :
    Worth (ofDecimal (isNegative s) (units places m e) (-(places : ℤ)))
      (settle (.ofRat (signedBy s (toPlaces places (m * 2 ^ e))))) := by
  unfold toPlaces
  rw [← units_eq]
  exact worth_ofDecimal_signedBy s _ h

theorem isNan_round (h : IsNan x) (places : ℕ) : IsNan (round places x) := by
  unfold round
  rw [exact_eq, show x.toModel.unpack = .notANumber from h]
  exact h

theorem Worth.round (hx : Worth x p) (h : places ≤ 22) :
    Worth (round places x) (settle (p.through (mirrored (toPlaces places)))) := by
  unfold Number.round
  rw [exact_eq]
  have hmeasures : Measures x.toModel.unpack p := hx
  generalize hf : x.toModel.unpack = f at hmeasures
  cases hmeasures with
  | infinite s => cases s <;> exact hx
  | @below s _ v hstands hv =>
    rw [Amount.through_ofRat, mirrored_signedBy (toPlaces_zero places) hstands.nonneg]
    cases hstands with
    | zero =>
      have hworth := worth_units s 0 (-1074) h
      rwa [Nat.cast_zero, zero_mul] at hworth
    | @finite m e _ _ _ _ => exact worth_units s m e h

theorem Upto.round {y : Float} (hxy : Upto x y) (h : places ≤ 22) :
    Upto (round places x) (round places y) := by
  rcases hxy with hx | hy | ⟨p, q, hx, hy, hle⟩
  · exact .inl (isNan_round hx places)
  · exact .inr (.inl (isNan_round hy places))
  · exact .inr (.inr ⟨_, _, hx.round h, hy.round h,
      settle_mono (Amount.through_mono (toPlaces_mono places) hle)⟩)

end ThreatAtlas.Number
