import ThreatAtlas.Number.Binary
import ThreatAtlas.Proofs.Number.Rounding

/-!
# What a floating point number is worth

Unless it is no number, a floating point number is worth a rational number between the limits, or is
infinite. Numbers compare as their worth does. Sums, products and quotients are the exact ones, rounded;
so each of them keeps the order.
-/

namespace ThreatAtlas.Number

open Float.Model Float.Model.UnpackedFloat

/-! Packing -/

theorem unpackSign_packComponents {spec : Format} {s : Sign} {e : BitVec spec.exponentBits}
    {m : BitVec spec.mantissaBitsWithoutImplicit} :
    Sign.ofBitVec (unpackSign (packComponents spec s e m)) = s := by
  have hbit : unpackSign (packComponents spec s e m) = s.toBitVec := by
    ext i hi
    obtain rfl : i = 0 := by omega
    simp [unpackSign, packComponents, BitVec.getLsbD_append, BitVec.getElem_append]
  rw [hbit]
  cases s with
  | negative => rfl
  | positive => rfl

theorem toNat_one_append (m : BitVec 52) : (1#1 ++ m).toNat = 2 ^ 52 + m.toNat := by
  rw [BitVec.toNat_append, ← Nat.shiftLeft_add_eq_or_of_lt m.isLt]
  rfl

variable {s : Sign}
variable {e d : ℤ} {m n : ℕ} {v w : ℚ} {f g : UnpackedFloat} {p q : Amount} {x y c : Float}

theorem unpack_pack_finite (hm : 0 < m) (hbits : m < 2 ^ 53) (hleast : -1074 ≤ e)
    (hfull : 2 ^ 52 ≤ m ∨ e = -1074) (hmost : e ≤ 971) :
    unpack Format.binary64 (pack Format.binary64 (.finite s m e hm)) = .finite s m e hm := by
  have hbiased : e + Format.binary64.exponentBias + Format.binary64.mantissaBitsWithoutImplicit =
      e + 1075 := by
    change e + 1023 + 52 = e + 1075
    omega
  obtain ⟨b, hb⟩ := Int.eq_ofNat_of_zero_le (show 0 ≤ e + 1075 by omega)
  have hfits : ¬ 2 ^ Format.binary64.exponentBits ≤ b + 1 := by
    change ¬ 2048 ≤ b + 1
    omega
  unfold UnpackedFloat.pack
  dsimp only
  rw [hbiased, hb, Int.toNat_natCast, if_neg hfits]
  by_cases hnormal : 2 ^ 52 ≤ m
  · have hlog : m.log2 + 1 = Format.binary64.mantissaBits := by
      have := (Nat.le_log2 hm.ne').mpr hnormal
      have := (Nat.log2_lt hm.ne').mpr hbits
      change m.log2 + 1 = 53
      omega
    have hexponent : (BitVec.ofNat 11 b).toNat = b := by
      rw [BitVec.toNat_ofNat]
      omega
    have hall : BitVec.ofNat 11 b ≠ -1#11 := fun h => by
      have := congrArg BitVec.toNat h
      rw [hexponent] at this
      change b = 2047 at this
      omega
    have hzero : BitVec.ofNat 11 b ≠ 0#11 := fun h => by
      have := congrArg BitVec.toNat h
      rw [hexponent] at this
      change b = 0 at this
      omega
    have hmantissa : (1#1 ++ BitVec.ofNat 52 m).toNat = m := by
      rw [toNat_one_append, BitVec.toNat_ofNat]
      omega
    rw [if_pos hlog]
    unfold UnpackedFloat.unpack
    simp only [unpackMantissa_packComponents, unpackExponent_packComponents,
      unpackSign_packComponents, if_neg hall, if_neg hzero, hmantissa, hexponent]
    congr 1
    change (b : ℤ) - (1023 + 52) = e
    omega
  · have hlog : ¬ m.log2 + 1 = Format.binary64.mantissaBits := by
      have := (Nat.log2_lt hm.ne').mpr (not_le.mp hnormal)
      change ¬ m.log2 + 1 = 53
      omega
    have hmantissa : (BitVec.ofNat 52 m).toNat = m := by
      rw [BitVec.toNat_ofNat]
      omega
    have hzero : BitVec.ofNat 52 m ≠ 0#52 := fun h => by
      have := congrArg BitVec.toNat h
      rw [hmantissa] at this
      exact hm.ne' this
    rw [if_neg hlog]
    unfold UnpackedFloat.unpack
    simp only [unpackMantissa_packComponents, unpackExponent_packComponents,
      unpackSign_packComponents, if_neg (show 0#11 ≠ -1#11 by decide), dif_neg hzero, hmantissa]
    rw [if_pos trivial]
    congr 1
    rw [hfull.resolve_left hnormal]
    rfl

theorem pack_of_large (hm : 0 < m) (hlarge : 972 ≤ e) :
    pack Format.binary64 (.finite s m e hm) = pack Format.binary64 (.infinity s) := by
  have hover : 2 ^ Format.binary64.exponentBits ≤
      (e + Format.binary64.exponentBias + Format.binary64.mantissaBitsWithoutImplicit).toNat + 1 := by
    change 2048 ≤ (e + 1023 + 52).toNat + 1
    omega
  exact if_pos hover

/-! Worth -/

/-- A rational number, or one of the two infinite ones. -/
abbrev Amount := WithBot (WithTop ℚ)

namespace Amount

def ofRat (v : ℚ) : Amount :=
  ((v : WithTop ℚ) : Amount)

theorem cases (p : Amount) : p = ⊥ ∨ p = ⊤ ∨ ∃ v, p = ofRat v := by
  match p with
  | none => exact .inl rfl
  | some none => exact .inr (.inl rfl)
  | some (some v) => exact .inr (.inr ⟨v, rfl⟩)

variable {v w : ℚ}

@[simp] theorem ofRat_le_ofRat : ofRat v ≤ ofRat w ↔ v ≤ w :=
  WithBot.coe_le_coe.trans WithTop.coe_le_coe

@[simp] theorem ofRat_lt_ofRat : ofRat v < ofRat w ↔ v < w :=
  WithBot.coe_lt_coe.trans WithTop.coe_lt_coe

theorem ofRat_inj : ofRat v = ofRat w ↔ v = w :=
  WithBot.coe_inj.trans WithTop.coe_inj

theorem ofRat_add (v w : ℚ) : ofRat v + ofRat w = ofRat (v + w) :=
  rfl

theorem ofRat_lt_top (v : ℚ) : ofRat v < ⊤ :=
  WithBot.coe_lt_coe.mpr (WithTop.coe_lt_top v)

theorem bot_lt_ofRat (v : ℚ) : ⊥ < ofRat v :=
  WithBot.bot_lt_coe _

/-- A function of rational numbers that keeps infinite ones as they are. -/
def through (f : ℚ → ℚ) : Amount → Amount :=
  WithBot.map (WithTop.map f)

theorem through_ofRat (f : ℚ → ℚ) (v : ℚ) : (ofRat v).through f = ofRat (f v) :=
  rfl

theorem through_mono {f : ℚ → ℚ} (h : Monotone f) : Monotone (through f) :=
  h.withTop_map.withBot_map

end Amount

/-- From here on all numbers are infinite. -/
@[irreducible] def limit : ℚ :=
  2 ^ (1024 : ℤ)

theorem limit_eq (h : d + e = 1024) : limit = 2 ^ d * 2 ^ e := by
  rw [← two_zpow_add, h]
  unfold limit
  rfl

theorem limit_pos : 0 < limit := by
  rw [limit_eq (show (0 : ℤ) + 1024 = 1024 from rfl)]
  exact mul_pos (two_zpow_pos _) (two_zpow_pos _)

def clamp (v : ℚ) : Amount :=
  if v ≤ -limit then ⊥ else if v < limit then .ofRat v else ⊤

theorem clamp_mono : Monotone clamp := by
  intro v w h
  unfold clamp
  split_ifs with hv hw hw hw hw
  all_goals first
    | exact bot_le
    | exact le_top
    | exact Amount.ofRat_le_ofRat.mpr h
    | exact absurd h (by linarith)

theorem clamp_of_lt (hlow : -limit < v) (hhigh : v < limit) : clamp v = .ofRat v := by
  unfold clamp
  rw [if_neg (not_le.mpr hlow), if_pos hhigh]

theorem clamp_of_le (h : limit ≤ v) : clamp v = ⊤ := by
  have := limit_pos
  unfold clamp
  rw [if_neg (by linarith), if_neg (not_lt.mpr h)]

def signedBy : Sign → ℚ → ℚ
  | .positive, v => v
  | .negative, v => -v

def Amount.infinite : Sign → Amount
  | .positive => ⊤
  | .negative => ⊥

theorem clamp_signedBy (hv : 0 ≤ v) :
    clamp (signedBy s v) = if v < limit then .ofRat (signedBy s v) else .infinite s := by
  have := limit_pos
  cases s with
  | positive =>
    change clamp v = if v < limit then .ofRat v else ⊤
    unfold clamp
    rw [if_neg (show ¬ v ≤ -limit by linarith)]
  | negative =>
    change clamp (-v) = if v < limit then .ofRat (-v) else ⊥
    unfold clamp
    by_cases hlt : v < limit
    · rw [if_neg (show ¬ -v ≤ -limit by linarith), if_pos (show -v < limit by linarith), if_pos hlt]
    · rw [if_pos (show -v ≤ -limit by linarith), if_neg hlt]

inductive Measures : UnpackedFloat → Amount → Prop where
  | below {s : Sign} {f : UnpackedFloat} {v : ℚ} (h : Stands s f v) (hv : v < limit) :
    Measures f (.ofRat (signedBy s v))
  | infinite (s : Sign) : Measures (.infinity s) (.infinite s)

theorem Measures.stands (h : Measures f (.ofRat v)) : ∃ s u, Stands s f u ∧ signedBy s u = v := by
  generalize hp : Amount.ofRat v = p at h
  cases h with
  | @below s _ u h _ =>
    exact ⟨s, u, h, (Amount.ofRat_inj.mp hp).symm⟩
  | infinite s =>
    cases s with
    | positive => exact absurd hp (Amount.ofRat_lt_top v).ne
    | negative => exact absurd hp (Amount.bot_lt_ofRat v).ne'

theorem Measures.eq_infinity (h : Measures f ⊤) : f = .infinity .positive := by
  generalize hp : (⊤ : Amount) = p at h
  cases h with
  | @below s _ u _ _ => exact absurd hp (Amount.ofRat_lt_top _).ne'
  | infinite s =>
    cases s with
    | positive => rfl
    | negative => exact absurd hp (bot_lt_top (α := Amount)).ne'

theorem Measures.stands_positive (h : Measures f (.ofRat v)) (hv : 0 < v) : Stands .positive f v := by
  obtain ⟨s, u, hstands, rfl⟩ := h.stands
  cases s with
  | positive => exact hstands
  | negative => exact absurd hv (not_lt.mpr (neg_nonpos.mpr hstands.nonneg))

theorem exponent_le_iff (hbits : m < 2 ^ 53) (hfull : 2 ^ 52 ≤ m ∨ e = -1074) :
    (m * 2 ^ e : ℚ) < limit ↔ e ≤ 971 := by
  constructor
  · intro h
    by_contra hlarge
    have hm : (2 : ℚ) ^ (52 : ℤ) ≤ m := by
      exact_mod_cast hfull.resolve_right (by omega)
    refine absurd h (not_lt.mpr ?_)
    calc limit = 2 ^ (52 : ℤ) * 2 ^ (972 : ℤ) := limit_eq (by norm_num)
      _ ≤ m * 2 ^ e := mul_le_mul hm (two_zpow_le (by omega)) (two_zpow_pos _).le (Nat.cast_nonneg m)
  · intro h
    have hm : (m : ℚ) < 2 ^ (53 : ℤ) := by
      exact_mod_cast hbits
    calc (m * 2 ^ e : ℚ) < 2 ^ (53 : ℤ) * 2 ^ e := mul_lt_mul_of_pos_right hm (two_zpow_pos e)
      _ ≤ 2 ^ (53 : ℤ) * 2 ^ (971 : ℤ) :=
        mul_le_mul_of_nonneg_left (two_zpow_le h) (two_zpow_pos _).le
      _ = limit := (limit_eq (by norm_num)).symm

theorem measures_pack_infinity (s : Sign) :
    Measures (unpack Format.binary64 (pack Format.binary64 (.infinity s))) (.infinite s) := by
  have hunpack : unpack Format.binary64 (pack Format.binary64 (.infinity s)) = .infinity s := by
    cases s <;> rfl
  rw [hunpack]
  exact .infinite s

theorem measures_pack (h : Stands s f v) :
    Measures (unpack Format.binary64 (pack Format.binary64 f)) (clamp (signedBy s v)) := by
  rw [clamp_signedBy h.nonneg]
  cases h with
  | zero =>
    have hunpack : unpack Format.binary64 (pack Format.binary64 (.zero s)) = .zero s := by
      cases s <;> rfl
    rw [if_pos limit_pos, hunpack]
    exact .below .zero limit_pos
  | finite hm hbits hleast hfull =>
    split_ifs with hv
    · rw [unpack_pack_finite hm hbits hleast hfull ((exponent_le_iff hbits hfull).mp hv)]
      exact .below (.finite hm hbits hleast hfull) hv
    · have hlarge := mt (exponent_le_iff hbits hfull).mpr hv
      rw [pack_of_large hm (by omega)]
      exact measures_pack_infinity s

theorem signedBy_zero (s : Sign) : signedBy s 0 = 0 := by
  cases s with
  | positive => rfl
  | negative => exact neg_zero

theorem measures_pack_zero (s : Sign) :
    Measures (unpack Format.binary64 (pack Format.binary64 (.zero s))) (clamp 0) := by
  have h := measures_pack (Stands.zero (s := s))
  rwa [signedBy_zero] at h

/-- Every pattern of bits stands for a number that was rounded, or for none. -/
theorem exists_measures (b : BitVec Format.binary64.numBits) :
    unpack Format.binary64 b = .notANumber ∨ ∃ p, Measures (unpack Format.binary64 b) p := by
  have hmantissa : (unpackMantissa b).toNat < 2 ^ 52 := (unpackMantissa b).isLt
  have hexponent : (unpackExponent b).toNat < 2 ^ 11 := (unpackExponent b).isLt
  have hstands {m : ℕ} {e : ℤ} (hm : 0 < m) (hbits : m < 2 ^ 53) (hleast : -1074 ≤ e)
      (hfull : 2 ^ 52 ≤ m ∨ e = -1074) (hmost : e ≤ 971) :
      ∃ p, Measures (.finite (Sign.ofBitVec (unpackSign b)) m e hm) p :=
    ⟨_, .below (.finite hm hbits hleast hfull) ((exponent_le_iff hbits hfull).mpr hmost)⟩
  have hbias : ((Format.binary64.exponentBias : ℤ) + (Format.binary64.mantissaBitsWithoutImplicit : ℤ)) =
      1075 := rfl
  unfold UnpackedFloat.unpack
  dsimp only
  rw [hbias]
  split_ifs with hall hinfinite hzero hnone
  · exact .inr ⟨_, .infinite _⟩
  · exact .inl rfl
  · exact .inr ⟨_, .below .zero limit_pos⟩
  · have hleast : ((unpackExponent b).toNat : ℤ) - 1075 + 1 = -1074 := by
      rw [hzero]
      rfl
    exact .inr (hstands _ (by omega) (by omega) (.inr hleast) (by omega))
  · have hpositive : (unpackExponent b).toNat ≠ 0 := fun h => hzero (BitVec.eq_of_toNat_eq h)
    have hmost : (unpackExponent b).toNat ≠ 2047 := fun h => hall (BitVec.eq_of_toNat_eq h)
    have hone := toNat_one_append (unpackMantissa b)
    exact .inr (hstands _ (by omega) (by omega) (.inl (by omega)) (by omega))

def Worth (x : Float) (p : Amount) : Prop :=
  Measures x.toModel.unpack p

def IsNan (x : Float) : Prop :=
  x.toModel.unpack = .notANumber

theorem isNan_or_worth (x : Float) : IsNan x ∨ ∃ p, Worth x p :=
  exists_measures _

/-! Order -/

theorem size_lt_of_exponent_lt (hm : m < 2 ^ 53) (hn : 2 ^ 52 ≤ n) (h : e < d) :
    (m * 2 ^ e : ℚ) < n * 2 ^ d := by
  have hmq : (m : ℚ) < 2 ^ (53 : ℤ) := by exact_mod_cast hm
  have hnq : (2 : ℚ) ^ (52 : ℤ) ≤ n := by exact_mod_cast hn
  calc (m * 2 ^ e : ℚ) < 2 ^ (53 : ℤ) * 2 ^ e := mul_lt_mul_of_pos_right hmq (two_zpow_pos e)
    _ = 2 ^ (53 + e) := (two_zpow_add 53 e).symm
    _ ≤ 2 ^ (52 + d) := two_zpow_le (by omega)
    _ = 2 ^ (52 : ℤ) * 2 ^ d := two_zpow_add 52 d
    _ ≤ n * 2 ^ d := mul_le_mul_of_nonneg_right hnq (two_zpow_pos d).le

theorem size_lt_iff (hm : m < 2 ^ 53) (hn : n < 2 ^ 53) (he : -1074 ≤ e) (hd : -1074 ≤ d)
    (hmfull : 2 ^ 52 ≤ m ∨ e = -1074) (hnfull : 2 ^ 52 ≤ n ∨ d = -1074) :
    (m * 2 ^ e : ℚ) < n * 2 ^ d ↔ e < d ∨ e = d ∧ m < n := by
  rcases lt_trichotomy e d with h | rfl | h
  · have hlt := size_lt_of_exponent_lt hm (hnfull.resolve_right (by omega)) h
    exact ⟨fun _ => .inl h, fun _ => hlt⟩
  · rw [mul_lt_mul_iff_left₀ (two_zpow_pos e), Nat.cast_lt]
    simp
  · have hlt := size_lt_of_exponent_lt hn (hmfull.resolve_right (by omega)) h
    exact ⟨fun hgt => absurd hgt hlt.not_gt, fun hor => by omega⟩

theorem then_compare_eq_lt : (compare e d).then (compare m n) = .lt ↔ e < d ∨ e = d ∧ m < n := by
  rw [Ordering.then_eq_lt, Int.compare_eq_lt, Int.compare_eq_eq, Nat.compare_eq_lt]

theorem then_compare_eq_gt : (compare e d).then (compare m n) = .gt ↔ d < e ∨ d = e ∧ n < m := by
  rw [Ordering.then_eq_gt, Int.compare_eq_gt, Int.compare_eq_eq, Nat.compare_eq_gt, eq_comm]

theorem Measures.compare_eq_lt (hf : Measures f p) (hg : Measures g q) : f.compare g = some .lt ↔ p < q := by
  cases hf with
  | infinite s =>
    cases hg with
    | infinite t => cases s <;> cases t <;> simp [UnpackedFloat.compare, Amount.infinite, compare]
    | @below t _ w hg _ =>
      cases s <;> cases hg <;>
        simp [UnpackedFloat.compare, Amount.infinite, Amount.bot_lt_ofRat]
  | @below s _ v hf _ =>
    cases hg with
    | infinite t =>
      cases t <;> cases hf <;>
        simp [UnpackedFloat.compare, Amount.infinite, Amount.ofRat_lt_top]
    | @below t _ w hg _ =>
      rw [Amount.ofRat_lt_ofRat]
      cases hf with
      | zero =>
        cases hg with
        | zero => cases s <;> cases t <;> simp [UnpackedFloat.compare, signedBy]
        | @finite n d hn _ _ _ =>
          have hsize : (0 : ℚ) < n * 2 ^ d := mul_pos (Nat.cast_pos.mpr hn) (two_zpow_pos d)
          cases s <;> cases t <;> simp [UnpackedFloat.compare, signedBy, hsize, hsize.le]
      | @finite m e hm hbits hleast hfull =>
        have hsize : (0 : ℚ) < m * 2 ^ e := mul_pos (Nat.cast_pos.mpr hm) (two_zpow_pos e)
        cases hg with
        | zero => cases s <;> cases t <;> simp [UnpackedFloat.compare, signedBy, hsize, hsize.le]
        | @finite n d hn hnbits hnleast hnfull =>
          have hnsize : (0 : ℚ) < n * 2 ^ d := mul_pos (Nat.cast_pos.mpr hn) (two_zpow_pos d)
          cases s <;> cases t <;> simp only [UnpackedFloat.compare, signedBy]
          · rw [neg_lt_neg_iff, size_lt_iff hnbits hbits hnleast hleast hnfull hfull,
              ← then_compare_eq_gt, Option.some_inj, Ordering.swap_eq_lt]
          · exact ⟨fun _ => by linarith, fun _ => trivial⟩
          · exact ⟨nofun, fun h => by linarith⟩
          · rw [size_lt_iff hbits hnbits hleast hnleast hfull hnfull, ← then_compare_eq_lt,
              Option.some_inj]

theorem compare_swap (f g : UnpackedFloat) : f.compare g = (g.compare f).map Ordering.swap := by
  have hswap (e d : ℤ) (m n : ℕ) : (compare e d).then (compare m n) =
      ((compare d e).then (compare n m)).swap := by
    rw [Ordering.swap_then, Int.compare_swap, Nat.compare_swap]
  cases f with
  | notANumber => cases g <;> rfl
  | infinity s =>
    cases g with
    | infinity t => cases s <;> cases t <;> rfl
    | notANumber | zero _ | finite _ _ _ _ => cases s <;> rfl
  | zero s =>
    cases g with
    | notANumber | zero _ => rfl
    | infinity t | finite t _ _ _ => cases t <;> rfl
  | finite s m e hm =>
    cases g with
    | notANumber => rfl
    | infinity t => cases t <;> rfl
    | zero _ => cases s <;> rfl
    | finite t n d hn =>
      cases s <;> cases t
      · exact congrArg (fun o => some (Ordering.swap o)) (hswap e d m n)
      · rfl
      · rfl
      · exact congrArg some (hswap e d m n)

theorem eq_iff_of_ordering {o : Ordering} (hlt : o = .lt ↔ p < q) (hgt : o = .gt ↔ q < p) :
    o = .eq ↔ p = q := by
  cases o with
  | lt => exact ⟨nofun, fun h => absurd h (hlt.mp rfl).ne⟩
  | gt => exact ⟨nofun, fun h => absurd h (hgt.mp rfl).ne'⟩
  | eq =>
    have hle : p ≤ q := le_of_not_gt fun h => nomatch hgt.mpr h
    have hge : q ≤ p := le_of_not_gt fun h => nomatch hlt.mpr h
    exact ⟨fun _ => le_antisymm hle hge, fun _ => rfl⟩

theorem Measures.compare_eq_eq (hf : Measures f p) (hg : Measures g q) : f.compare g = some .eq ↔ p = q := by
  have hlt := hf.compare_eq_lt hg
  have hgt := hg.compare_eq_lt hf
  rw [compare_swap] at hgt
  have hsome : (f.compare g).isSome = true := by
    cases hf with
    | infinite s => cases hg with
      | infinite t => rfl
      | below hg _ => cases s <;> cases hg <;> rfl
    | @below s _ _ hf _ => cases hg with
      | infinite t => cases t <;> cases hf <;> rfl
      | @below t _ _ hg _ => cases hf <;> cases hg <;> cases s <;> cases t <;> rfl
  obtain ⟨o, ho⟩ := Option.isSome_iff_exists.mp hsome
  rw [ho, Option.map_some, Option.some_inj, Ordering.swap_eq_lt] at hgt
  rw [ho, Option.some_inj] at hlt ⊢
  exact eq_iff_of_ordering hlt hgt

theorem lt_iff_compare : x < y ↔ x.toModel.unpack.compare y.toModel.unpack = some .lt := by
  change decide (x.toModel < y.toModel) = true ↔ _
  rw [decide_eq_true_iff]
  change (x.toModel.unpack.compare y.toModel.unpack == some .lt) = true ↔ _
  rw [beq_iff_eq]

theorem Worth.lt_iff (hx : Worth x p) (hy : Worth y q) : x < y ↔ p < q :=
  lt_iff_compare.trans (Measures.compare_eq_lt hx hy)

theorem Worth.beq_iff (hx : Worth x p) (hy : Worth y q) : (x == y) = true ↔ p = q := by
  rw [← Measures.compare_eq_eq hx hy]
  change (x.toModel.unpack.compare y.toModel.unpack == some .eq) = true ↔ _
  rw [beq_iff_eq]

theorem IsNan.beq (h : IsNan x) (y : Float) : (x == y) = false ∧ (y == x) = false := by
  have hx : x.toModel.unpack = .notANumber := h
  constructor
  · change (x.toModel.unpack.compare y.toModel.unpack == some .eq) = false
    rw [hx]
    rfl
  · change (y.toModel.unpack.compare x.toModel.unpack == some .eq) = false
    rw [hx]
    cases y.toModel.unpack <;> rfl

/-! Operations on unpacked numbers -/

/-- A function of sizes, for numbers of both signs. -/
def mirrored (f : ℚ → ℚ) (x : ℚ) : ℚ :=
  if x < 0 then -f (-x) else f x

theorem mirrored_mono {f : ℚ → ℚ} (hnonneg : ∀ x, 0 ≤ f x)
    (hmono : ∀ x y, 0 ≤ x → x ≤ y → f x ≤ f y) : Monotone (mirrored f) := by
  intro x y h
  unfold mirrored
  split_ifs with hx hy hy
  · exact neg_le_neg (hmono _ _ (by linarith) (by linarith))
  · have hx' := hnonneg (-x)
    have hy' := hnonneg y
    linarith
  · linarith
  · exact hmono x y (by linarith) h

theorem mirrored_signedBy {f : ℚ → ℚ} (hzero : f 0 = 0) {x : ℚ} (hx : 0 ≤ x) :
    mirrored f (signedBy s x) = signedBy s (f x) := by
  cases s with
  | positive => exact if_neg hx.not_gt
  | negative =>
    rcases hx.lt_or_eq with hx | rfl
    · change mirrored f (-x) = -f x
      rw [mirrored, if_pos (neg_lt_zero.mpr hx), neg_neg]
    · change mirrored f (-0) = -f 0
      rw [mirrored, neg_zero, if_neg (lt_irrefl 0), hzero, neg_zero]

/-- An exact result, brought into the form of a number. -/
def settle : Amount → Amount
  | none => ⊥
  | some none => ⊤
  | some (some v) => clamp (mirrored rounded v)

theorem settle_ofRat (v : ℚ) : settle (.ofRat v) = clamp (mirrored rounded v) :=
  rfl

theorem settle_mono : Monotone settle := by
  intro p q h
  rcases p.cases with rfl | rfl | ⟨v, rfl⟩
  · exact bot_le
  · rw [top_le_iff.mp h]
  · rcases q.cases with rfl | rfl | ⟨w, rfl⟩
    · exact absurd h (not_le.mpr (Amount.bot_lt_ofRat v))
    · exact le_top
    · refine clamp_mono (mirrored_mono rounded_nonneg ?_ (Amount.ofRat_le_ofRat.mp h))
      exact fun _ _ => rounded_le_rounded

theorem settle_of_nonneg (h : 0 ≤ v) : settle (.ofRat v) = clamp (rounded v) := by
  rw [settle_ofRat, mirrored, if_neg h.not_gt]

theorem Stands.settle_eq (h : Stands s f v) : settle (.ofRat (signedBy s v)) = clamp (signedBy s v) := by
  rw [settle_ofRat, mirrored_signedBy rounded_zero h.nonneg, h.rounded_eq]

theorem decreaseExponent_eq (s : Sign) {t : ℤ} (ht : t ≤ e) :
    (s.apply (decreaseExponent m e t).1 : ℚ) * 2 ^ t = signedBy s (m * 2 ^ e) := by
  obtain ⟨n, hn⟩ := Int.eq_ofNat_of_zero_le (Int.sub_nonneg_of_le ht)
  dsimp only [decreaseExponent]
  rw [hn, Int.toNat_natCast, Nat.shiftLeft_eq, show e = n + t by omega, two_zpow_add, zpow_natCast]
  cases s <;> simp only [Sign.apply, signedBy] <;> push_cast <;> ring

theorem stands_normalize (m : ℤ) (e : ℤ) :
    ∃ s v, Stands s (normalize Format.binary64 m e .positive) v ∧
      signedBy s v = mirrored rounded (m * 2 ^ e) := by
  unfold UnpackedFloat.normalize
  rcases lt_trichotomy m 0 with hm | rfl | hm
  · rw [Int.compare_eq_lt.mpr hm]
    refine ⟨_, _, stands_round (show 0 < (-m).toNat by omega) e, ?_⟩
    have hcast : (((-m).toNat : ℕ) : ℚ) = -m := by
      rw [← Int.cast_natCast, Int.toNat_of_nonneg (by omega), Int.cast_neg]
    have hneg : (m : ℚ) * 2 ^ e < 0 := mul_neg_of_neg_of_pos (by exact_mod_cast hm) (two_zpow_pos e)
    rw [mirrored, if_pos hneg, hcast, neg_mul]
    rfl
  · refine ⟨_, _, .zero, ?_⟩
    rw [Int.cast_zero, zero_mul, mirrored, if_neg (lt_irrefl 0), rounded_zero, signedBy_zero]
  · rw [Int.compare_eq_gt.mpr hm]
    refine ⟨_, _, stands_round (show 0 < m.toNat by omega) e, ?_⟩
    have hcast : ((m.toNat : ℕ) : ℚ) = m := by
      rw [← Int.cast_natCast, Int.toNat_of_nonneg hm.le]
    have hpos : 0 < (m : ℚ) * 2 ^ e := mul_pos (by exact_mod_cast hm) (two_zpow_pos e)
    rw [mirrored, if_neg hpos.not_gt, hcast]
    rfl

theorem measures_normalize (m : ℤ) (e : ℤ) :
    Measures (unpack Format.binary64 (pack Format.binary64 (normalize Format.binary64 m e .positive)))
      (settle (.ofRat (m * 2 ^ e))) := by
  obtain ⟨s, v, hstands, hv⟩ := stands_normalize m e
  rw [settle_ofRat, ← hv]
  exact measures_pack hstands

theorem measures_add_stands {t : Sign} (hf : Stands s f v) (hg : Stands t g w) :
    Measures (unpack Format.binary64 (pack Format.binary64 (add Format.binary64 f g)))
      (settle (.ofRat (signedBy s v + signedBy t w))) := by
  cases hf with
  | zero =>
    rw [signedBy_zero, zero_add, hg.settle_eq]
    cases hg with
    | zero =>
      rw [signedBy_zero]
      cases s <;> cases t <;> exact measures_pack_zero _
    | finite hn hbits hleast hfull => exact measures_pack (.finite hn hbits hleast hfull)
  | @finite m e hm hbits hleast hfull =>
    cases hg with
    | zero =>
      have hf : Stands s _ _ := .finite hm hbits hleast hfull
      rw [signedBy_zero, add_zero, hf.settle_eq]
      exact measures_pack hf
    | @finite n d hn _ _ _ =>
      rw [← decreaseExponent_eq s (min_le_left e d), ← decreaseExponent_eq t (min_le_right e d),
        ← add_mul, ← Int.cast_add]
      exact measures_normalize _ _

/-- A sum is the exact one, rounded, unless both infinities are added. -/
theorem measures_add (hf : Measures f p) (hg : Measures g q) : add Format.binary64 f g = .notANumber ∨
      Measures (unpack Format.binary64 (pack Format.binary64 (add Format.binary64 f g)))
        (settle (p + q)) := by
  cases hf with
  | infinite s =>
    cases hg with
    | infinite t =>
      cases s <;> cases t <;> first
        | exact .inl rfl
        | exact .inr (measures_pack_infinity _)
    | below hg _ => cases s <;> cases hg <;> exact .inr (measures_pack_infinity _)
  | @below s _ v hf _ =>
    cases hg with
    | infinite t => cases t <;> cases hf <;> exact .inr (measures_pack_infinity _)
    | @below t _ w hg _ => exact .inr (measures_add_stands hf hg)

theorem measures_mul {c : ℚ} (hf : Measures f p) (hg : Stands .positive g c) (hc : 0 < c) :
    Measures (unpack Format.binary64 (pack Format.binary64 (mul Format.binary64 f g)))
      (settle (p.through (· * c))) := by
  cases hg with
  | zero => exact absurd hc (lt_irrefl 0)
  | @finite n d hn hnbits hnleast hnfull =>
    cases hf with
    | infinite s => cases s <;> exact measures_pack_infinity _
    | @below s _ _ hf _ =>
      rw [Amount.through_ofRat]
      cases hf with
      | zero =>
        rw [signedBy_zero, zero_mul, ← signedBy_zero s, Stands.zero.settle_eq, signedBy_zero]
        exact measures_pack_zero _
      | @finite m e hm hbits hleast hfull =>
        have hmn : 0 < m * n := Nat.mul_pos hm hn
        have hvalue : signedBy s (m * 2 ^ e) * (n * 2 ^ d : ℚ) = signedBy s ((m * n : ℕ) * 2 ^ (e + d)) := by
          rw [two_zpow_add]
          cases s <;> simp only [signedBy] <;> push_cast <;> ring
        have hmul : mul Format.binary64 (.finite s m e hm) (.finite .positive n d hn) =
            roundWithAccuracy Format.binary64 s (m * n) (e + d) .exact := by
          cases s <;> rfl
        rw [hvalue, settle_ofRat, mirrored_signedBy rounded_zero
          (mul_nonneg (Nat.cast_nonneg _) (two_zpow_pos _).le)]
        rw [hmul]
        refine measures_pack (stands_roundWithAccuracy (Nat.cast_pos.mpr hmn) (locates_exact _) ?_)
        rw [targetExponent_eq_max]
        by_cases hfew : m * n < 2 ^ 52
        · have hm' : m ≤ m * n := Nat.le_mul_of_pos_right m hn
          have hn' : n ≤ m * n := Nat.le_mul_of_pos_left n hm
          have := hfull.resolve_left (by omega)
          have := hnfull.resolve_left (by omega)
          omega
        · have := (Nat.le_log2 hmn.ne').mpr (not_lt.mp hfew)
          omega

theorem measures_div (hf : Stands s f v) (hg : Stands .positive g w) (hw : 0 < w) :
    Measures (unpack Format.binary64 (pack Format.binary64 (div Format.binary64 f g)))
      (settle (.ofRat (signedBy s v / w))) := by
  have hquot : signedBy s v / w = signedBy s (v / w) := by
    cases s with
    | positive => rfl
    | negative => exact neg_div w v
  rw [hquot, settle_ofRat, mirrored_signedBy rounded_zero (div_nonneg hf.nonneg hw.le)]
  cases hg with
  | zero => exact absurd hw (lt_irrefl 0)
  | @finite n d hn _ _ _ =>
    cases hf with
    | zero =>
      rw [zero_div, rounded_zero, signedBy_zero]
      exact measures_pack_zero _
    | @finite m e hm _ _ _ =>
      have hdiv := measures_pack (stands_divCore (s := s) hm hn e d)
      cases s <;> exact hdiv

/-! Operations on numbers -/

theorem isNan_of_pack (hx : x.toModel.unpack = unpack Format.binary64 (pack Format.binary64 f))
    (hf : f = .notANumber) : IsNan x := by
  unfold IsNan
  rw [hx, hf]
  rfl

theorem IsNan.add_left (h : IsNan x) (y : Float) : IsNan (x + y) := by
  refine isNan_of_pack (f := add Format.binary64 x.toModel.unpack y.toModel.unpack) rfl ?_
  rw [show x.toModel.unpack = .notANumber from h]
  cases y.toModel.unpack <;> rfl

theorem IsNan.add_right (h : IsNan y) (x : Float) : IsNan (x + y) := by
  refine isNan_of_pack (f := add Format.binary64 x.toModel.unpack y.toModel.unpack) rfl ?_
  rw [show y.toModel.unpack = .notANumber from h]
  cases x.toModel.unpack <;> rfl

theorem IsNan.mul_left (h : IsNan x) (y : Float) : IsNan (x * y) := by
  refine isNan_of_pack (f := mul Format.binary64 x.toModel.unpack y.toModel.unpack) rfl ?_
  rw [show x.toModel.unpack = .notANumber from h]
  cases y.toModel.unpack <;> rfl

theorem IsNan.div_right (h : IsNan y) (x : Float) : IsNan (x / y) := by
  refine isNan_of_pack (f := div Format.binary64 x.toModel.unpack y.toModel.unpack) rfl ?_
  rw [show y.toModel.unpack = .notANumber from h]
  cases x.toModel.unpack <;> rfl

theorem Worth.add (hx : Worth x p) (hy : Worth y q) : IsNan (x + y) ∨ Worth (x + y) (settle (p + q)) :=
  (measures_add hx hy).imp_left (isNan_of_pack rfl)

theorem Worth.add_ofRat (hx : Worth x (.ofRat v)) (hy : Worth y (.ofRat w)) :
    Worth (x + y) (settle (.ofRat (v + w))) := by
  obtain ⟨s, u, hx', rfl⟩ := Measures.stands hx
  obtain ⟨t, r, hy', rfl⟩ := Measures.stands hy
  exact measures_add_stands hx' hy'

theorem Worth.mul {c : ℚ} (hx : Worth x p) (hy : Worth y (.ofRat c)) (hc : 0 < c) :
    Worth (x * y) (settle (p.through (· * c))) :=
  measures_mul hx (hy.stands_positive hc) hc

theorem Worth.div (hx : Worth x (.ofRat v)) (hy : Worth y (.ofRat w)) (hw : 0 < w) :
    Worth (x / y) (settle (.ofRat (v / w))) := by
  obtain ⟨s, u, hstands, rfl⟩ := Measures.stands hx
  exact measures_div hstands (hy.stands_positive hw) hw

/-- `x` is at most `y`, or one of them is no number. -/
def Upto (x y : Float) : Prop :=
  IsNan x ∨ IsNan y ∨ ∃ p q, Worth x p ∧ Worth y q ∧ p ≤ q

theorem Upto.refl (x : Float) : Upto x x := by
  rcases isNan_or_worth x with h | ⟨p, h⟩
  · exact .inl h
  · exact .inr (.inr ⟨p, p, h, h, le_rfl⟩)

theorem IsNan.not_lt_left (h : IsNan x) (y : Float) : ¬ x < y := by
  rw [lt_iff_compare, show x.toModel.unpack = .notANumber from h]
  exact nofun

theorem IsNan.not_lt_right (h : IsNan y) (x : Float) : ¬ x < y := by
  rw [lt_iff_compare, show y.toModel.unpack = .notANumber from h]
  cases x.toModel.unpack <;> exact nofun

theorem IsNan.not_worth (h : IsNan x) : ¬ Worth x p := by
  intro hx
  have hmeasures : Measures x.toModel.unpack p := hx
  rw [show x.toModel.unpack = .notANumber from h] at hmeasures
  cases hmeasures with
  | below hstands _ => cases hstands

theorem Upto.not_lt (h : Upto x y) : ¬ y < x := by
  rcases h with h | h | ⟨p, q, hx, hy, hle⟩
  · exact h.not_lt_right y
  · exact h.not_lt_left x
  · rw [hy.lt_iff hx]
    exact hle.not_gt

theorem Upto.add {d : Float} (h : Upto x y) (h' : Upto c d) : Upto (x + c) (y + d) := by
  rcases h with h | h | ⟨p, q, hx, hy, hle⟩
  · exact .inl (h.add_left c)
  · exact .inr (.inl (h.add_left d))
  · rcases h' with h | h | ⟨r, t, hc, hd, hle'⟩
    · exact .inl (h.add_right x)
    · exact .inr (.inl (h.add_right y))
    · rcases hx.add hc with h | hxc
      · exact .inl h
      rcases hy.add hd with h | hyd
      · exact .inr (.inl h)
      exact .inr (.inr ⟨_, _, hxc, hyd, settle_mono (add_le_add hle hle')⟩)

theorem Upto.mul (h : Upto x y) (hc : Worth c (.ofRat v)) (hv : 0 < v) : Upto (x * c) (y * c) := by
  rcases h with h | h | ⟨p, q, hx, hy, hle⟩
  · exact .inl (h.mul_left c)
  · exact .inr (.inl (h.mul_left c))
  · refine .inr (.inr ⟨_, _, hx.mul hc hv, hy.mul hc hv, settle_mono ?_⟩)
    exact Amount.through_mono (fun _ _ h => mul_le_mul_of_nonneg_right h hv.le) hle

theorem Worth.unique (h : Worth x p) (h' : Worth x q) : p = q := by
  have hself : ¬ x < x := fun hlt => lt_irrefl p ((h.lt_iff h).mp hlt)
  refine le_antisymm ?_ ?_
  · exact not_lt.mp fun hlt => hself ((h'.lt_iff h).mpr hlt)
  · exact not_lt.mp fun hlt => hself ((h.lt_iff h').mpr hlt)

theorem settle_zero : settle (.ofRat 0) = clamp 0 := by
  rw [settle_of_nonneg le_rfl, rounded_zero]

theorem Worth.top_div (hx : Worth x ⊤) (hy : Worth y (.ofRat w)) (hw : 0 < w) : Worth (x / y) ⊤ := by
  have hy' := hy.stands_positive hw
  change Measures (unpack Format.binary64 (pack Format.binary64 (.div Format.binary64 _ _))) ⊤
  rw [Measures.eq_infinity hx]
  generalize y.toModel.unpack = g at hy'
  cases hy' with
  | zero => exact absurd hw (lt_irrefl 0)
  | finite => exact measures_pack_infinity .positive

theorem Worth.div_top (hx : Worth x (.ofRat v)) (hy : Worth y ⊤) : Worth (x / y) (settle (.ofRat 0)) := by
  obtain ⟨s, u, hx', rfl⟩ := Measures.stands hx
  change Measures (unpack Format.binary64 (pack Format.binary64 (.div Format.binary64 _ _))) _
  rw [Measures.eq_infinity hy, settle_zero]
  generalize x.toModel.unpack = f at hx'
  cases hx' with
  | zero => exact measures_pack_zero _
  | finite => exact measures_pack_zero _

theorem upto_of_top (hy : Worth y ⊤) : Upto x y := by
  rcases isNan_or_worth x with h | ⟨p, h⟩
  · exact .inl h
  · exact .inr (.inr ⟨p, ⊤, h, hy, le_top⟩)

theorem Upto.div {b : Float} (hx : Worth x p) (hp : .ofRat 0 ≤ p) (hb : Worth b q) (hq : .ofRat 0 < q)
    (h : Upto b c) : Upto (x / c) (x / b) := by
  rcases h with h | h | ⟨q', r, hb', hc, hle⟩
  · exact .inr (.inl (h.div_right x))
  · exact .inl (h.div_right x)
  obtain rfl := hb.unique hb'
  rcases q.cases with rfl | rfl | ⟨w, rfl⟩
  · exact absurd hq not_lt_bot
  · -- both are infinite, and so the same
    obtain rfl := top_le_iff.mp hle
    have hsame : x / c = x / b := by
      change Float.ofModel (.pack (UnpackedFloat.div _ _ c.toModel.unpack)) =
        .ofModel (.pack (UnpackedFloat.div _ _ b.toModel.unpack))
      rw [Measures.eq_infinity hb, Measures.eq_infinity hc]
    rw [hsame]
    exact .refl _
  have hw : 0 < w := Amount.ofRat_lt_ofRat.mp hq
  rcases p.cases with rfl | rfl | ⟨v, rfl⟩
  · exact absurd hp (not_le.mpr (Amount.bot_lt_ofRat 0))
  · exact upto_of_top (hx.top_div hb hw)
  have hv : 0 ≤ v := Amount.ofRat_le_ofRat.mp hp
  have hquot := hx.div hb hw
  rcases r.cases with rfl | rfl | ⟨t, rfl⟩
  · exact absurd hle (not_le.mpr (Amount.bot_lt_ofRat w))
  · refine .inr (.inr ⟨_, _, hx.div_top hc, hquot, settle_mono ?_⟩)
    exact Amount.ofRat_le_ofRat.mpr (div_nonneg hv hw.le)
  · have hwt : w ≤ t := Amount.ofRat_le_ofRat.mp hle
    refine .inr (.inr ⟨_, _, hx.div hc (hw.trans_le hwt), hquot, settle_mono ?_⟩)
    exact Amount.ofRat_le_ofRat.mpr (div_le_div_of_nonneg_left hv hw hwt)

theorem Upto.capped {r : Amount} (h : Upto x y) (hc : Worth c r) :
    Upto (if c < x then c else x) (if c < y then c else y) := by
  rcases h with h | h | ⟨p, q, hx, hy, hle⟩
  · rw [if_neg (h.not_lt_right c)]
    exact .inl h
  · rw [if_neg (h.not_lt_right c)]
    exact .inr (.inl h)
  · rw [if_congr (hc.lt_iff hx) rfl rfl, if_congr (hc.lt_iff hy) rfl rfl]
    split_ifs with hp hq hq
    · exact .refl c
    · exact absurd (hp.trans_le hle) hq
    · exact .inr (.inr ⟨p, r, hx, hc, le_of_not_gt hp⟩)
    · exact .inr (.inr ⟨p, q, hx, hy, hle⟩)

theorem Worth.zero_div (hy : Worth y q) (hq : .ofRat 0 < q) : (0.0 : Float) / y = 0.0 := by
  have hdiv : UnpackedFloat.div Format.binary64 (.zero .positive) y.toModel.unpack =
      .zero .positive := by
    rcases q.cases with rfl | rfl | ⟨v, rfl⟩
    · exact absurd hq not_lt_bot
    · rw [Measures.eq_infinity hy]
      rfl
    · have hv : 0 < v := Amount.ofRat_lt_ofRat.mp hq
      have hstands := hy.stands_positive hv
      generalize y.toModel.unpack = f at hstands
      cases hstands with
      | zero => exact absurd hv (lt_irrefl 0)
      | finite => rfl
  change Float.ofModel (Float.Model.pack
    (UnpackedFloat.div Format.binary64 (.zero .positive) y.toModel.unpack)) = _
  rw [hdiv]
  rfl

theorem Worth.beq_zero (hx : Worth x p) (hp : .ofRat 0 < p) : (x == 0.0) = false := by
  have hzero : Worth 0.0 (.ofRat 0) := Measures.below (.zero (s := .positive)) limit_pos
  rw [Bool.eq_false_iff, ne_eq, hx.beq_iff hzero]
  exact hp.ne'

end ThreatAtlas.Number
