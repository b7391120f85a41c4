import ThreatAtlas.Correlation.Group
import ThreatAtlas.Proofs.Value.Comparison

/-!
# How scores grow

A group scores no less when it is nearer, and no less when more of the clues meet it: the weighted sum,
the factor for an incident and the rounding all keep the order.
-/

namespace ThreatAtlas.Correlation

open Number (Amount Worth Upto settle)
open Value (Weighs)

private theorem worth_ofInt_of_lt {n : ℤ} (h : 0 ≤ n) (hlt : n < 2 ^ 53) :
    Worth (Number.ofInt n) (.ofRat n) := by
  rw [← Number.settle_intCast h hlt]
  exact Number.worth_ofInt h

private theorem toReal_of_lt {n : ℤ} (h : 0 ≤ n) (hlt : n < 2 ^ 53) :
    Value.toReal n = .ok (Number.ofInt n) := by
  obtain ⟨s, u, hstands, -⟩ := Number.Measures.stands (worth_ofInt_of_lt h hlt)
  unfold Value.toReal
  dsimp only
  rw [Number.exact_eq]
  generalize (Number.ofInt n).toModel.unpack = f at hstands
  cases hstands <;> rfl

variable {p : Amount} {x : Float} {g : Group} {n : ℕ}

theorem reciprocal_real (hx : Worth x p) (hp : .ofRat 0 < p) : (Value.real x).reciprocal = .ok (1.0 / x) := by
  change (if x == 0.0 then Except.error Failure.divisionByZero else pure (1.0 / x)) = _
  rw [hx.beq_zero hp]
  rfl

private theorem reciprocal_int {n : ℤ} (h : 0 < n) (hlt : n < 2 ^ 53) :
    (Value.int n).reciprocal = .ok (1.0 / Number.ofInt n) := by
  have hpos : Amount.ofRat 0 < .ofRat n := Amount.ofRat_lt_ofRat.mpr (by exact_mod_cast h)
  change (Value.toReal n >>= fun x =>
    if x == 0.0 then Except.error Failure.divisionByZero else pure (1.0 / x)) = _
  rw [toReal_of_lt h.le hlt]
  change (if Number.ofInt n == 0.0 then _ else _) = _
  rw [(worth_ofInt_of_lt h.le hlt).beq_zero hpos]
  rfl

/-- The proximity is one over a number that grows with the distance. -/
theorem proximity_of_weighs {v : Value} (hv : Weighs v p) (hleast : .ofRat 1 ≤ p) (hmost : p ≤ .ofRat 999) :
    ∃ x, proximity v = .ok (1.0 / x) ∧ Worth x (settle (.ofRat 1 + p)) := by
  cases hv with
  | @whole _ n hn =>
    rw [Amount.ofRat_le_ofRat] at hleast hmost
    have hn1 : 1 ≤ n := by exact_mod_cast hleast
    have hn2 : n ≤ 999 := by exact_mod_cast hmost
    have hadd : (Value.int 1).add v = .ok (.int (1 + n)) := by
      cases v <;> cases hn <;> rfl
    refine ⟨Number.ofInt (1 + n), ?_, ?_⟩
    · unfold proximity
      rw [hadd]
      exact reciprocal_int (by omega) (by omega)
    · have hworth := Number.worth_ofInt (show 0 ≤ 1 + n by omega)
      rwa [Int.cast_add, Int.cast_one] at hworth
  | @real x _ hx =>
    obtain ⟨r, rfl⟩ : ∃ r, p = .ofRat r := by
      rcases p.cases with rfl | rfl | hr
      · exact absurd hleast (not_le.mpr (Amount.bot_lt_ofRat 1))
      · exact absurd hmost (not_le.mpr (Amount.ofRat_lt_top 999))
      · exact hr
    have hone : Worth (Number.ofInt 1) (.ofRat 1) := by
      have hworth := worth_ofInt_of_lt (show 0 ≤ (1 : ℤ) by decide) (by decide)
      rwa [Int.cast_one] at hworth
    have hadd : (Value.int 1).add (.real x) = .ok (.real (Number.ofInt 1 + x)) := by
      change (do return Value.real ((← Value.toReal 1) + x) : Except Failure Value) = _
      rw [toReal_of_lt (by decide) (by decide)]
      rfl
    have hsum := hone.add_ofRat hx
    have hpos : Amount.ofRat 1 ≤ .ofRat (1 + r) := by
      rw [Amount.ofRat_le_ofRat] at hleast ⊢
      linarith
    refine ⟨Number.ofInt 1 + x, ?_, hsum⟩
    unfold proximity
    rw [hadd]
    exact reciprocal_real hsum (Number.settle_pos hpos)

theorem upto_proximity {v v' : Value} {p' : Amount} {x' : Float} (hv : Weighs v p) (hv' : Weighs v' p')
    (hleast : .ofRat 1 ≤ p') (hle : p' ≤ p) (hmost : p ≤ .ofRat 999) (hx : proximity v = .ok x)
    (hx' : proximity v' = .ok x') : Upto x x' := by
  obtain ⟨y, hy, hworth⟩ := proximity_of_weighs hv (hleast.trans hle) hmost
  obtain ⟨y', hy', hworth'⟩ := proximity_of_weighs hv' hleast (hle.trans hmost)
  rw [hy] at hx
  rw [hy'] at hx'
  cases hx
  cases hx'
  obtain ⟨one, hone, hworthOne⟩ := Number.worth_of_isPositive (x := 1.0) (by decide +kernel)
  have hpos : Amount.ofRat 1 ≤ .ofRat 1 + p' := by
    calc Amount.ofRat 1 = .ofRat 1 + .ofRat 0 := by rw [Amount.ofRat_add, add_zero]
      _ ≤ .ofRat 1 + p' := by
        refine add_le_add le_rfl (le_trans ?_ hleast)
        exact Amount.ofRat_le_ofRat.mpr zero_le_one
  have hdivisors : Upto y' y :=
    .inr (.inr ⟨_, _, hworth', hworth, Number.settle_mono (add_le_add le_rfl hle)⟩)
  exact Upto.div hworthOne (Amount.ofRat_le_ofRat.mpr hone.le) hworth' (Number.settle_pos hpos)
    hdivisors

theorem upto_combine {x' b b' : Float} (hx : Upto x x') (hb : Upto b b') (overlap : Float) (incident : Bool) :
    Upto (combine weights x b overlap incident) (combine weights x' b' overlap incident) := by
  obtain ⟨_, hproximity, hworthProximity⟩ :=
    Number.worth_of_isPositive (x := weights.proximity) (by decide +kernel)
  obtain ⟨_, hbreadth, hworthBreadth⟩ :=
    Number.worth_of_isPositive (x := weights.breadth) (by decide +kernel)
  obtain ⟨_, hincident, hworthIncident⟩ :=
    Number.worth_of_isPositive (x := weights.incident) (by decide +kernel)
  have hsum := ((hx.mul hworthProximity hproximity).add (hb.mul hworthBreadth hbreadth)).add
    (.refl (overlap * weights.overlap))
  cases incident with
  | false => exact hsum
  | true => exact hsum.mul hworthIncident hincident

/-- Groups alike but for their distance, or scored by another number of clues, have scores in the order
of their proximity and breadth. -/
theorem upto_ofGroup {n' : ℕ} {g' : Group} {f f' : Finding} (hf : Finding.ofGroup n g = .ok f)
    (hf' : Finding.ofGroup n' g' = .ok f') (hshared : g.shared.length = g'.shared.length)
    (hincident : g.namesIncident = g'.namesIncident)
    (hproximity : ∀ x x', proximity g.nearest = .ok x → proximity g'.nearest = .ok x' → Upto x x')
    (hbreadth : Upto (g.breadth n) (g'.breadth n')) : Upto f.score f'.score ∧ Upto f.percent f'.percent := by
  obtain ⟨raw, hraw, hf⟩ := bind_eq_ok.mp hf
  obtain ⟨raw', hraw', hf'⟩ := bind_eq_ok.mp hf'
  obtain ⟨x, hx, hraw⟩ := bind_eq_ok.mp hraw
  obtain ⟨x', hx', hraw'⟩ := bind_eq_ok.mp hraw'
  have hupto : Upto raw raw' := by
    rw [← pure_eq_ok.mp hraw, ← pure_eq_ok.mp hraw', ← hincident]
    have hsharing : g'.sharing = g.sharing := by
      unfold Group.sharing
      rw [hshared]
    rw [hsharing]
    exact upto_combine (hproximity x x' hx hx') hbreadth _ _
  rw [← pure_eq_ok.mp hf, ← pure_eq_ok.mp hf']
  obtain ⟨_, hhundred, hworthHundred⟩ :=
    Number.worth_of_isPositive (x := 100.0) (by decide +kernel)
  refine ⟨hupto.round (by decide), ?_⟩
  exact ((hupto.mul hworthHundred hhundred).round (by decide)).capped hworthHundred

private theorem settle_pos_of_pos (hn : 0 < n) : .ofRat 0 < settle (.ofRat n) := by
  refine Number.settle_pos (Amount.ofRat_le_ofRat.mpr ?_)
  exact_mod_cast hn

theorem breadth_of_no_hits (h : g.hits = []) (hn : 0 < n) : g.breadth n = 0.0 := by
  unfold Group.breadth
  rw [h]
  exact (Number.worth_toFloat n).zero_div (settle_pos_of_pos hn)

theorem upto_breadth {g' : Group} (h : g'.hits.length = g.hits.length) (hn : 0 < n) :
    Upto (g'.breadth (n + 1)) (g.breadth n) := by
  unfold Group.breadth
  rw [h]
  have hhits : Amount.ofRat 0 ≤ .ofRat g.hits.length :=
    Amount.ofRat_le_ofRat.mpr (Nat.cast_nonneg _)
  have hcounts : Amount.ofRat n ≤ .ofRat (n + 1 : ℕ) := by
    rw [Amount.ofRat_le_ofRat, Nat.cast_le]
    exact Nat.le_succ n
  refine Upto.div (Number.worth_toFloat _) (Number.settle_nonneg hhits) (Number.worth_toFloat n)
    (settle_pos_of_pos hn) (.inr (.inr ⟨_, _, Number.worth_toFloat n, Number.worth_toFloat _, ?_⟩))
  exact Number.settle_mono hcounts

theorem exists_ofGroup (h : proximity g.nearest = .ok x) (n : ℕ) : ∃ f, Finding.ofGroup n g = .ok f := by
  unfold Finding.ofGroup Group.score
  rw [h]
  exact ⟨_, rfl⟩

theorem group_of_ofGroup {f : Finding} (h : Finding.ofGroup n g = .ok f) : f.group = g.name := by
  obtain ⟨raw, -, h⟩ := bind_eq_ok.mp h
  rw [← pure_eq_ok.mp h]

theorem groups_of_mapM_ofGroup {groups : List Group} {found : List Finding}
    (h : groups.mapM (Finding.ofGroup n) = .ok found) : found.map Finding.group = groups.map Group.name :=
  map_eq_of_mapM (fun _ _ => group_of_ofGroup) h

end ThreatAtlas.Correlation
