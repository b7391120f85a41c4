import ThreatAtlas.Value.Arithmetic
import ThreatAtlas.Proofs.Failure
import ThreatAtlas.Proofs.Number.Decimal
import ThreatAtlas.Proofs.Value

/-!
# Comparing numbers among values

Truth values, whole numbers and reals compare by what they are worth, across their kinds. What is no
number is less than nothing, and a value of another kind cannot be compared with a number.
-/

namespace ThreatAtlas.Value

open Number (Amount IsNan Worth)

/-- The value is a number that is worth `p`. -/
inductive Weighs : Value → Amount → Prop
  | whole {v : Value} {n : ℤ} (h : v.asInt? = some n) : Weighs v (.ofRat n)
  | real {x : Float} {p : Amount} (h : Worth x p) : Weighs (.real x) p

theorem weighs_int (n : ℤ) : Weighs (.int n) (.ofRat n) :=
  .whole rfl

variable {p q : Amount} {v w u : Value} {x : Float}

theorem Weighs.unique (h : Weighs v p) (h' : Weighs v q) : p = q := by
  cases h with
  | whole h =>
    cases h' with
    | whole h' => rw [Option.some_inj.mp (h.symm.trans h')]
    | real => cases h
  | real h =>
    cases h' with
    | whole h' => cases h'
    | real h' => exact h.unique h'

theorem less_of_weighs (hv : Weighs v p) (hw : Weighs w q) : v.less w = .ok (decide (p < q)) := by
  cases hv with
  | @whole _ m hm =>
    cases hw with
    | @whole _ n hn =>
      have hcast : decide (Amount.ofRat m < .ofRat n) = decide (m < n) := by
        rw [decide_eq_decide, Amount.ofRat_lt_ofRat, Int.cast_lt]
      rw [hcast]
      cases v <;> cases hm <;> cases w <;> cases hn <;> rfl
    | @real y _ hy =>
      have hcompare : (Number.compareInt m y == some .lt) = decide (Amount.ofRat m < q) := by
        rw [Bool.eq_iff_iff, beq_iff_eq, decide_eq_true_iff]
        exact (Number.compareInt_iff hy m).1
      rw [← hcompare]
      cases v <;> cases hm <;> rfl
  | @real x _ hx =>
    cases hw with
    | @whole _ n hn =>
      have hcompare : (Number.compareInt n x == some .gt) = decide (p < Amount.ofRat n) := by
        rw [Bool.eq_iff_iff, beq_iff_eq, decide_eq_true_iff]
        exact (Number.compareInt_iff hx n).2
      rw [← hcompare]
      cases w <;> cases hn <;> rfl
    | @real y _ hy =>
      have hlt : decide (x < y) = decide (p < q) := by
        rw [decide_eq_decide]
        exact hx.lt_iff hy
      rw [← hlt]
      rfl

theorem less_of_isNan (hx : IsNan x) (hv : Weighs v p) : (Value.real x).less v = .ok false := by
  cases hv with
  | @whole _ n hn =>
    have hcompare : (Number.compareInt n x == some .gt) = false := by
      rw [Number.compareInt_of_isNan hx]
      rfl
    rw [← hcompare]
    cases v <;> cases hn <;> rfl
  | @real y _ _ =>
    have hlt : decide (x < y) = false := decide_eq_false (hx.not_lt_left y)
    rw [← hlt]
    rfl

theorem lesser_of_weighs (hv : Weighs v p) (hw : Weighs w q) : v.lesser w = .ok (if q < p then w else v) := by
  unfold lesser
  rw [less_of_weighs hw hv]
  by_cases h : q < p
  · rw [if_pos h, decide_eq_true h]
    rfl
  · rw [if_neg h, decide_eq_false h]
    rfl

/-- A value is a number, or leaves every number it is compared with, or cannot be compared. -/
theorem lesser_cases (w : Value) :
    (∃ q, Weighs w q) ∨ (∀ v p, Weighs v p → v.lesser w = .ok v) ∨
      ∀ v p, Weighs v p → ∃ e, v.lesser w = .error e := by
  have hother (herror : ∀ v p, Weighs v p → ∃ e, w.less v = .error e) (v : Value) (p : Amount)
      (hv : Weighs v p) : ∃ e, v.lesser w = .error e := by
    obtain ⟨e, he⟩ := herror v p hv
    refine ⟨e, ?_⟩
    unfold lesser
    rw [he]
    rfl
  cases w with
  | bool b => exact .inl ⟨_, .whole rfl⟩
  | int n => exact .inl ⟨_, .whole rfl⟩
  | real x =>
    rcases Number.isNan_or_worth x with hnan | ⟨q, hx⟩
    · refine .inr (.inl fun v p hv => ?_)
      unfold lesser
      rw [less_of_isNan hnan hv]
      rfl
    · exact .inl ⟨q, .real hx⟩
  | null | text _ | unpaired _ | list _ | record _ | under _ _ =>
    refine .inr (.inr (hother fun v p hv => ?_))
    cases hv with
    | whole hn => cases v <;> cases hn <;> exact ⟨_, rfl⟩
    | real => exact ⟨_, rfl⟩

theorem lesser_again (hv : Weighs v p) (h : v.lesser w = .ok u) :
    ∃ q, Weighs u q ∧ q ≤ p ∧ u.lesser w = .ok u := by
  rcases lesser_cases w with ⟨q, hw⟩ | hkept | hfails
  · rw [lesser_of_weighs hv hw] at h
    cases h
    by_cases hlt : q < p
    · rw [if_pos hlt]
      refine ⟨q, hw, hlt.le, ?_⟩
      rw [lesser_of_weighs hw hw, if_neg (lt_irrefl q)]
    · rw [if_neg hlt]
      refine ⟨p, hv, le_rfl, ?_⟩
      rw [lesser_of_weighs hv hw, if_neg hlt]
  · rw [hkept v p hv] at h
    cases h
    exact ⟨p, hv, le_rfl, hkept v p hv⟩
  · obtain ⟨e, he⟩ := hfails v p hv
    rw [he] at h
    cases h

theorem lesser_of_le (hv : Weighs v p) (h : v.lesser w = .ok v) (hu : Weighs u q) (hle : q ≤ p) :
    u.lesser w = .ok u := by
  rcases lesser_cases w with ⟨r, hw⟩ | hkept | hfails
  · have hge : ¬ r < p := by
      intro hlt
      rw [lesser_of_weighs hv hw, if_pos hlt, Except.ok.injEq] at h
      rw [h] at hw
      exact hlt.ne (hw.unique hv)
    rw [lesser_of_weighs hu hw, if_neg fun hlt => hge (hlt.trans_le hle)]
  · exact hkept u q hu
  · obtain ⟨e, he⟩ := hfails v p hv
    rw [he] at h
    cases h

/-- What makes two values equal that are neither lists nor records. -/
inductive Matches : Value → Value → Prop
  | null : Matches .null .null
  | text (s : String) : Matches (.text s) (.text s)
  | unpaired (t : Unpaired) : Matches (.unpaired t) (.unpaired t)
  | number {v w : Value} {p : Amount} (hv : Weighs v p) (hw : Weighs w p) : Matches v w
  | nan {x y : Float} (hx : IsNan x) (hy : IsNan y) : Matches (.real x) (.real y)

theorem Matches.symm (h : Matches v w) : Matches w v := by
  cases h with
  | null => exact .null
  | text s => exact .text s
  | unpaired t => exact .unpaired t
  | number hv hw => exact .number hw hv
  | nan hx hy => exact .nan hy hx

theorem IsNan.not_weighs (h : IsNan x) : ¬ Weighs (.real x) p := by
  intro hweighs
  cases hweighs with
  | whole h => cases h
  | real hx => exact h.not_worth hx

theorem Matches.trans (h : Matches u v) (h' : Matches v w) : Matches u w := by
  cases h with
  | null => exact h'
  | text s => exact h'
  | unpaired t => exact h'
  | number hu hv =>
    cases h' with
    | null | text _ | unpaired _ =>
      cases hv with
      | whole h => cases h
    | number hv' hw =>
      rw [hv.unique hv'] at hu
      exact .number hu hw
    | nan hx _ => exact absurd hv (IsNan.not_weighs hx)
  | nan hx hy =>
    cases h' with
    | number hv _ => exact absurd hv (IsNan.not_weighs hy)
    | nan _ hz => exact .nan hx hz

theorem same_of_weighs (hv : Weighs v p) (hw : Weighs w q) : v.sameScalar w = true ↔ p = q := by
  cases hv with
  | @whole _ m hm =>
    cases hw with
    | @whole _ n hn =>
      have hsame : v.sameScalar w = (m == n) := by
        cases v <;> cases hm <;> cases w <;> cases hn <;> rfl
      rw [hsame, beq_iff_eq, Amount.ofRat_inj, Int.cast_inj]
    | @real y _ hy =>
      have hsame : v.sameScalar (.real y) = (Number.compareInt m y == some .eq) := by
        cases v <;> cases hm <;> rfl
      rw [hsame, beq_iff_eq, Number.compareInt_eq_eq hy]
  | @real x _ hx =>
    cases hw with
    | @whole _ n hn =>
      have hsame : (Value.real x).sameScalar w = (Number.compareInt n x == some .eq) := by
        cases w <;> cases hn <;> rfl
      rw [hsame, beq_iff_eq, Number.compareInt_eq_eq hx, eq_comm]
    | @real y _ hy =>
      have hself : (x != x) = false := by
        rw [bne, (hx.beq_iff hx).mpr rfl]
        rfl
      change (x == y || (x != x && y != y)) = true ↔ _
      rw [hself, Bool.false_and, Bool.or_false, hx.beq_iff hy]

theorem beq_eq_sameScalar (hv : v.hashable = .ok v) (w : Value) : (v == w) = v.sameScalar w := by
  rw [beq_eq_same]
  cases v with
  | list _ | record _ | under _ _ => cases hv
  | _ => simp [same]

theorem Weighs.hashable (h : Weighs v p) : v.hashable = .ok v := by
  cases h with
  | whole h => cases v <;> cases h <;> rfl
  | real => rfl

theorem beq_iff_of_weighs (hv : Weighs v p) : (v == w) = true ↔ Weighs w p := by
  have hnumber {q : Amount} (hw : Weighs w q) : v.sameScalar w = true ↔ Weighs w p := by
    rw [same_of_weighs hv hw]
    constructor
    · rintro rfl
      exact hw
    · exact fun hw' => hw'.unique hw
  rw [beq_eq_sameScalar hv.hashable]
  cases w with
  | bool b => exact hnumber (.whole rfl)
  | int n => exact hnumber (.whole rfl)
  | real y =>
    rcases Number.isNan_or_worth y with hnan | ⟨q, hy⟩
    · refine iff_of_false ?_ (IsNan.not_weighs hnan)
      cases hv with
      | @whole _ n hn =>
        have hsame : v.sameScalar (.real y) = (Number.compareInt n y == some .eq) := by
          cases v <;> cases hn <;> rfl
        rw [hsame, Number.compareInt_of_isNan hnan]
        nofun
      | @real x _ hx =>
        change ¬ (x == y || (x != x && y != y)) = true
        rw [(hnan.beq x).2, bne, (hx.beq_iff hx).mpr rfl]
        nofun
    · exact hnumber (.real hy)
  | null | text _ | unpaired _ | list _ | record _ | under _ _ =>
    refine iff_of_false ?_ fun hw => ?_
    · cases hv with
      | whole hn => cases v <;> cases hn <;> nofun
      | real => nofun
    · cases hw with
      | whole h => cases h

theorem beq_iff_of_isNan (hx : IsNan x) : (Value.real x == w) = true ↔ ∃ y, w = .real y ∧ IsNan y := by
  have hself : (x != x) = true := by
    rw [bne, (hx.beq x).1]
    rfl
  rw [beq_eq_sameScalar rfl]
  cases w with
  | real y =>
    change (x == y || (x != x && y != y)) = true ↔ _
    rw [(hx.beq y).1, hself, Bool.false_or, Bool.true_and]
    rcases Number.isNan_or_worth y with hy | ⟨q, hy⟩
    · rw [bne, (hy.beq y).1]
      exact iff_of_true rfl ⟨y, rfl, hy⟩
    · rw [bne, (hy.beq_iff hy).mpr rfl]
      refine iff_of_false nofun ?_
      rintro ⟨_, ⟨⟩, hnan⟩
      exact hnan.not_worth hy
  | bool b =>
    change (Number.compareInt _ x == some .eq) = true ↔ _
    rw [Number.compareInt_of_isNan hx]
    exact iff_of_false nofun nofun
  | int n =>
    change (Number.compareInt _ x == some .eq) = true ↔ _
    rw [Number.compareInt_of_isNan hx]
    exact iff_of_false nofun nofun
  | null | text _ | unpaired _ | list _ | record _ | under _ _ => exact iff_of_false nofun nofun

theorem cases_of_hashable (hv : v.hashable = .ok v) :
    v = .null ∨ (∃ s, v = .text s) ∨ (∃ t, v = .unpaired t) ∨ (∃ p, Weighs v p) ∨
      ∃ x, v = .real x ∧ IsNan x := by
  cases v with
  | null => exact .inl rfl
  | text s => exact .inr (.inl ⟨s, rfl⟩)
  | unpaired t => exact .inr (.inr (.inl ⟨t, rfl⟩))
  | bool b => exact .inr (.inr (.inr (.inl ⟨_, .whole rfl⟩)))
  | int n => exact .inr (.inr (.inr (.inl ⟨_, .whole rfl⟩)))
  | real x =>
    rcases Number.isNan_or_worth x with hx | ⟨p, hx⟩
    · exact .inr (.inr (.inr (.inr ⟨x, rfl, hx⟩)))
    · exact .inr (.inr (.inr (.inl ⟨p, .real hx⟩)))
  | list _ | record _ | under _ _ => cases hv

theorem unpaired_beq_iff {t : Unpaired} : (Value.unpaired t == w) = true ↔ w = .unpaired t := by
  rw [beq_eq_sameScalar rfl]
  cases w with
  | unpaired t' => rw [sameScalar, beq_iff_eq, unpaired.injEq, eq_comm]
  | _ => simp [sameScalar, asInt?]

theorem beq_iff_matches (hv : v.hashable = .ok v) : (v == w) = true ↔ Matches v w := by
  constructor
  · intro h
    rcases cases_of_hashable hv with rfl | ⟨s, rfl⟩ | ⟨t, rfl⟩ | ⟨p, hv⟩ | ⟨x, rfl, hx⟩
    · rw [beq_eq_sameScalar rfl] at h
      cases w with
      | null => exact .null
      | _ => cases h
    · rw [text_beq_iff.mp h]
      exact .text s
    · rw [unpaired_beq_iff.mp h]
      exact .unpaired t
    · exact .number hv ((beq_iff_of_weighs hv).mp h)
    · obtain ⟨y, rfl, hy⟩ := (beq_iff_of_isNan hx).mp h
      exact .nan hx hy
  · intro h
    cases h with
    | null => rfl
    | text s => exact text_beq_iff.mpr rfl
    | unpaired t => exact unpaired_beq_iff.mpr rfl
    | number hv hw => exact (beq_iff_of_weighs hv).mpr hw
    | nan hx hy => exact (beq_iff_of_isNan hx).mpr ⟨_, rfl, hy⟩

theorem beq_self (hv : v.hashable = .ok v) : (v == v) = true := by
  rw [beq_iff_matches hv]
  rcases cases_of_hashable hv with rfl | ⟨s, rfl⟩ | ⟨t, rfl⟩ | ⟨p, hv⟩ | ⟨x, rfl, hx⟩
  · exact .null
  · exact .text s
  · exact .unpaired t
  · exact .number hv hv
  · exact .nan hx hx

/-- Values that can be names are equal to each other if they are equal to a third. -/
theorem beq_of_beq_of_beq (hu : u.hashable = .ok u) (hv : v.hashable = .ok v) (huw : (u == w) = true)
    (hvw : (v == w) = true) : (u == v) = true := by
  rw [beq_iff_matches hu] at huw ⊢
  rw [beq_iff_matches hv] at hvw
  exact huw.trans hvw.symm

end ThreatAtlas.Value
