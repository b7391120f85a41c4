import Mathlib
import ThreatAtlas.Similarity

/-!
# When texts are alike

The ratio of two texts is one exactly when they are the same. Characters that are too frequent to start a
block make no difference: the first longest run of a text with itself stands at one place in both, and
what lies around it is equal and extends it to the whole text.
-/

namespace ThreatAtlas

/-! The first of the greatest -/

section

variable {α γ : Type} [LinearOrder γ] {key : α → γ}

/-- The element before which all are less and after which none is greater. -/
def FirstGreatest (key : α → γ) (xs : List α) (best : α) : Prop :=
  ∃ before after, xs = before ++ best :: after ∧ (∀ y ∈ before, key y < key best) ∧
    ∀ y ∈ after, key y ≤ key best

theorem FirstGreatest.mem {xs : List α} {best : α} (h : FirstGreatest key xs best) : best ∈ xs := by
  obtain ⟨before, after, rfl, -⟩ := h
  simp

theorem FirstGreatest.unique {xs : List α} {x y : α} (hx : FirstGreatest key xs x)
    (hy : FirstGreatest key xs y) : x = y := by
  obtain ⟨before, after, rfl, hbefore, hafter⟩ := hx
  obtain ⟨before', after', hsplit, hbefore', hafter'⟩ := hy
  rcases List.append_eq_append_iff.mp hsplit with ⟨more, hlonger, hrest⟩ | ⟨more, hlonger, hrest⟩
  · cases more with
    | nil => exact (List.cons.inj hrest).1
    | cons z more =>
      rw [List.cons_append, List.cons.injEq] at hrest
      obtain ⟨rfl, rfl⟩ := hrest
      exact absurd (hbefore' x (by simp [hlonger])) (not_lt.mpr (hafter y (by simp)))
  · cases more with
    | nil => exact (List.cons.inj hrest).1.symm
    | cons z more =>
      rw [List.cons_append, List.cons.injEq] at hrest
      obtain ⟨rfl, rfl⟩ := hrest
      exact absurd (hbefore y (by simp [hlonger])) (not_lt.mpr (hafter' x (by simp)))

/-- A walk that takes an element for the best one when it is greater ends at the first of the
greatest. -/
theorem firstGreatest_foldl (key : α → γ) (less : α → α → Bool) (x : α) (xs : List α)
    (hless : ∀ y ∈ x :: xs, ∀ z ∈ x :: xs, less y z = true ↔ key y < key z) :
    FirstGreatest key (x :: xs) (xs.foldl (fun best y => if less best y then y else best) x) := by
  induction xs using List.reverseRecOn with
  | nil => exact ⟨[], [], rfl, nofun, nofun⟩
  | append_singleton xs y ih =>
    have hsub {z : α} (hz : z ∈ x :: xs) : z ∈ x :: (xs ++ [y]) := by
      rw [← List.cons_append]
      exact List.mem_append_left _ hz
    have hfirst := ih fun z hz z' hz' => hless z (hsub hz) z' (hsub hz')
    rw [List.foldl_append, List.foldl_cons, List.foldl_nil]
    generalize xs.foldl (fun best y => if less best y then y else best) x = best at hfirst
    have hcompare := hless best (hsub hfirst.mem) y (by simp)
    obtain ⟨before, after, hsplit, hbefore, hafter⟩ := hfirst
    by_cases hgreater : key best < key y
    · rw [if_pos (hcompare.mpr hgreater)]
      refine ⟨before ++ best :: after, [], by rw [← hsplit, List.cons_append], ?_, nofun⟩
      intro z hz
      rcases List.mem_append.mp hz with hz | hz
      · exact (hbefore z hz).trans hgreater
      · rcases List.mem_cons.mp hz with rfl | hz
        · exact hgreater
        · exact (hafter z hz).trans_lt hgreater
    · rw [if_neg (mt hcompare.mp hgreater)]
      refine ⟨before, after ++ [y], ?_, hbefore, ?_⟩
      · rw [← List.cons_append, hsplit, List.append_assoc, List.cons_append]
      · intro z hz
        rcases List.mem_append.mp hz with hz | hz
        · exact hafter z hz
        · rw [List.mem_singleton.mp hz]
          exact not_lt.mp hgreater

end

namespace Similarity

variable {starts : Char → Bool} {a b : List Char}

/-! Runs -/

/-- The length of the common run of characters that may start a block, up to a place in each text. -/
def runTo (starts : Char → Bool) (a b : List Char) : ℕ → ℕ → ℕ
  | i + 1, j + 1 =>
    match a[i]?, b[j]? with
    | some c, some d => if c == d && starts d then runTo starts a b i j + 1 else 0
    | _, _ => 0
  | _, _ => 0

/-- The texts have the same character at these places, one that may start a block. -/
def Meets (starts : Char → Bool) (a b : List Char) (i j : ℕ) : Prop :=
  ∃ c, a[i]? = some c ∧ b[j]? = some c ∧ starts c = true

variable {i j n : ℕ}

theorem runTo_succ_of_meets (h : Meets starts a b i j) :
    runTo starts a b (i + 1) (j + 1) = runTo starts a b i j + 1 := by
  obtain ⟨c, ha, hb, hstarts⟩ := h
  rw [runTo, ha, hb]
  simp [hstarts]

theorem runTo_succ_of_not_meets (h : ¬ Meets starts a b i j) : runTo starts a b (i + 1) (j + 1) = 0 := by
  rw [runTo]
  split
  case h_1 c d ha hb =>
    refine if_neg fun hsame => h ?_
    rw [Bool.and_eq_true, beq_iff_eq] at hsame
    exact ⟨d, by rw [ha, hsame.1], hb, hsame.2⟩
  case h_2 => rfl

theorem le_runTo_iff : n ≤ runTo starts a b i j ↔
    n ≤ i ∧ n ≤ j ∧ ∀ k < n, Meets starts a b (i - 1 - k) (j - 1 - k) := by
  induction n generalizing i j with
  | zero => simp
  | succ n ih =>
    cases i with
    | zero => simp [runTo]
    | succ i =>
      cases j with
      | zero => simp [runTo]
      | succ j =>
        by_cases hmeets : Meets starts a b i j
        · rw [runTo_succ_of_meets hmeets, Nat.succ_le_succ_iff, ih]
          constructor
          · rintro ⟨hi, hj, hall⟩
            refine ⟨by omega, by omega, fun k hk => ?_⟩
            cases k with
            | zero => exact hmeets
            | succ k =>
              have := hall k (by omega)
              rwa [show i + 1 - 1 - (k + 1) = i - 1 - k by omega,
                show j + 1 - 1 - (k + 1) = j - 1 - k by omega]
          · rintro ⟨hi, hj, hall⟩
            refine ⟨by omega, by omega, fun k hk => ?_⟩
            have := hall (k + 1) (by omega)
            rwa [show i + 1 - 1 - (k + 1) = i - 1 - k by omega,
              show j + 1 - 1 - (k + 1) = j - 1 - k by omega] at this
        · rw [runTo_succ_of_not_meets hmeets]
          constructor
          · intro h
            omega
          · rintro ⟨-, -, hall⟩
            exact absurd (hall 0 (by omega)) hmeets

theorem runTo_self_le (starts : Char → Bool) (a : List Char) (i j : ℕ) :
    runTo starts a a i j ≤ runTo starts a a i i ∧ runTo starts a a i j ≤ runTo starts a a j j := by
  obtain ⟨hi, hj, hall⟩ := le_runTo_iff.mp (le_refl (runTo starts a a i j))
  refine ⟨le_runTo_iff.mpr ⟨hi, hi, fun k hk => ?_⟩, le_runTo_iff.mpr ⟨hj, hj, fun k hk => ?_⟩⟩
  · obtain ⟨c, hc, -, hstarts⟩ := hall k hk
    exact ⟨c, hc, hc, hstarts⟩
  · obtain ⟨c, -, hc, hstarts⟩ := hall k hk
    exact ⟨c, hc, hc, hstarts⟩

/-! Rows of runs -/

/-- The runs up to a place in the left text and every place in the right one. -/
def runsTo (starts : Char → Bool) (a b : List Char) (i : ℕ) : List ℕ :=
  (List.range b.length).map fun j => runTo starts a b i (j + 1)

theorem getElem?_nextRow {c : Char} {diagonal : ℕ} {ds : List Char} {ns : List ℕ}
    (h : ns.length = ds.length) (j : ℕ) :
    (nextRow starts c diagonal ds ns)[j]? = ds[j]?.bind fun d =>
      ((diagonal :: ns)[j]?).map fun n => if c == d && starts d then n + 1 else 0 := by
  induction ds generalizing diagonal ns j with
  | nil => simp [nextRow]
  | cons d ds ih =>
    cases ns with
    | nil => simp at h
    | cons n ns =>
      rw [nextRow]
      cases j with
      | zero => simp
      | succ j =>
        rw [List.getElem?_cons_succ, List.getElem?_cons_succ, List.getElem?_cons_succ]
        exact ih (by simpa using h) j

theorem runsTo_zero : runsTo starts a b 0 = List.replicate b.length 0 := by
  unfold runsTo
  rw [List.eq_replicate_iff]
  simp [runTo]

theorem nextRow_runsTo {c : Char} (hc : a[i]? = some c) :
    nextRow starts c 0 b (runsTo starts a b i) = runsTo starts a b (i + 1) := by
  refine List.ext_getElem? fun j => ?_
  rw [getElem?_nextRow (by simp [runsTo])]
  unfold runsTo
  by_cases hj : j < b.length
  · have hprevious : (0 :: (List.range b.length).map fun j => runTo starts a b i (j + 1))[j]? =
        some (runTo starts a b i j) := by
      cases j with
      | zero => simp [runTo]
      | succ j => simp [show j < b.length by omega]
    rw [hprevious]
    simp [hj, runTo, hc]
  · simp [not_lt.mp hj]

/-! The longest run -/

/-- The block that is the run up to a place in each text, places counted from zero. -/
def runBlock (starts : Char → Bool) (a b : List Char) (place : ℕ × ℕ) : Block :=
  let n := runTo starts a b (place.1 + 1) (place.2 + 1)
  ⟨place.1 + 1 - n, place.2 + 1 - n, n⟩

def longer (best block : Block) : Block :=
  if best.size < block.size then block else best

/-- All places of the left text with all places of the right one, in the order of reading. -/
def places (a b : List Char) : List (ℕ × ℕ) :=
  (List.range a.length).flatMap fun i => (List.range b.length).map (Prod.mk i)

theorem zipIdx_runsTo (i : ℕ) : (runsTo starts a b i).zipIdx =
    (List.range b.length).map fun j => (runTo starts a b i (j + 1), j) := by
  refine List.ext_getElem? fun j => ?_
  by_cases hj : j < b.length
  · simp [runsTo, hj]
  · simp [runsTo, not_lt.mp hj]

theorem improve_runsTo (i : ℕ) (best : Block) :
    improve i (runsTo starts a b (i + 1)) best =
      (((List.range b.length).map (Prod.mk i)).map (runBlock starts a b)).foldl longer best := by
  unfold improve
  rw [zipIdx_runsTo, List.map_map, List.foldl_map, List.foldl_map]
  rfl

/-- Goes on by one character of the left text, with the runs up to it and the longest run so far. -/
def scan (starts : Char → Bool) (b : List Char) (found : List ℕ × Block) (next : Char × ℕ) :
    List ℕ × Block :=
  let row := nextRow starts next.1 0 b found.1
  (row, improve next.2 row found.2)

theorem foldl_scan (starts : Char → Bool) (b : List Char) (hn : n ≤ a.length) :
    (a.take n).zipIdx.foldl (scan starts b) (List.replicate b.length 0, ⟨0, 0, 0⟩) =
      (runsTo starts a b n, (((List.range n).flatMap fun i =>
        (List.range b.length).map (Prod.mk i)).map (runBlock starts a b)).foldl longer ⟨0, 0, 0⟩) := by
  induction n with
  | zero =>
    rw [runsTo_zero]
    rfl
  | succ n ih =>
    have hlt : n < a.length := by omega
    have hc : a[n]? = some a[n] := List.getElem?_eq_getElem hlt
    have hlast : [a[n]].zipIdx (0 + (a.take n).length) = [(a[n], n)] := by
      rw [List.length_take, Nat.min_eq_left hlt.le, Nat.zero_add]
      rfl
    rw [List.take_add_one, hc, List.zipIdx_append, List.foldl_append, ih hlt.le, Option.toList_some,
      hlast, List.foldl_cons, List.foldl_nil, List.range_succ, List.flatMap_append, List.map_append,
      List.foldl_append, List.flatMap_singleton, ← improve_runsTo, ← nextRow_runsTo hc]
    rfl

theorem longestRun_eq (starts : Char → Bool) (a b : List Char) :
    longestRun starts a b = ((places a b).map (runBlock starts a b)).foldl longer ⟨0, 0, 0⟩ := by
  have hall := foldl_scan starts b (le_refl a.length)
  rw [List.take_length] at hall
  change (a.zipIdx.foldl (scan starts b) _).2 = _
  rw [hall]
  rfl

def Precedes (p q : ℕ × ℕ) : Prop :=
  p.1 < q.1 ∨ p.1 = q.1 ∧ p.2 < q.2

theorem places_pairwise (a b : List Char) : (places a b).Pairwise Precedes := by
  unfold places
  rw [List.pairwise_flatMap]
  constructor
  · intro i _
    rw [List.pairwise_map]
    exact List.pairwise_lt_range.imp fun hlt => .inr ⟨rfl, hlt⟩
  · refine List.pairwise_lt_range.imp fun {i i'} hlt p hp q hq => ?_
    obtain ⟨j, -, rfl⟩ := List.mem_map.mp hp
    obtain ⟨j', -, rfl⟩ := List.mem_map.mp hq
    exact .inl hlt

theorem mem_places {p : ℕ × ℕ} : p ∈ places a b ↔ p.1 < a.length ∧ p.2 < b.length := by
  unfold places
  obtain ⟨i, j⟩ := p
  simp

/-- The longest run is empty, or it is the run up to some place and all places before have shorter
ones. -/
theorem longestRun_cases (starts : Char → Bool) (a b : List Char) :
    longestRun starts a b = ⟨0, 0, 0⟩ ∨
      ∃ p ∈ places a b, longestRun starts a b = runBlock starts a b p ∧
        ∀ q ∈ places a b, Precedes q p →
          (runBlock starts a b q).size < (runBlock starts a b p).size := by
  have hfirst := firstGreatest_foldl Block.size (fun x y => decide (x.size < y.size))
    ⟨0, 0, 0⟩ ((places a b).map (runBlock starts a b)) (by simp)
  simp only [decide_eq_true_eq] at hfirst
  change FirstGreatest _ _ (List.foldl longer _ _) at hfirst
  rw [← longestRun_eq] at hfirst
  generalize longestRun starts a b = best at hfirst
  obtain ⟨before, after, hsplit, hbefore, -⟩ := hfirst
  cases before with
  | nil => exact .inl (List.cons.inj hsplit).1.symm
  | cons first before =>
    refine .inr ?_
    obtain ⟨earlier, rest, hplaces, hearlier, hrest⟩ :=
      List.map_eq_append_iff.mp (List.cons.inj hsplit).2
    obtain ⟨p, later, rfl, rfl, -⟩ := List.map_eq_cons_iff.mp hrest
    have hordered := places_pairwise a b
    rw [hplaces, List.pairwise_append, List.pairwise_cons] at hordered
    refine ⟨p, by rw [hplaces]; simp, rfl, fun q hq hprecedes => ?_⟩
    have hq : q ∈ earlier := by
      rw [hplaces] at hq
      rcases List.mem_append.mp hq with hq | hq
      · exact hq
      · rcases List.mem_cons.mp hq with rfl | hq
        · unfold Precedes at hprecedes
          omega
        · have hafter := hordered.2.1.1 q hq
          unfold Precedes at hprecedes hafter
          omega
    refine hbefore _ (List.mem_cons_of_mem _ ?_)
    rw [← hearlier]
    exact List.mem_map_of_mem hq

/-! Common blocks -/

/-- The block lies within both texts and has the same characters in both. -/
structure Common (a b : List Char) (block : Block) : Prop where
  left_le : block.left + block.size ≤ a.length
  right_le : block.right + block.size ≤ b.length
  same : ∀ k < block.size, a[block.left + k]? = b[block.right + k]?

theorem common_runBlock {p : ℕ × ℕ} (hp : p ∈ places a b) : Common a b (runBlock starts a b p) := by
  obtain ⟨hi, hj⟩ := mem_places.mp hp
  obtain ⟨hleft, hright, hall⟩ := le_runTo_iff.mp (le_refl (runTo starts a b (p.1 + 1) (p.2 + 1)))
  unfold runBlock
  dsimp only
  generalize runTo starts a b (p.1 + 1) (p.2 + 1) = n at hleft hright hall
  refine ⟨by dsimp only; omega, by dsimp only; omega, fun k hk => ?_⟩
  dsimp only at hk ⊢
  obtain ⟨c, ha, hb, -⟩ := hall (n - 1 - k) (by omega)
  rw [show p.1 + 1 - n + k = p.1 + 1 - 1 - (n - 1 - k) by omega, ha,
    show p.2 + 1 - n + k = p.2 + 1 - 1 - (n - 1 - k) by omega, hb]

theorem common_longestRun (starts : Char → Bool) (a b : List Char) :
    Common a b (longestRun starts a b) := by
  rcases longestRun_cases starts a b with hnone | ⟨p, hp, hrun, -⟩
  · rw [hnone]
    exact ⟨Nat.zero_le _, Nat.zero_le _, nofun⟩
  · rw [hrun]
    exact common_runBlock hp

/-- In one and the same text the longest run stands at one place: any other place at which it stands is
met before. -/
theorem longestRun_self (starts : Char → Bool) (a : List Char) :
    (longestRun starts a a).left = (longestRun starts a a).right := by
  rcases longestRun_cases starts a a with hnone | ⟨p, hp, hrun, hfirst⟩
  · rw [hnone]
  · obtain ⟨hi, hj⟩ := mem_places.mp hp
    obtain ⟨hleft, hright⟩ := runTo_self_le starts a (p.1 + 1) (p.2 + 1)
    rw [hrun]
    rcases lt_trichotomy p.1 p.2 with hlt | heq | hgt
    · exact absurd (hfirst (p.1, p.1) (mem_places.mpr ⟨hi, hi⟩) (.inr ⟨rfl, hlt⟩)) (not_lt.mpr hleft)
    · unfold runBlock
      rw [heq]
    · exact absurd (hfirst (p.2, p.2) (mem_places.mpr ⟨hj, hj⟩) (.inl hgt)) (not_lt.mpr hright)

theorem commonStart_le (xs ys : List Char) :
    commonStart xs ys ≤ xs.length ∧ commonStart xs ys ≤ ys.length := by
  fun_induction commonStart xs ys with
  | case1 c cs d ds h ih => simpa using ih
  | case2 => simp
  | case3 => simp

theorem getElem?_of_lt_commonStart {xs ys : List Char} {k : ℕ} (h : k < commonStart xs ys) :
    xs[k]? = ys[k]? := by
  fun_induction commonStart xs ys generalizing k with
  | case1 c cs d ds hsame ih =>
    cases k with
    | zero => simpa using hsame
    | succ k => simpa using ih (by omega)
  | case2 => omega
  | case3 => omega

theorem commonStart_self (xs : List Char) : commonStart xs xs = xs.length := by
  induction xs with
  | nil => rfl
  | cons c cs ih => simp [commonStart, ih]

theorem Common.extend {block : Block} (h : Common a b block) : Common a b (extend a b block) := by
  obtain ⟨hleft, hright, hsame⟩ := h
  obtain ⟨l, r, n⟩ := block
  unfold Similarity.extend
  dsimp only at *
  obtain ⟨hbackLeft, hbackRight⟩ := commonStart_le (a.take l).reverse (b.take r).reverse
  obtain ⟨honLeft, honRight⟩ := commonStart_le (a.drop (l + n)) (b.drop (r + n))
  have hback (k : ℕ) (hk : k < commonStart (a.take l).reverse (b.take r).reverse) :
      (a.take l).reverse[k]? = (b.take r).reverse[k]? := getElem?_of_lt_commonStart hk
  have hon (k : ℕ) (hk : k < commonStart (a.drop (l + n)) (b.drop (r + n))) :
      (a.drop (l + n))[k]? = (b.drop (r + n))[k]? := getElem?_of_lt_commonStart hk
  generalize commonStart (a.take l).reverse (b.take r).reverse = back at *
  generalize commonStart (a.drop (l + n)) (b.drop (r + n)) = on at *
  rw [List.length_reverse, List.length_take] at hbackLeft hbackRight
  rw [List.length_drop] at honLeft honRight
  refine ⟨by dsimp only; omega, by dsimp only; omega, fun k hk => ?_⟩
  dsimp only at hk ⊢
  rcases lt_or_ge k back with hk₁ | hk₁
  · have := hback (back - 1 - k) (by omega)
    rw [List.getElem?_reverse (by simp; omega), List.getElem?_reverse (by simp; omega)] at this
    simp only [List.length_take, List.getElem?_take] at this
    rw [if_pos (by omega), if_pos (by omega)] at this
    convert this using 2 <;> omega
  · rcases lt_or_ge k (back + n) with hk₂ | hk₂
    · have := hsame (k - back) (by omega)
      convert this using 2 <;> omega
    · have := hon (k - back - n) (by omega)
      rw [List.getElem?_drop, List.getElem?_drop] at this
      convert this using 2 <;> omega

/-! Matched characters -/

theorem Common.split {block : Block} (h : Common a b block) : ∃ m : List Char,
    m.length = block.size ∧ a = a.take block.left ++ m ++ a.drop (block.left + block.size) ∧
      b = b.take block.right ++ m ++ b.drop (block.right + block.size) := by
  obtain ⟨hleft, hright, hsame⟩ := h
  have hm : (a.drop block.left).take block.size = (b.drop block.right).take block.size := by
    refine List.ext_getElem? fun k => ?_
    rw [List.getElem?_take, List.getElem?_take, List.getElem?_drop, List.getElem?_drop]
    split
    case isTrue hk => exact hsame k hk
    case isFalse => rfl
  refine ⟨(a.drop block.left).take block.size, ?_, ?_, ?_⟩
  · rw [List.length_take, List.length_drop]
    omega
  · rw [List.append_assoc, ← List.drop_drop, List.take_append_drop, List.take_append_drop]
  · rw [hm, List.append_assoc, ← List.drop_drop, List.take_append_drop, List.take_append_drop]

/-- A number of characters that both texts have, and all of both only if the texts are the same. -/
structure Shared (n : ℕ) (a b : List Char) : Prop where
  left : n ≤ a.length
  right : n ≤ b.length
  all : n = a.length → n = b.length → a = b

theorem shared_zero (a b : List Char) : Shared 0 a b := by
  refine ⟨Nat.zero_le _, Nat.zero_le _, fun ha hb => ?_⟩
  rw [List.eq_nil_of_length_eq_zero ha.symm, List.eq_nil_of_length_eq_zero hb.symm]

theorem Shared.around {n' : ℕ} {a' b' : List Char} (h : Shared n a b) (m : List Char) (h' : Shared n' a' b') :
    Shared (n + m.length + n') (a ++ m ++ a') (b ++ m ++ b') := by
  obtain ⟨hleft, hright, hall⟩ := h
  obtain ⟨hleft', hright', hall'⟩ := h'
  refine ⟨?_, ?_, fun ha hb => ?_⟩
  · simp only [List.length_append]
    omega
  · simp only [List.length_append]
    omega
  · simp only [List.length_append] at ha hb
    rw [hall (by omega) (by omega), hall' (by omega) (by omega)]

theorem shared_matchedWithin (starts : Char → Bool) (fuel : ℕ) (a b : List Char) :
    Shared (matchedWithin starts fuel a b) a b := by
  induction fuel generalizing a b with
  | zero => exact shared_zero a b
  | succ fuel ih =>
    obtain ⟨m, hm, ha, hb⟩ := (common_longestRun starts a b).extend.split
    rw [matchedWithin]
    generalize extend a b (longestRun starts a b) = block at hm ha hb
    by_cases hnone : (block.size == 0) = true
    · rw [if_pos hnone]
      exact shared_zero a b
    · have haround := (ih (a.take block.left) (b.take block.right)).around m
        (ih (a.drop (block.left + block.size)) (b.drop (block.right + block.size)))
      rw [if_neg hnone]
      rwa [hm, ← ha, ← hb] at haround

theorem extend_longestRun_self (starts : Char → Bool) (a : List Char) :
    extend a a (longestRun starts a a) = ⟨0, 0, a.length⟩ := by
  have hdiagonal := longestRun_self starts a
  have hle := (common_longestRun starts a a).left_le
  generalize longestRun starts a a = block at hdiagonal hle
  obtain ⟨l, r, n⟩ := block
  dsimp only at hdiagonal hle
  subst hdiagonal
  unfold extend
  simp only [commonStart_self, List.length_reverse, List.length_take, List.length_drop]
  rw [Nat.min_eq_left (by omega), Nat.sub_self]
  congr 1
  omega

theorem matchedWithin_self (starts : Char → Bool) (fuel : ℕ) (a : List Char) :
    matchedWithin starts (fuel + 1) a a = a.length := by
  have hnil (fuel : ℕ) : matchedWithin starts fuel [] [] = 0 :=
    Nat.le_zero.mp (shared_matchedWithin starts fuel [] []).left
  rw [matchedWithin, extend_longestRun_self]
  dsimp only
  rw [Nat.zero_add, List.drop_length, List.take_zero, hnil, Nat.zero_add, Nat.add_zero]
  split
  case isTrue hzero => exact (beq_iff_eq.mp hzero).symm
  case isFalse => rfl

theorem shared_matched (a b : List Char) : Shared (matched a b) a b :=
  shared_matchedWithin _ _ a b

theorem matched_self (a : List Char) : matched a a = a.length :=
  matchedWithin_self _ _ a

/-! Ratios -/

namespace Ratio

def value (r : Ratio) : ℚ :=
  r.num / r.den

theorem value_one : one.value = 1 := by
  simp [value, one]

theorem value_zero : zero.value = 0 := by
  simp [value, zero]

theorem lt_iff {r s : Ratio} (hr : 0 < r.den) (hs : 0 < s.den) : r.lt s = true ↔ r.value < s.value := by
  unfold lt value
  rw [decide_eq_true_iff, div_lt_div_iff₀ (Nat.cast_pos.mpr hr) (Nat.cast_pos.mpr hs)]
  exact_mod_cast Iff.rfl

end Ratio

theorem ratio_cases (a b : String) :
    (ratio a b = .one ∧ a = b) ∨
      ratio a b = ⟨2 * matched a.toList b.toList, a.toList.length + b.toList.length⟩ ∧
        0 < a.toList.length + b.toList.length := by
  unfold ratio
  by_cases htotal : a.toList.length + b.toList.length = 0
  · have hlengths := Nat.add_eq_zero_iff.mp htotal
    refine .inl ⟨if_pos (beq_iff_eq.mpr htotal), String.toList_inj.mp ?_⟩
    rw [List.eq_nil_of_length_eq_zero hlengths.1, List.eq_nil_of_length_eq_zero hlengths.2]
  · exact .inr ⟨if_neg (mt beq_iff_eq.mp htotal), Nat.pos_of_ne_zero htotal⟩

theorem ratio_den_pos (a b : String) : 0 < (ratio a b).den := by
  rcases ratio_cases a b with ⟨hratio, -⟩ | ⟨hratio, hpos⟩
  · rw [hratio]
    exact Nat.one_pos
  · rw [hratio]
    exact hpos

theorem value_ratio_le_one (a b : String) : (ratio a b).value ≤ 1 := by
  rcases ratio_cases a b with ⟨hratio, -⟩ | ⟨hratio, hpos⟩
  · rw [hratio, Ratio.value_one]
  · obtain ⟨hleft, hright, -⟩ := shared_matched a.toList b.toList
    rw [hratio, Ratio.value, div_le_one (Nat.cast_pos.mpr hpos), Nat.cast_le]
    dsimp only
    omega

/-- The ratio of two texts is one if they are the same, and only then, however frequent some of their
characters are. -/
theorem value_ratio_eq_one_iff (a b : String) : (ratio a b).value = 1 ↔ a = b := by
  rcases ratio_cases a b with ⟨hratio, hsame⟩ | ⟨hratio, hpos⟩
  · rw [hratio, Ratio.value_one]
    exact iff_of_true rfl hsame
  · rw [hratio, Ratio.value, div_eq_one_iff_eq (Nat.cast_ne_zero.mpr hpos.ne'), Nat.cast_inj]
    dsimp only
    constructor
    · intro hall
      obtain ⟨hleft, hright, hsame⟩ := shared_matched a.toList b.toList
      exact String.toList_inj.mp (hsame (by omega) (by omega))
    · rintro rfl
      rw [matched_self]
      omega

end Similarity

end ThreatAtlas
