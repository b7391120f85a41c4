import ThreatAtlas.Value.Sort
import ThreatAtlas.Proofs.Value.Comparison

/-!
# Sorted values

What a sort gives back is what it was given, in another order, and no key stands directly behind one that
it was found to be less than. The comparison of values need not be transitive, and what is no number is
neither less nor more than anything; so this is said of neighbours only. Among numbers it says more: of any
two the earlier is worth no more than the later.
-/

namespace ThreatAtlas.Value

open Number (Amount)

variable {α : Type}

/-- One value may stand directly before another: it is less, or the other is not. -/
def MayPrecede (v w : Value) : Prop :=
  v.less w = .ok true ∨ w.less v = .ok false

theorem mayPrecede_iff {v w : Value} {p q : Amount} (hv : Weighs v p) (hw : Weighs w q) :
    MayPrecede v w ↔ p ≤ q := by
  rw [MayPrecede, less_of_weighs hv hw, less_of_weighs hw hv, Except.ok.injEq, Except.ok.injEq,
    decide_eq_true_iff, decide_eq_false_iff_not, not_lt]
  exact ⟨fun h => h.elim le_of_lt id, .inr⟩

def Rising (items : List (Value × α)) : Prop :=
  items.IsChain fun a b => MayPrecede a.1 b.1

variable {items run rest : List (Value × α)}

theorem Rising.pairwise (h : Rising items) (hnumbers : ∀ a ∈ items, ∃ p, Weighs a.1 p) :
    items.Pairwise fun a b => ∀ p q, Weighs a.1 p → Weighs b.1 q → p ≤ q := by
  induction items with
  | nil => exact .nil
  | cons a rest ih =>
    obtain ⟨hfirst, hrest⟩ := List.isChain_cons.mp h
    have hpairs := ih hrest fun b hb => hnumbers b (List.mem_cons_of_mem a hb)
    refine List.pairwise_cons.mpr ⟨fun b hb p q hp hq => ?_, hpairs⟩
    obtain ⟨c, rest, rfl⟩ := List.exists_cons_of_ne_nil (List.ne_nil_of_mem hb)
    obtain ⟨r, hr⟩ := hnumbers c (by simp)
    have hnext : p ≤ r := (mayPrecede_iff hp hr).mp (hfirst c rfl)
    rcases List.mem_cons.mp hb with rfl | hlater
    · rwa [hr.unique hq] at hnext
    · exact hnext.trans ((List.pairwise_cons.mp hpairs).1 b hlater r q hr hq)

/-- A run with what follows it is made of these items. -/
structure Splits (items run rest : List (Value × α)) : Prop where
  rising : Rising run
  perm : (run ++ rest).Perm items

theorem fallFrom_splits {last : Value} {x : α} {others : List (Value × α)}
    (h : fallFrom last ((last, x) :: others) items = .ok (run, rest)) (hrising : Rising ((last, x) :: others)) :
    Splits ((last, x) :: others ++ items) run rest ∧ rest.length ≤ items.length := by
  induction items generalizing last x others with
  | nil =>
    cases h
    exact ⟨⟨hrising, .refl _⟩, le_rfl⟩
  | cons item items ih =>
    obtain ⟨key, y⟩ := item
    obtain ⟨falls, hless, h⟩ := bind_eq_ok.mp h
    cases falls with
    | false =>
      cases h
      exact ⟨⟨hrising, .refl _⟩, le_rfl⟩
    | true =>
      obtain ⟨⟨hrun, hperm⟩, hshort⟩ := ih h (hrising.cons_cons (.inl hless))
      refine ⟨⟨hrun, hperm.trans ?_⟩, Nat.le_succ_of_le hshort⟩
      exact List.perm_middle.symm

theorem riseFrom_splits {last : Value} {x : α} {others : List (Value × α)}
    (h : riseFrom last ((last, x) :: others) items = .ok (run, rest))
    (hrising : Rising ((last, x) :: others).reverse) :
    Splits ((last, x) :: others ++ items) run rest ∧ rest.length ≤ items.length := by
  induction items generalizing last x others with
  | nil =>
    cases h
    exact ⟨⟨hrising, (List.reverse_perm _).append_right _⟩, le_rfl⟩
  | cons item items ih =>
    obtain ⟨key, y⟩ := item
    obtain ⟨falls, hless, h⟩ := bind_eq_ok.mp h
    cases falls with
    | true =>
      cases h
      exact ⟨⟨hrising, (List.reverse_perm _).append_right _⟩, le_rfl⟩
    | false =>
      have hnext : Rising ((key, y) :: (last, x) :: others).reverse := by
        rw [Rising, List.isChain_reverse] at hrising ⊢
        exact hrising.cons_cons (.inr hless)
      obtain ⟨⟨hrun, hperm⟩, hshort⟩ := ih h hnext
      refine ⟨⟨hrun, hperm.trans ?_⟩, Nat.le_succ_of_le hshort⟩
      exact List.perm_middle.symm

theorem leadingRun_splits (h : leadingRun items = .ok (run, rest)) (hitems : items ≠ []) :
    Splits items run rest ∧ rest.length < items.length := by
  unfold leadingRun at h
  split at h
  case h_1 k x key y items =>
    obtain ⟨falls, hless, h⟩ := bind_eq_ok.mp h
    cases falls with
    | true =>
      obtain ⟨⟨hrun, hperm⟩, hshort⟩ := fallFrom_splits h
        (List.isChain_pair.mpr (.inl hless))
      exact ⟨⟨hrun, hperm.trans (.swap _ _ _)⟩, by simp; omega⟩
    | false =>
      obtain ⟨⟨hrun, hperm⟩, hshort⟩ := riseFrom_splits h
        (List.isChain_pair.mpr (.inr hless))
      exact ⟨⟨hrun, hperm.trans (.swap _ _ _)⟩, by simp; omega⟩
  case h_2 hshort =>
    cases h
    refine ⟨⟨?_, by simp⟩, List.length_pos_iff.mpr hitems⟩
    match items with
    | [] => exact .nil
    | [a] => exact .singleton a
    | (k, x) :: (key, y) :: rest => exact absurd rfl (hshort k x key y rest)

/-- The place for a key is behind one that it is not less than, and before one that it is less than. -/
theorem placeFor_eq_ok {key : Value} {keys : List Value} {low high place : Nat}
    (h : placeFor key keys low high = .ok place) (hle : low ≤ high) (hhigh : high ≤ keys.length)
    (hbefore : ∀ k, 0 < low → keys[low - 1]? = some k → key.less k = .ok false)
    (hafter : ∀ k, keys[high]? = some k → key.less k = .ok true) :
    place ≤ keys.length ∧ (∀ k, 0 < place → keys[place - 1]? = some k → key.less k = .ok false) ∧
      ∀ k, keys[place]? = some k → key.less k = .ok true := by
  fun_induction placeFor key keys low high with
  | case1 low high hlt middle hnone =>
    have hmiddle : middle < keys.length := by omega
    rw [List.getElem?_eq_getElem hmiddle] at hnone
    cases hnone
  | case2 low high hlt middle k hk ihlow ihhigh =>
    obtain ⟨isLess, hless, h⟩ := bind_eq_ok.mp h
    cases isLess with
    | true =>
      refine ihlow h (by omega) (by omega) hbefore fun k' hk' => ?_
      rwa [Option.some.inj (hk'.symm.trans hk)]
    | false =>
      refine ihhigh h (by omega) hhigh (fun k' _ hk' => ?_) hafter
      rw [Nat.add_sub_cancel] at hk'
      rwa [Option.some.inj (hk'.symm.trans hk)]
  | case3 low high hnot =>
    cases h
    obtain rfl : place = high := by omega
    exact ⟨hhigh, hbefore, hafter⟩

theorem insertInRun_eq_ok {run' : List (Value × α)} {item : Value × α} (h : insertInRun run item = .ok run')
    (hrun : Rising run) : Rising run' ∧ run'.Perm (item :: run) := by
  obtain ⟨place, hplace, h⟩ := bind_eq_ok.mp h
  cases h
  obtain ⟨hshort, hbefore, hafter⟩ :=
    placeFor_eq_ok hplace (Nat.zero_le _) (by simp) nofun (by simp)
  rw [List.length_map] at hshort
  constructor
  · have hlast : ∀ a ∈ (run.take place).getLast?, MayPrecede a.1 item.1 := by
      intro a ha
      rw [List.getLast?_take] at ha
      split at ha
      · cases ha
      · have hplaced : place - 1 < run.length := by omega
        rw [List.getElem?_eq_getElem hplaced, Option.some_or, Option.mem_some] at ha
        refine .inr (hbefore a.1 (by omega) ?_)
        rw [List.getElem?_map, List.getElem?_eq_getElem hplaced, Option.map_some, ha]
    have hnext : ∀ a ∈ (run.drop place).head?, MayPrecede item.1 a.1 := by
      intro a ha
      rw [List.head?_drop] at ha
      refine .inl (hafter a.1 ?_)
      rw [List.getElem?_map, ha]
      rfl
    have hrest : Rising (item :: run.drop place) := (hrun.drop place).cons hnext
    refine (hrun.take place).append hrest fun a ha b hb => ?_
    cases hb
    exact hlast a ha
  · exact List.perm_middle.trans (by rw [List.take_append_drop])

theorem mergeRuns_eq_ok {xs ys zs : List (Value × α)} (h : mergeRuns xs ys = .ok zs) (hxs : Rising xs)
    (hys : Rising ys) :
    Rising zs ∧ zs.Perm (xs ++ ys) ∧ (zs.head? = xs.head? ∨ zs.head? = ys.head?) := by
  fun_induction mergeRuns xs ys generalizing zs with
  | case1 ys =>
    cases h
    exact ⟨hys, .refl _, .inr rfl⟩
  | case2 xs hne =>
    cases h
    exact ⟨hxs, by simp, .inl rfl⟩
  | case3 x xs y ys ihfirst ihsecond =>
    obtain ⟨isLess, hless, h⟩ := bind_eq_ok.mp h
    cases isLess with
    | true =>
      obtain ⟨others, hothers, h⟩ := bind_eq_ok.mp h
      cases h
      obtain ⟨hfirst, hrest⟩ := List.isChain_cons.mp hys
      obtain ⟨hrising, hperm, hhead⟩ := ihfirst hothers hxs hrest
      refine ⟨hrising.cons fun z hz => ?_, (hperm.cons y).trans List.perm_middle.symm, .inr rfl⟩
      rcases hhead with hhead | hhead
      · rw [hhead] at hz
        cases hz
        exact .inl hless
      · exact hfirst z (hhead ▸ hz)
    | false =>
      obtain ⟨others, hothers, h⟩ := bind_eq_ok.mp h
      cases h
      obtain ⟨hfirst, hrest⟩ := List.isChain_cons.mp hxs
      obtain ⟨hrising, hperm, hhead⟩ := ihsecond hothers hrest hys
      refine ⟨hrising.cons fun z hz => ?_, hperm.cons x, .inl rfl⟩
      rcases hhead with hhead | hhead
      · exact hfirst z (hhead ▸ hz)
      · rw [hhead] at hz
        cases hz
        exact .inr hless

theorem foldlM_insertInRun_eq_ok {run' : List (Value × α)} (h : items.foldlM insertInRun run = .ok run')
    (hrun : Rising run) : Rising run' ∧ run'.Perm (run ++ items) := by
  refine foldlM_induction (P := fun done run' => Rising run' ∧ run'.Perm (run ++ done)) h
    ⟨hrun, by simp⟩ ?_
  intro done item rest run₁ run₂ _ hinv hstep
  obtain ⟨hrising, hperm⟩ := insertInRun_eq_ok hstep hinv.1
  refine ⟨hrising, ?_⟩
  calc run₂.Perm (item :: run₁) := hperm
    _ |>.Perm (item :: (run ++ done)) := hinv.2.cons item
    _ |>.Perm (run ++ (done ++ [item])) := by
      rw [← List.append_assoc]
      exact (List.perm_append_singleton item (run ++ done)).symm

theorem sortRuns_eq_ok {least fuel : Nat} {sorted all : List (Value × α)}
    (h : sortRuns least fuel sorted items = .ok all) (hfuel : items.length ≤ fuel) (hsorted : Rising sorted) :
    Rising all ∧ all.Perm (sorted ++ items) := by
  induction fuel generalizing sorted items with
  | zero =>
    obtain rfl := List.length_eq_zero_iff.mp (Nat.le_zero.mp hfuel)
    cases h
    exact ⟨hsorted, by simp⟩
  | succ fuel ih =>
    cases items with
    | nil =>
      cases h
      exact ⟨hsorted, by simp⟩
    | cons item items =>
      obtain ⟨⟨run, rest⟩, hleading, h⟩ := bind_eq_ok.mp h
      obtain ⟨⟨hrun, hsplit⟩, hshort⟩ := leadingRun_splits hleading (List.cons_ne_nil item items)
      obtain ⟨run', hfilled, h⟩ := bind_eq_ok.mp h
      obtain ⟨hrun', hmore⟩ := foldlM_insertInRun_eq_ok hfilled hrun
      obtain ⟨merged, hmerged, h⟩ := bind_eq_ok.mp h
      obtain ⟨hmergedRising, hboth, -⟩ := mergeRuns_eq_ok hmerged hsorted hrun'
      have hless : (rest.drop (least - run.length)).length ≤ fuel := by
        rw [List.length_drop]
        omega
      obtain ⟨hall, hperm⟩ := ih h hless hmergedRising
      refine ⟨hall, ?_⟩
      calc all.Perm (merged ++ rest.drop (least - run.length)) := hperm
        _ |>.Perm (sorted ++ run' ++ rest.drop (least - run.length)) := hboth.append_right _
        _ |>.Perm (sorted ++ (run ++ rest.take (least - run.length)) ++
            rest.drop (least - run.length)) := (hmore.append_left sorted).append_right _
        _ = sorted ++ (run ++ rest) := by simp
        _ |>.Perm (sorted ++ item :: items) := hsplit.append_left sorted

theorem wholeKeys?_eq_some {whole : List (Int × α)} (h : wholeKeys? items = some whole) :
    items = whole.map fun a => (.int a.1, a.2) := by
  fun_induction wholeKeys? items generalizing whole with
  | case1 =>
    cases h
    rfl
  | case2 n x rest ih =>
    obtain ⟨others, hothers, rfl⟩ := Option.map_eq_some_iff.mp h
    rw [ih hothers, List.map_cons]
  | case3 => cases h

theorem wholeKeys?_map (whole : List (Int × α)) :
    wholeKeys? (whole.map fun a => (.int a.1, a.2)) = some whole := by
  induction whole with
  | nil => rfl
  | cons a whole ih => rw [List.map_cons, wholeKeys?, ih, Option.map_some]

theorem sortByKey_whole (whole : List (Int × α)) :
    sortByKey (whole.map fun a => (.int a.1, a.2)) =
      .ok ((whole.mergeSort fun a b => a.1 ≤ b.1).map (·.2)) := by
  rw [sortByKey, wholeKeys?_map]

/-- A sort leaves those in their order that may all stand before each other. -/
theorem filter_mergeSort_of_le {le : α → α → Bool} (htrans : ∀ a b c, le a b = true → le b c = true →
    le a c = true) (htotal : ∀ a b, (le a b || le b a) = true) {p : α → Bool}
    (hp : ∀ a b, p a = true → p b = true → le a b = true) (xs : List α) :
    (xs.mergeSort le).filter p = xs.filter p := by
  have hsame : (xs.filter p).Pairwise fun a b => le a b = true :=
    List.pairwise_of_forall_mem_list fun a ha b hb =>
      hp a b (List.mem_filter.mp ha).2 (List.mem_filter.mp hb).2
  have hsublist := List.sublist_mergeSort htrans htotal hsame List.filter_sublist
  have hfiltered := hsublist.filter p
  simp only [List.filter_filter, Bool.and_self] at hfiltered
  refine (hfiltered.eq_of_length ?_).symm
  exact ((List.mergeSort_perm xs le).filter p).length_eq.symm

theorem sortByKey_eq_ok {xs : List α} (h : sortByKey items = .ok xs) :
    ∃ sorted, sorted.Perm items ∧ Rising sorted ∧ xs = sorted.map (·.2) := by
  unfold sortByKey at h
  split at h
  case h_1 whole hwhole =>
    cases h
    let le (a b : Int × α) : Bool := a.1 ≤ b.1
    refine ⟨(whole.mergeSort le).map fun a => (.int a.1, a.2), ?_, ?_, ?_⟩
    · rw [wholeKeys?_eq_some hwhole]
      exact (List.mergeSort_perm whole le).map _
    · have hpairs := @List.pairwise_mergeSort _ le (by simp [le]; omega) (by simp [le]; omega) whole
      refine List.isChain_map _ |>.mpr (hpairs.imp fun {a b} hle => ?_).isChain
      refine (mayPrecede_iff (weighs_int a.1) (weighs_int b.1)).mpr ?_
      rw [Amount.ofRat_le_ofRat, Int.cast_le]
      exact of_decide_eq_true hle
    · rw [List.map_map]
      rfl
  case h_2 =>
    obtain ⟨sorted, hsorted, h⟩ := bind_eq_ok.mp h
    cases h
    obtain ⟨hrising, hperm⟩ := sortRuns_eq_ok hsorted le_rfl .nil
    exact ⟨sorted, by simpa using hperm, hrising, rfl⟩

end ThreatAtlas.Value
