import Mathlib
import ThreatAtlas.Text.Basic

/-!
# Replacing and stripping

A character that is not part of what is replaced stays where it is and cuts the text in two parts that
are replaced one by one. So replacing what holds no blanks can be done before or after stripping.
-/

namespace ThreatAtlas.Text

@[simp] theorem replaceChars_nil (old new : List Char) : replaceChars old new [] = [] := by
  rw [replaceChars]

variable {x : Char} {old a b new part s : List Char} {p : Char → Bool}

theorem prefix_append_cons (hx : x ∉ old) : old <+: a ++ x :: b ↔ old <+: a := by
  constructor
  · intro h
    rcases Nat.lt_or_ge a.length old.length with hlt | hle
    · have hax : a ++ [x] <+: a ++ x :: b := ⟨b, by simp⟩
      have hsub : a ++ [x] <+: old :=
        List.prefix_of_prefix_length_le hax h (by simpa using hlt)
      exact absurd (hsub.subset (by simp)) hx
    · exact List.prefix_of_prefix_length_le h (List.prefix_append a _) hle
  · intro h
    exact h.trans (List.prefix_append a _)

/-- What stands behind the last mark can be read from a text, and so can what stands before it. -/
theorem eq_of_append_cons_eq {u v : List Char} (hu : x ∉ u) (hv : x ∉ v) (h : a ++ x :: u = b ++ x :: v) :
    a = b ∧ u = v := by
  rcases List.append_eq_append_iff.mp h with ⟨more, hb, hrest⟩ | ⟨more, ha, hrest⟩
  · cases more with
    | nil =>
      rw [List.append_nil] at hb
      exact ⟨hb.symm, (List.cons.inj hrest).2⟩
    | cons c more =>
      refine absurd ?_ hu
      rw [(List.cons.inj hrest).2]
      simp
  · cases more with
    | nil =>
      rw [List.append_nil] at ha
      exact ⟨ha, (List.cons.inj hrest).2.symm⟩
    | cons c more =>
      refine absurd ?_ hv
      rw [(List.cons.inj hrest).2]
      simp

theorem replaceChars_append_cons (new : List Char) (hold : old ≠ []) (hx : x ∉ old) (a b : List Char) :
    replaceChars old new (a ++ x :: b) = replaceChars old new a ++ x :: replaceChars old new b := by
  induction a using replaceChars.induct old with
  | case1 =>
    have hmiss : old.isPrefixOf (x :: b) = false := by
      cases old with
      | nil => exact absurd rfl hold
      | cons o os =>
        have hne : o ≠ x := by
          intro h
          exact hx (by simp [h])
        simp [List.isPrefixOf, hne]
    rw [List.nil_append, replaceChars_nil, List.nil_append, replaceChars, hmiss, if_neg (by simp)]
  | case2 c cs hit ih =>
    have hit' : old.isPrefixOf (c :: (cs ++ x :: b)) = true := by
      rw [List.isPrefixOf_iff_prefix] at hit ⊢
      exact hit.trans (List.prefix_append _ _)
    have hlen : old.length - 1 ≤ cs.length := by
      have := (List.isPrefixOf_iff_prefix.mp hit).length_le
      simp only [List.length_cons] at this
      omega
    rw [List.cons_append, replaceChars, if_pos hit', replaceChars, if_pos hit,
      List.drop_append_of_le_length hlen, ih, List.append_assoc]
  | case3 c cs miss ih =>
    have miss' : ¬ old.isPrefixOf (c :: (cs ++ x :: b)) = true := by
      rw [List.isPrefixOf_iff_prefix] at miss ⊢
      rw [← List.cons_append, prefix_append_cons hx]
      exact miss
    rw [List.cons_append, replaceChars, if_neg miss', replaceChars, if_neg miss, ih, List.cons_append]

theorem replaceChars_append_left (hold : old ≠ []) (hpart : ∀ c ∈ part, c ∉ old) (b : List Char) :
    replaceChars old new (part ++ b) = part ++ replaceChars old new b := by
  induction part with
  | nil => rfl
  | cons x part ih =>
    have hx := replaceChars_append_cons new hold (hpart x (by simp)) [] (part ++ b)
    simp only [List.nil_append, replaceChars_nil] at hx
    rw [List.cons_append, hx, ih (fun c hc => hpart c (by simp [hc])), List.cons_append]

theorem replaceChars_append_block (new : List Char) (hold : old ≠ []) (hpart : ∀ c ∈ part, c ∉ old)
    (hne : part ≠ []) (a b : List Char) : replaceChars old new (a ++ part ++ b) =
      replaceChars old new a ++ part ++ replaceChars old new b := by
  cases part with
  | nil => exact absurd rfl hne
  | cons x part =>
    rw [List.append_assoc, List.cons_append, replaceChars_append_cons new hold (hpart x (by simp)),
      replaceChars_append_left hold (fun c hc => hpart c (by simp [hc]))]
    simp

theorem replaceChars_append_right (hold : old ≠ []) (hpart : ∀ c ∈ part, c ∉ old) (a : List Char) :
    replaceChars old new (a ++ part) = replaceChars old new a ++ part := by
  by_cases hne : part = []
  · simp [hne]
  · simpa using replaceChars_append_block new hold hpart hne a []

theorem replaceChars_eq_self (hold : x ∈ old) (hs : x ∉ s) : replaceChars old new s = s := by
  induction s with
  | nil => exact replaceChars_nil old new
  | cons c cs ih =>
    have miss : ¬ old.isPrefixOf (c :: cs) = true := by
      rw [List.isPrefixOf_iff_prefix]
      intro h
      exact hs (h.subset hold)
    rw [replaceChars, if_neg miss, ih (fun h => hs (by simp [h]))]

theorem replaceChars_of_length_le (hlen : s.length ≤ old.length) (hne : s ≠ old) :
    replaceChars old new s = s := by
  induction s with
  | nil => exact replaceChars_nil old new
  | cons c cs ih =>
    have miss : ¬ old.isPrefixOf (c :: cs) = true := by
      rw [List.isPrefixOf_iff_prefix]
      intro h
      exact hne (h.eq_of_length_le hlen).symm
    have hshort : cs.length < old.length := hlen
    have hother : cs ≠ old := by
      intro h
      rw [h] at hshort
      exact Nat.lt_irrefl _ hshort
    rw [replaceChars, if_neg miss, ih hshort.le hother]

theorem replaceChars_self (hpart : part ≠ []) (s : List Char) : replaceChars part part s = s := by
  induction s using replaceChars.induct part with
  | case1 => exact replaceChars_nil part part
  | case2 c cs hit ih =>
    obtain ⟨p, ps, rfl⟩ := List.exists_cons_of_ne_nil hpart
    obtain ⟨rest, hrest⟩ := List.isPrefixOf_iff_prefix.mp hit
    rw [replaceChars, if_pos hit, ih]
    rw [List.cons_append, List.cons.injEq] at hrest
    obtain ⟨rfl, rfl⟩ := hrest
    simp
  | case3 c cs miss ih => rw [replaceChars, if_neg miss, ih]

/-- Taking away a part of which nothing would be left changes nothing of what is left. -/
theorem flatMap_replaceChars_nil {f : Char → List Char} (hne : old ≠ []) (hold : ∀ c ∈ old, f c = [])
    (s : List Char) : (replaceChars old [] s).flatMap f = s.flatMap f := by
  induction s using replaceChars.induct old with
  | case1 => rw [replaceChars_nil]
  | case2 c cs hit ih =>
    obtain ⟨p, ps, rfl⟩ := List.exists_cons_of_ne_nil hne
    obtain ⟨rest, hrest⟩ := List.isPrefixOf_iff_prefix.mp hit
    rw [replaceChars, if_pos hit, List.nil_append, ih]
    rw [List.cons_append, List.cons.injEq] at hrest
    obtain ⟨rfl, rfl⟩ := hrest
    rw [← List.cons_append, List.flatMap_append, List.flatMap_eq_nil_iff.mpr hold]
    simp
  | case3 c cs miss ih => rw [replaceChars, if_neg miss, List.flatMap_cons, List.flatMap_cons, ih]

theorem mem_replaceChars (h : x ∈ replaceChars old new s) : x ∈ s ∨ x ∈ new := by
  induction s using replaceChars.induct old with
  | case1 => simp at h
  | case2 c cs hit ih =>
    rw [replaceChars, if_pos hit, List.mem_append] at h
    rcases h with h | h
    · exact .inr h
    · rcases ih h with h | h
      · exact .inl (List.mem_cons_of_mem c (List.mem_of_mem_drop h))
      · exact .inr h
  | case3 c cs miss ih =>
    rw [replaceChars, if_neg miss, List.mem_cons] at h
    rcases h with rfl | h
    · exact .inl (by simp)
    · rcases ih h with h | h
      · exact .inl (List.mem_cons_of_mem c h)
      · exact .inr h

theorem replaceChars_singleton (x : Char) (new s : List Char) :
    replaceChars [x] new s = s.flatMap fun c => if c = x then new else [c] := by
  induction s with
  | nil => simp
  | cons c cs ih =>
    rw [replaceChars, List.flatMap_cons]
    by_cases h : c = x
    · simp [h, ih]
    · have hmiss : x ≠ c := fun hx => h hx.symm
      simp [h, hmiss, ih]

theorem length_replaceChars_le (hlen : new.length ≤ old.length) (s : List Char) :
    (replaceChars old new s).length ≤ s.length := by
  induction s using replaceChars.induct old with
  | case1 => simp
  | case2 c cs hit ih =>
    have := (List.isPrefixOf_iff_prefix.mp hit).length_le
    rw [replaceChars, if_pos hit]
    simp only [List.length_append, List.length_drop, List.length_cons] at ih this ⊢
    omega
  | case3 c cs miss ih =>
    rw [replaceChars, if_neg miss]
    simpa using ih

theorem replaceChars_eq_nil (hnew : new ≠ []) : replaceChars old new s = [] ↔ s = [] := by
  cases s with
  | nil => simp
  | cons c cs =>
    rw [replaceChars]
    split <;> simp [hnew]

theorem head?_replaceChars (hnew : new ≠ []) (h : (replaceChars old new s).head? = some x) :
    s.head? = some x ∨ new.head? = some x := by
  cases s with
  | nil => simp at h
  | cons c cs =>
    rw [replaceChars] at h
    split at h
    · rw [List.head?_append_of_ne_nil _ hnew] at h
      exact .inr h
    · exact .inl h

theorem getLast?_replaceChars (hnew : new ≠ []) (h : (replaceChars old new s).getLast? = some x) :
    s.getLast? = some x ∨ x ∈ new := by
  induction s using replaceChars.induct old with
  | case1 => simp at h
  | case2 c cs hit ih =>
    rw [replaceChars, if_pos hit, List.getLast?_append] at h
    rcases hrest : (replaceChars old new (cs.drop (old.length - 1))).getLast? with _ | y
    · rw [hrest, Option.none_or] at h
      exact .inr (List.mem_of_getLast? h)
    · rw [hrest, Option.some_or] at h
      rcases ih (hrest.trans h) with hlast | hmem
      · rw [List.getLast?_drop] at hlast
        split at hlast
        · cases hlast
        · exact .inl (by rw [List.getLast?_cons, hlast]; rfl)
      · exact .inr hmem
  | case3 c cs miss ih =>
    rw [replaceChars, if_neg miss, List.getLast?_cons] at h
    rcases hrest : (replaceChars old new cs).getLast? with _ | y
    · have hcs : cs = [] := by
        rw [List.getLast?_eq_none_iff] at hrest
        exact (replaceChars_eq_nil hnew).mp hrest
      rw [hrest] at h
      subst hcs
      exact .inl h
    · rw [hrest] at h
      rcases ih (hrest.trans h) with hlast | hmem
      · exact .inl (by rw [List.getLast?_cons, hlast]; rfl)
      · exact .inr hmem

def Bare (s : List Char) : Prop :=
  (∀ c, s.head? = some c → isBlank c = false) ∧ ∀ c, s.getLast? = some c → isBlank c = false

theorem bare_of_forall (h : ∀ c ∈ s, isBlank c = false) : Bare s :=
  ⟨fun c hc => h c (List.mem_of_head? hc), fun c hc => h c (List.mem_of_getLast? hc)⟩

private theorem dropWhile_of_head (h : ∀ c, s.head? = some c → p c = false) : s.dropWhile p = s := by
  cases s with
  | nil => rfl
  | cons c cs => simp [h c rfl]

private theorem trimEndChars_of_last (h : ∀ c, s.getLast? = some c → p c = false) : trimEndChars p s = s := by
  unfold trimEndChars
  rw [dropWhile_of_head (by simpa using h), List.reverse_reverse]

theorem trimEndChars_append {core blanks : List Char} (hcore : ∀ c, core.getLast? = some c → p c = false)
    (hblanks : ∀ c ∈ blanks, p c = true) : trimEndChars p (core ++ blanks) = core := by
  unfold trimEndChars
  rw [List.reverse_append, List.dropWhile_append_of_pos fun c hc => hblanks c (List.mem_reverse.mp hc)]
  exact trimEndChars_of_last hcore

theorem exists_padding (s : List Char) : ∃ a b, s = a ++ stripChars s ++ b ∧
    (∀ c ∈ a, isBlank c = true) ∧ (∀ c ∈ b, isBlank c = true) ∧ Bare (stripChars s) := by
  let tail := s.dropWhile isBlank
  have htail : tail = stripChars s ++ (tail.reverse.takeWhile isBlank).reverse := by
    change tail = (tail.reverse.dropWhile isBlank).reverse ++ _
    rw [← List.reverse_append, List.takeWhile_append_dropWhile, List.reverse_reverse]
  refine ⟨s.takeWhile isBlank, (tail.reverse.takeWhile isBlank).reverse, ?_, ?_, ?_, ?_, ?_⟩
  · rw [List.append_assoc, ← htail, List.takeWhile_append_dropWhile]
  · intro c hc
    exact List.mem_takeWhile_imp hc
  · intro c hc
    exact List.mem_takeWhile_imp (List.mem_reverse.mp hc)
  · intro c hc
    have hhead : tail.head? = some c := by
      rw [htail, List.head?_append, hc, Option.some_or]
    have := List.head?_dropWhile_not isBlank s
    rw [show (s.dropWhile isBlank).head? = some c from hhead] at this
    simpa using this
  · intro c hc
    have hhead : (tail.reverse.dropWhile isBlank).head? = some c := by
      rw [← hc]
      change _ = (tail.reverse.dropWhile isBlank).reverse.getLast?
      rw [List.getLast?_reverse]
    have := List.head?_dropWhile_not isBlank tail.reverse
    rw [hhead] at this
    simpa using this

theorem stripChars_isInfix (s : List Char) : stripChars s <:+: s := by
  obtain ⟨a, b, hs, -⟩ := exists_padding s
  exact ⟨a, b, hs.symm⟩

theorem strip_sublist (s : String) : (strip s).toList.Sublist s.toList := by
  rw [strip, String.toList_ofList]
  exact (stripChars_isInfix s.toList).sublist

theorem stripChars_padded {core : List Char} (ha : ∀ c ∈ a, isBlank c = true) (hb : ∀ c ∈ b, isBlank c = true)
    (hcore : Bare core) : stripChars (a ++ core ++ b) = core := by
  unfold stripChars
  rw [List.append_assoc, List.dropWhile_append_of_pos ha]
  by_cases hne : core = []
  · have hnone : b.dropWhile isBlank = [] := List.dropWhile_eq_nil_iff.mpr hb
    simp [hne, hnone, trimEndChars]
  · have hhead : (core ++ b).dropWhile isBlank = core ++ b := by
      apply dropWhile_of_head
      intro c hc
      rw [List.head?_append_of_ne_nil _ hne] at hc
      exact hcore.1 c hc
    rw [hhead]
    exact trimEndChars_append hcore.2 hb

theorem stripChars_append (ha : ∀ c ∈ a, isBlank c = true) (hb : ∀ c ∈ b, isBlank c = true) (s : List Char) :
    stripChars (a ++ s ++ b) = stripChars s := by
  obtain ⟨a', b', hs, ha', hb', hbare⟩ := exists_padding s
  have hpadded : a ++ s ++ b = (a ++ a') ++ stripChars s ++ (b' ++ b) := by
    conv_lhs => rw [hs]
    simp only [List.append_assoc]
  have hbefore : ∀ c ∈ a ++ a', isBlank c = true := List.forall_mem_append.mpr ⟨ha, ha'⟩
  have hbehind : ∀ c ∈ b' ++ b, isBlank c = true := List.forall_mem_append.mpr ⟨hb', hb⟩
  rw [hpadded, stripChars_padded hbefore hbehind hbare]

theorem stripChars_replaceChars (hold : old ≠ []) (hnew : new ≠ [])
    (hblank : ∀ c ∈ old ++ new, isBlank c = false) (s : List Char) :
    stripChars (replaceChars old new s) = replaceChars old new (stripChars s) := by
  obtain ⟨a, b, hs, ha, hb, hbare⟩ := exists_padding s
  have hout (c : Char) (hc : isBlank c = true) : c ∉ old := by
    intro hm
    rw [hblank c (List.mem_append_left _ hm)] at hc
    cases hc
  have hpadded : replaceChars old new s = a ++ replaceChars old new (stripChars s) ++ b := by
    conv_lhs => rw [hs]
    rw [replaceChars_append_right hold (fun c hc => hout c (hb c hc)),
      replaceChars_append_left hold (fun c hc => hout c (ha c hc))]
  rw [hpadded]
  apply stripChars_padded ha hb
  constructor
  · intro c hc
    rcases head?_replaceChars hnew hc with h | h
    · exact hbare.1 c h
    · exact hblank c (List.mem_append_right _ (List.mem_of_head? h))
  · intro c hc
    rcases getLast?_replaceChars hnew hc with h | h
    · exact hbare.2 c h
    · exact hblank c (List.mem_append_right _ h)

/-- The rules, each what is replaced and what by, applied one after the other. -/
def replaceEach (rules : List (List Char × List Char)) (s : List Char) : List Char :=
  rules.foldl (fun s rule => replaceChars rule.1 rule.2 s) s

section

variable {rules : List (List Char × List Char)}

theorem replaceEach_cons (rule : List Char × List Char) (s : List Char) :
    replaceEach (rule :: rules) s = replaceEach rules (replaceChars rule.1 rule.2 s) := rfl

theorem replaceEach_empty (rules : List (List Char × List Char)) : replaceEach rules [] = [] := by
  induction rules with
  | nil => rfl
  | cons rule rules ih => rw [replaceEach_cons, replaceChars_nil, ih]

theorem replaceEach_append_block {part : List Char} (hne : part ≠ [])
    (hrules : ∀ rule ∈ rules, rule.1 ≠ [] ∧ ∀ c ∈ part, c ∉ rule.1) (a b : List Char) :
    replaceEach rules (a ++ part ++ b) = replaceEach rules a ++ part ++ replaceEach rules b := by
  induction rules generalizing a b with
  | nil => rfl
  | cons rule rules ih =>
    obtain ⟨hold, hpart⟩ := hrules rule (by simp)
    simp only [replaceEach_cons]
    rw [replaceChars_append_block _ hold hpart hne,
      ih (fun rule h => hrules rule (List.mem_cons_of_mem _ h))]

variable {s : List Char}

theorem replaceEach_eq_self (hrules : ∀ rule ∈ rules, ∃ x ∈ rule.1, x ∉ s) : replaceEach rules s = s := by
  induction rules with
  | nil => rfl
  | cons rule rules ih =>
    obtain ⟨x, hold, hs⟩ := hrules rule (by simp)
    rw [replaceEach_cons, replaceChars_eq_self hold hs,
      ih (fun rule h => hrules rule (List.mem_cons_of_mem _ h))]

theorem length_replaceEach_le (hrules : ∀ rule ∈ rules, rule.2.length ≤ rule.1.length)
    (s : List Char) : (replaceEach rules s).length ≤ s.length := by
  induction rules generalizing s with
  | nil => exact le_rfl
  | cons rule rules ih =>
    rw [replaceEach_cons]
    exact (ih (fun rule h => hrules rule (List.mem_cons_of_mem _ h)) _).trans
      (length_replaceChars_le (hrules rule (by simp)) s)

/-- A character that no rule brings in without having found it is not brought in. -/
theorem notMem_replaceEach {x : Char} (hs : x ∉ s) (hrules : ∀ rule ∈ rules, x ∈ rule.1 ∨ x ∉ rule.2) :
    x ∉ replaceEach rules s := by
  induction rules generalizing s with
  | nil => exact hs
  | cons rule rules ih =>
    rw [replaceEach_cons]
    apply ih _ (fun rule h => hrules rule (List.mem_cons_of_mem _ h))
    rcases hrules rule (by simp) with hold | hnew
    · rw [replaceChars_eq_self hold hs]
      exact hs
    · intro h
      exact (mem_replaceChars h).elim hs hnew

theorem head?_replaceEach {x : Char} (hs : s.head? = some x)
    (hrules : ∀ rule ∈ rules, rule.1 ≠ [] ∧ (rule.1.head? = some x → rule.2.head? = some x)) :
    (replaceEach rules s).head? = some x := by
  induction rules generalizing s with
  | nil => exact hs
  | cons rule rules ih =>
    rw [replaceEach_cons]
    apply ih _ (fun rule h => hrules rule (List.mem_cons_of_mem _ h))
    obtain ⟨hold, hhead⟩ := hrules rule (by simp)
    cases s with
    | nil => cases hs
    | cons c cs =>
      rw [replaceChars]
      split
      case isTrue hit =>
        obtain ⟨t, ht⟩ := List.isPrefixOf_iff_prefix.mp hit
        have hfirst : rule.1.head? = some x := by
          rw [← hs, ← ht, List.head?_append_of_ne_nil _ hold]
        rw [List.head?_append, hhead hfirst, Option.some_or]
      case isFalse => exact hs

theorem stripChars_replaceEach
    (hrules : ∀ rule ∈ rules, rule.1 ≠ [] ∧ rule.2 ≠ [] ∧ ∀ c ∈ rule.1 ++ rule.2, isBlank c = false)
    (s : List Char) : stripChars (replaceEach rules s) = replaceEach rules (stripChars s) := by
  induction rules generalizing s with
  | nil => rfl
  | cons rule rules ih =>
    obtain ⟨hold, hnew, hblank⟩ := hrules rule (by simp)
    rw [replaceEach_cons, replaceEach_cons, ih (fun rule h => hrules rule (List.mem_cons_of_mem _ h)),
      stripChars_replaceChars hold hnew hblank]

end

end ThreatAtlas.Text
