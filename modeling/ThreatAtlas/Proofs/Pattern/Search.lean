import ThreatAtlas.Proofs.Pattern.Words

/-!
# Where a search finds its matches

A search goes through a text from the left, and a match hides all others that begin inside it. No match
reaches over a character that its pattern never holds, so behind such a character the search goes on as if
it began there. What is the only match at that place is found.
-/

namespace ThreatAtlas.Pattern

variable {p : Pattern} {before : Option Char} {start place : Nat} {cs pre found taken rest : List Char}

theorem locateFrom_of_match? (hne : taken ≠ [])
    (h : p.match? ⟨before, taken ++ rest⟩ = some ⟨lastOf before taken, rest⟩) (start : Nat) :
    p.locateFrom before start (taken ++ rest) =
      (start, taken) :: p.locateFrom (lastOf before taken) (start + taken.length) rest := by
  have hfound := upTo_append taken rest before (lastOf before taken)
  have hlength : (taken ++ rest).length - rest.length = taken.length := by simp
  obtain ⟨c, cs, rfl⟩ := List.exists_cons_of_ne_nil hne
  have hshort : rest.length ≤ (cs ++ rest).length := by simp
  rw [List.cons_append] at h hfound hlength ⊢
  rw [locateFrom, h]
  dsimp only
  rw [if_pos hshort, hfound, hlength]

theorem locateFrom_cons (p : Pattern) (before : Option Char) (start : Nat) (c : Char) (cs : List Char) :
    (∃ taken rest, c :: cs = taken ++ rest ∧ taken ≠ [] ∧ Takes p before taken rest ∧
      p.locateFrom before start (c :: cs) =
        (start, taken) :: p.locateFrom (lastOf before taken) (start + taken.length) rest) ∨
    p.locateFrom before start (c :: cs) = p.locateFrom (some c) (start + 1) cs := by
  cases hmatch : p.match? ⟨before, c :: cs⟩ with
  | none =>
    right
    rw [locateFrom, hmatch]
  | some stop =>
    obtain ⟨taken, hcs, htaken, hbefore⟩ := match?_takes hmatch
    have hstop : stop = ⟨lastOf before taken, stop.rest⟩ := by rw [← hbefore]
    by_cases hne : taken = []
    · -- A match of no characters is passed over.
      have hrest : stop.rest = c :: cs := by simpa [hne] using hcs.symm
      have hlong : ¬ stop.rest.length ≤ cs.length := by simp [hrest]
      right
      rw [locateFrom, hmatch]
      exact if_neg hlong
    · left
      rw [hcs, hstop] at hmatch
      refine ⟨taken, stop.rest, hcs, hne, htaken, ?_⟩
      rw [hcs]
      exact locateFrom_of_match? hne hmatch start

theorem mem_locateFrom (h : (place, found) ∈ p.locateFrom before start cs) :
    ∃ pre rest, cs = pre ++ found ++ rest ∧ place = start + pre.length ∧
      Takes p (lastOf before pre) found rest := by
  induction hlen : cs.length using Nat.strong_induction_on generalizing before start cs with
  | _ n ih =>
  subst hlen
  cases cs with
  | nil => simp [locateFrom] at h
  | cons c cs =>
    rcases locateFrom_cons p before start c cs with ⟨taken, rest, hcs, hne, htaken, hstep⟩ | hstep
    · have hshort : rest.length < (c :: cs).length := by
        have := List.length_pos_iff.mpr hne
        simp only [hcs, List.length_append]
        omega
      rw [hstep, List.mem_cons, Prod.mk.injEq] at h
      rcases h with ⟨rfl, rfl⟩ | h
      · exact ⟨[], rest, hcs, rfl, htaken⟩
      · obtain ⟨pre, rest', hrest, hplace, htakes⟩ := ih _ hshort h rfl
        refine ⟨taken ++ pre, rest', ?_, ?_, ?_⟩
        · simp [hcs, hrest]
        · rw [hplace, List.length_append, Nat.add_assoc]
        · rwa [lastOf_append]
    · rw [hstep] at h
      obtain ⟨pre, rest, hrest, hplace, htakes⟩ := ih _ (Nat.lt_succ_self _) h rfl
      refine ⟨c :: pre, rest, ?_, ?_, ?_⟩
      · rw [hrest]
        rfl
      · rw [hplace, List.length_cons, Nat.add_assoc, Nat.add_comm 1]
      · rwa [lastOf_cons]

theorem mem_locate {s value : String} (h : (place, value) ∈ p.locate s) :
    ∃ pre rest, s.toList = pre ++ value.toList ++ rest ∧ place = pre.length ∧
      Takes p (lastOf none pre) value.toList rest := by
  obtain ⟨⟨_, found⟩, hfound, heq⟩ := List.mem_map.mp h
  rw [Prod.mk.injEq] at heq
  obtain ⟨rfl, rfl⟩ := heq
  simpa using mem_locateFrom hfound

theorem exists_append_of_gap (hgap : ∀ c ∈ pre.getLast?, p.mayHold c = false)
    {suffix : List Char} (htaken : Takes p before taken rest) (h : pre ++ suffix = taken ++ rest)
    (hpre : pre ≠ []) : ∃ more, pre = taken ++ more ∧ rest = more ++ suffix := by
  rcases List.append_eq_append_iff.mp h with ⟨more, htake, -⟩ | ⟨more, hmore, hrest⟩
  · obtain ⟨c, hc⟩ : ∃ c, pre.getLast? = some c := Option.ne_none_iff_exists'.mp (by simpa using hpre)
    have hmem : c ∈ taken := by
      rw [htake]
      exact List.mem_append_left _ (List.mem_of_getLast? hc)
    have hfree := hgap c hc
    rw [htaken.mayHold hmem] at hfree
    cases hfree
  · exact ⟨more, hmore, hrest⟩

theorem locateFrom_append (hgap : ∀ c ∈ pre.getLast?, p.mayHold c = false) (before : Option Char)
    (start : Nat) (rest : List Char) :
    ∃ earlier, p.locateFrom before start (pre ++ rest) =
      earlier ++ p.locateFrom (lastOf before pre) (start + pre.length) rest := by
  induction hlen : pre.length using Nat.strong_induction_on generalizing before start pre with
  | _ n ih =>
  subst hlen
  cases pre with
  | nil => exact ⟨[], rfl⟩
  | cons c cs =>
    have hlast {more : List Char} (hmore : more <:+ c :: cs) :
        ∀ d ∈ more.getLast?, p.mayHold d = false := by
      intro d hd
      apply hgap
      obtain ⟨front, hfront⟩ := hmore
      rw [← hfront, List.getLast?_append, Option.mem_def.mp hd, Option.some_or]
      exact Option.mem_some_self d
    rcases locateFrom_cons p before start c (cs ++ rest) with ⟨taken, rest', hcs, hne, htaken, hstep⟩ | hstep
    · obtain ⟨more, hpre, rfl⟩ := exists_append_of_gap hgap htaken hcs (List.cons_ne_nil c cs)
      have hshort : more.length < (c :: cs).length := by
        have := List.length_pos_iff.mpr hne
        simp only [hpre, List.length_append]
        omega
      obtain ⟨earlier, hearlier⟩ := ih _ hshort (hlast ⟨taken, hpre.symm⟩) (lastOf before taken)
        (start + taken.length) rfl
      refine ⟨(start, taken) :: earlier, ?_⟩
      rw [List.cons_append, hstep, hearlier, hpre, lastOf_append, List.length_append, Nat.add_assoc]
      rfl
    · obtain ⟨earlier, hearlier⟩ := ih _ (Nat.lt_succ_self _) (hlast (List.suffix_cons c cs)) (some c)
        (start + 1) rfl
      refine ⟨earlier, ?_⟩
      rw [List.cons_append, hstep, hearlier, lastOf_cons, List.length_cons, Nat.add_assoc, Nat.add_comm 1]

theorem match?_eq_of_unique (hp : p.isProductive = true) (h : Takes p before taken rest)
    (hunique : ∀ other more, other ++ more = taken ++ rest → Takes p before other more → other = taken) :
    p.match? ⟨before, taken ++ rest⟩ = some ⟨lastOf before taken, rest⟩ := by
  obtain ⟨stop, hstop⟩ := Option.isSome_iff_exists.mp ((isSome_match?_iff hp).mpr ⟨taken, rest, rfl, h⟩)
  obtain ⟨other, hsplit, hother, hbefore⟩ := match?_takes hstop
  obtain rfl := hunique other stop.rest hsplit.symm hother
  have hrest : rest = stop.rest := List.append_cancel_left hsplit
  rw [hstop, hrest, ← hbefore]

/-- The only text that a pattern can take at a place is found there, unless a match from before reaches
over the place. -/
theorem mem_locate_of_unique (hp : p.isProductive = true) (hgap : ∀ c ∈ pre.getLast?, p.mayHold c = false)
    (hne : taken ≠ []) (h : Takes p (lastOf none pre) taken rest)
    (hunique : ∀ other more, other ++ more = taken ++ rest → Takes p (lastOf none pre) other more →
      other = taken) :
    (pre.length, String.ofList taken) ∈ p.locate (String.ofList (pre ++ (taken ++ rest))) := by
  obtain ⟨earlier, hearlier⟩ := locateFrom_append hgap none 0 (taken ++ rest)
  rw [locate, String.toList_ofList, hearlier, locateFrom_of_match? hne (match?_eq_of_unique hp h hunique)]
  apply List.mem_map.mpr
  refine ⟨(0 + pre.length, taken), by simp, ?_⟩
  rw [Nat.zero_add]

end ThreatAtlas.Pattern
