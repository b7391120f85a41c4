import Mathlib
import ThreatAtlas.Pattern

/-!
# What patterns match

`Takes` says which characters a pattern may take at a place, with no order among the ways to match. A
search only finds characters that its pattern takes, at the place where they stand in the text. Where a
pattern takes characters, its run does not fail.
-/

namespace ThreatAtlas.Pattern

variable {β : Type}

def lastOf (before : Option Char) (cs : List Char) : Option Char :=
  cs.getLast?.or before

@[simp] theorem lastOf_nil (before : Option Char) : lastOf before [] = before := rfl

theorem lastOf_append (before : Option Char) (cs ds : List Char) :
    lastOf before (cs ++ ds) = lastOf (lastOf before cs) ds := by
  simp only [lastOf, List.getLast?_append, Option.or_assoc]

theorem lastOf_cons (before : Option Char) (c : Char) (cs : List Char) :
    lastOf before (c :: cs) = lastOf (some c) cs :=
  lastOf_append before [c] cs

/-- The pattern takes `cs` where `before` stands before it and `rest` behind it. -/
inductive Takes : Pattern → Option Char → List Char → List Char → Prop where
  | span {inClass : Char → Bool} {least : Nat} {most : Option Nat} {before : Option Char}
      {cs rest : List Char} (all : ∀ c ∈ cs, inClass c = true) (enough : least ≤ cs.length)
      (bounded : ∀ m, most = some m → cs.length ≤ m) : Takes (.span inClass least most) before cs rest
  | boundary {before : Option Char} {rest : List Char} (edge : Place.isEdge ⟨before, rest⟩ = true) :
      Takes .boundary before [] rest
  | finish {before : Option Char} {rest : List Char} (atEnd : Place.isFinish ⟨before, rest⟩ = true) :
      Takes .finish before [] rest
  | seq {a b : Pattern} {before : Option Char} {cs ds rest : List Char}
      (first : Takes a before cs (ds ++ rest)) (second : Takes b (lastOf before cs) ds rest) :
      Takes (.seq a b) before (cs ++ ds) rest
  | left {a b : Pattern} {before : Option Char} {cs rest : List Char} (taken : Takes a before cs rest) :
      Takes (.choice a b) before cs rest
  | right {a b : Pattern} {before : Option Char} {cs rest : List Char} (taken : Takes b before cs rest) :
      Takes (.choice a b) before cs rest
  | once {p : Pattern} {before : Option Char} {cs rest : List Char} (taken : Takes p before cs rest) :
      Takes (.many p) before cs rest
  | more {p : Pattern} {before : Option Char} {cs ds rest : List Char}
      (first : Takes p before cs (ds ++ rest)) (others : Takes (.many p) (lastOf before cs) ds rest) :
      Takes (.many p) before (cs ++ ds) rest

variable {cs rest taken : List Char} {before : Option Char} {most : Option Nat} {least : Nat}
  {inClass : Char → Bool} {r : β} {go : Place → Option β} {p : Pattern}

theorem takes_span : Takes (.span inClass least most) before cs rest ↔
      (∀ c ∈ cs, inClass c = true) ∧ least ≤ cs.length ∧ ∀ m, most = some m → cs.length ≤ m := by
  constructor
  · intro h
    cases h with
    | span all enough bounded => exact ⟨all, enough, bounded⟩
  · intro hparts
    obtain ⟨all, enough, bounded⟩ := hparts
    exact .span all enough bounded

theorem takes_seq {a b : Pattern} :
    Takes (.seq a b) before cs rest ↔ ∃ xs ys, cs = xs ++ ys ∧ Takes a before xs (ys ++ rest) ∧
      Takes b (lastOf before xs) ys rest := by
  constructor
  · intro h
    cases h with
    | seq first second => exact ⟨_, _, rfl, first, second⟩
  · intro hparts
    obtain ⟨xs, ys, rfl, first, second⟩ := hparts
    exact .seq first second

theorem takes_choice {a b : Pattern} :
    Takes (.choice a b) before cs rest ↔ Takes a before cs rest ∨ Takes b before cs rest := by
  constructor
  · intro h
    cases h with
    | left taken => exact .inl taken
    | right taken => exact .inr taken
  · intro hparts
    rcases hparts with taken | taken
    · exact .left taken
    · exact .right taken

theorem takes_one : Takes (one inClass) before cs rest ↔ ∃ c, cs = [c] ∧ inClass c = true := by
  rw [one, takes_span]
  constructor
  · intro h
    obtain ⟨all, enough, bounded⟩ := h
    have hlen : cs.length = 1 := le_antisymm (bounded 1 rfl) enough
    obtain ⟨c, rfl⟩ := List.length_eq_one_iff.mp hlen
    exact ⟨c, rfl, all c (by simp)⟩
  · intro h
    obtain ⟨c, rfl, hc⟩ := h
    simp [hc]

theorem takes_char {x : Char} : Takes (char x) before cs rest ↔ cs = [x] := by
  rw [char, takes_one]
  simp

theorem takes_optional {x : Char} : Takes (optional x) before cs rest ↔ cs = [] ∨ cs = [x] := by
  rw [optional, takes_span]
  constructor
  · intro h
    obtain ⟨all, -, bounded⟩ := h
    have hlen : cs.length ≤ 1 := bounded 1 rfl
    rcases Nat.le_one_iff_eq_zero_or_eq_one.mp hlen with hnone | hone
    · exact .inl (List.length_eq_zero_iff.mp hnone)
    · obtain ⟨c, rfl⟩ := List.length_eq_one_iff.mp hone
      have hc : c = x := by simpa using all c (by simp)
      exact .inr (by rw [hc])
  · intro h
    rcases h with rfl | rfl
    · simp
    · simp

private theorem runSpan_takes (cs : List Char) (h : runSpan inClass go least most before cs = some r) :
    ∃ taken rest, cs = taken ++ rest ∧ (∀ c ∈ taken, inClass c = true) ∧ least ≤ taken.length ∧
      (∀ m, most = some m → taken.length ≤ m) ∧ go ⟨lastOf before taken, rest⟩ = some r := by
  induction cs generalizing least most before with
  | nil =>
    simp only [runSpan] at h
    split at h
    case isTrue hl =>
      have : least = 0 := by simpa using hl
      exact ⟨[], [], by simp [this, h]⟩
    case isFalse => cases h
  | cons c cs ih =>
    have stop (hl : least = 0) (hgo : go ⟨before, c :: cs⟩ = some r) :
        ∃ taken rest, c :: cs = taken ++ rest ∧ (∀ c ∈ taken, inClass c = true) ∧
          least ≤ taken.length ∧ (∀ m, most = some m → taken.length ≤ m) ∧
          go ⟨lastOf before taken, rest⟩ = some r :=
      ⟨[], c :: cs, by simp [hl, hgo]⟩
    -- A longer span is tried first, and the span stops here only when that fails.
    simp only [runSpan] at h
    split at h
    case h_1 r' hlonger =>
      split at hlonger
      case isTrue hc =>
        cases h
        obtain ⟨taken, rest, rfl, hall, hleast, hmost, hgo⟩ := ih hlonger
        simp only [Bool.and_eq_true, bne_iff_ne, ne_eq] at hc
        refine ⟨c :: taken, rest, rfl, ?_, ?_, ?_, ?_⟩
        · intro d hd
          rcases List.mem_cons.mp hd with rfl | hd
          · exact hc.1
          · exact hall d hd
        · simp only [List.length_cons]
          omega
        · intro m hm
          subst hm
          have := hmost (m - 1) rfl
          have : m ≠ 0 := fun h0 => hc.2 (by rw [h0])
          simp only [List.length_cons]
          omega
        · rw [lastOf_cons]
          exact hgo
      case isFalse => cases hlonger
    case h_2 =>
      split at h
      case isTrue hl => exact stop (by simpa using hl) h
      case isFalse => cases h

private theorem runMany_takes
    (step : ∀ {place : Place} {next : Place → Option β}, p.run place next = some r →
      ∃ taken rest, place.rest = taken ++ rest ∧ Takes p place.before taken rest ∧
        next ⟨lastOf place.before taken, rest⟩ = some r) (fuel : List Char) {place : Place}
    (h : runMany (run p) go fuel place = some r) :
    ∃ taken rest, place.rest = taken ++ rest ∧ Takes (.many p) place.before taken rest ∧
      go ⟨lastOf place.before taken, rest⟩ = some r := by
  -- One round takes one unit of the fuel, and `step` holds at every place.
  induction fuel generalizing place with
  | nil => cases h
  | cons _ fuel ih =>
    obtain ⟨taken, rest, hrest, htaken, hnext⟩ := step h
    split at hnext
    case h_1 r' hmore =>
      cases hnext
      obtain ⟨others, rest', hrest', hothers, hgo⟩ := ih hmore
      dsimp only at hrest' hothers hgo
      subst hrest'
      refine ⟨taken ++ others, rest', ?_, .more htaken hothers, ?_⟩
      · rw [hrest, List.append_assoc]
      · rw [lastOf_append]
        exact hgo
    case h_2 => exact ⟨taken, rest, hrest, .once htaken, hnext⟩

theorem run_takes (p : Pattern) {place : Place} (h : p.run place go = some r) :
    ∃ taken rest, place.rest = taken ++ rest ∧ Takes p place.before taken rest ∧
      go ⟨lastOf place.before taken, rest⟩ = some r := by
  induction p generalizing place go with
  | span inClass least most =>
    obtain ⟨taken, rest, hrest, hall, hleast, hmost, hgo⟩ := runSpan_takes _ h
    exact ⟨taken, rest, hrest, .span hall hleast hmost, hgo⟩
  | boundary =>
    simp only [run] at h
    split at h
    case isTrue hedge => exact ⟨[], place.rest, rfl, .boundary hedge, h⟩
    case isFalse => cases h
  | finish =>
    simp only [run] at h
    split at h
    case isTrue hend => exact ⟨[], place.rest, rfl, .finish hend, h⟩
    case isFalse => cases h
  | seq a b iha ihb =>
    obtain ⟨cs, rest, hrest, ha, hnext⟩ := iha h
    obtain ⟨ds, rest', hrest', hb, hgo⟩ := ihb hnext
    dsimp only at hrest' hb hgo
    subst hrest'
    refine ⟨cs ++ ds, rest', ?_, .seq ha hb, ?_⟩
    · rw [hrest, List.append_assoc]
    · rw [lastOf_append]
      exact hgo
  | choice a b iha ihb =>
    simp only [run] at h
    split at h
    case h_1 r' hleft =>
      cases h
      obtain ⟨cs, rest, hrest, ha, hgo⟩ := iha hleft
      exact ⟨cs, rest, hrest, .left ha, hgo⟩
    case h_2 =>
      obtain ⟨cs, rest, hrest, hb, hgo⟩ := ihb h
      exact ⟨cs, rest, hrest, .right hb, hgo⟩
  | many p ih => exact runMany_takes ih _ h

theorem match?_takes {stop : Place} (h : p.match? ⟨before, cs⟩ = some stop) :
    ∃ taken, cs = taken ++ stop.rest ∧ Takes p before taken stop.rest ∧
      stop.before = lastOf before taken := by
  obtain ⟨taken, rest, hrest, htaken, hstop⟩ := run_takes p h
  cases hstop
  exact ⟨taken, hrest, htaken, rfl⟩

theorem upTo_append (taken rest : List Char) (before after : Option Char) :
    Place.upTo ⟨before, taken ++ rest⟩ ⟨after, rest⟩ = taken := by
  simp only [Place.upTo, List.length_append, Nat.add_sub_cancel, List.take_left]

theorem mem_findFrom {found : List Char} (h : found ∈ p.findFrom before cs) :
    ∃ pre rest, cs = pre ++ found ++ rest ∧ found ≠ [] ∧ Takes p (lastOf before pre) found rest := by
  induction before, cs using findFrom.induct p with
  | case1 before => simp [findFrom] at h
  | case2 before c cs stop hmatch hle ih =>
    obtain ⟨taken, hcs, htaken, hbefore⟩ := match?_takes hmatch
    have hupTo : Place.upTo ⟨before, c :: cs⟩ stop = taken := by
      rw [hcs]
      exact upTo_append taken stop.rest before stop.before
    have hne : taken ≠ [] := by
      intro hnil
      rw [hnil, List.nil_append] at hcs
      rw [← hcs, List.length_cons] at hle
      omega
    rw [findFrom, hmatch] at h
    simp only [hle, ↓reduceIte, hupTo, List.mem_cons] at h
    rcases h with rfl | h
    · exact ⟨[], stop.rest, hcs, hne, htaken⟩
    · obtain ⟨pre, rest, hrest, hfound, htakes⟩ := ih h
      refine ⟨taken ++ pre, rest, ?_, hfound, ?_⟩
      · rw [hcs, hrest]
        simp only [List.append_assoc]
      · rw [lastOf_append, ← hbefore]
        exact htakes
  | case3 before c cs stop hmatch hgt ih =>
    rw [findFrom, hmatch] at h
    simp only [hgt, ↓reduceIte] at h
    obtain ⟨pre, rest, hrest, hfound, htakes⟩ := ih h
    exact ⟨c :: pre, rest, by rw [hrest]; rfl, hfound, by rw [lastOf_cons]; exact htakes⟩
  | case4 before c cs hmatch ih =>
    rw [findFrom, hmatch] at h
    obtain ⟨pre, rest, hrest, hfound, htakes⟩ := ih h
    exact ⟨c :: pre, rest, by rw [hrest]; rfl, hfound, by rw [lastOf_cons]; exact htakes⟩

theorem mem_findAll {s found : String} (h : found ∈ p.findAll s) :
    ∃ pre rest, s.toList = pre ++ found.toList ++ rest ∧ found.toList ≠ [] ∧
      Takes p (lastOf none pre) found.toList rest := by
  obtain ⟨cs, hcs, rfl⟩ := List.mem_map.mp h
  simpa using mem_findFrom hcs

theorem matchesStart_takes {s : String} (h : p.matchesStart s = true) :
    ∃ taken rest, s.toList = taken ++ rest ∧ Takes p none taken rest := by
  obtain ⟨stop, hstop⟩ := Option.isSome_iff_exists.mp h
  obtain ⟨taken, hs, htaken, -⟩ := match?_takes hstop
  exact ⟨taken, stop.rest, hs, htaken⟩

def mayHold : Pattern → Char → Bool
  | .span inClass _ _, c => inClass c
  | .boundary, _ => false
  | .finish, _ => false
  | .seq a b, c => a.mayHold c || b.mayHold c
  | .choice a b, c => a.mayHold c || b.mayHold c
  | .many p, c => p.mayHold c

theorem Takes.mayHold (h : Takes p before cs rest) {c : Char} (hc : c ∈ cs) : p.mayHold c = true := by
  induction h with
  | span all _ _ => exact all c hc
  | boundary | finish => cases hc
  | seq _ _ iha ihb =>
    rcases List.mem_append.mp hc with hc | hc
    · simp [Pattern.mayHold, iha hc]
    · simp [Pattern.mayHold, ihb hc]
  | left _ ih | right _ ih => simp [Pattern.mayHold, ih hc]
  | once _ ih => exact ih hc
  | more _ _ iha ihb =>
    rcases List.mem_append.mp hc with hc | hc
    · exact iha hc
    · exact ihb hc

def leastLength : Pattern → Nat
  | .span _ least _ => least
  | .boundary => 0
  | .finish => 0
  | .seq a b => a.leastLength + b.leastLength
  | .choice a b => min a.leastLength b.leastLength
  | .many p => p.leastLength

theorem Takes.leastLength_le (h : Takes p before cs rest) : p.leastLength ≤ cs.length := by
  induction h with
  | span _ enough _ => exact enough
  | boundary | finish => exact Nat.le_refl 0
  | seq _ _ iha ihb =>
    rw [leastLength, List.length_append]
    exact Nat.add_le_add iha ihb
  | left _ ih => exact (Nat.min_le_left _ _).trans ih
  | right _ ih => exact (Nat.min_le_right _ _).trans ih
  | once _ ih => exact ih
  | more _ _ iha _ =>
    rw [List.length_append]
    exact Nat.le_add_right_of_le iha

/-- What is repeated always takes a character. -/
def isProductive : Pattern → Bool
  | .seq a b => a.isProductive && b.isProductive
  | .choice a b => a.isProductive && b.isProductive
  | .many p => p.isProductive && 0 < p.leastLength
  | _ => true

private theorem isSome_runSpan (hall : ∀ c ∈ taken, inClass c = true) (hleast : least ≤ taken.length)
    (hmost : ∀ m, most = some m → taken.length ≤ m) (hgo : (go ⟨lastOf before taken, rest⟩).isSome = true) :
    (runSpan inClass go least most before (taken ++ rest)).isSome = true := by
  induction taken generalizing least most before with
  | nil =>
    obtain rfl : least = 0 := Nat.le_zero.mp hleast
    rw [lastOf_nil] at hgo
    cases rest with
    | nil => simpa [runSpan] using hgo
    | cons c cs =>
      rw [List.nil_append, runSpan]
      split
      · rfl
      · simpa using hgo
  | cons c taken ih =>
    have hc : inClass c = true := hall c (by simp)
    have hroom : (most != some 0) = true := by
      rw [bne_iff_ne]
      intro hnone
      have := hmost 0 hnone
      simp at this
    have hleast' : least - 1 ≤ taken.length := by
      simp only [List.length_cons] at hleast
      omega
    have hmost' : ∀ m, most.map (· - 1) = some m → taken.length ≤ m := by
      intro m hm
      obtain ⟨k, rfl, rfl⟩ := Option.map_eq_some_iff.mp hm
      have := hmost k rfl
      simp only [List.length_cons] at this
      omega
    rw [lastOf_cons] at hgo
    have hlonger := ih (fun d hd => hall d (by simp [hd])) hleast' hmost' hgo
    obtain ⟨r, hr⟩ := Option.isSome_iff_exists.mp hlonger
    rw [List.cons_append, runSpan]
    simp only [hc, hroom, Bool.and_self, if_true, hr, Option.isSome_some]

private theorem isSome_runMany (hleast : 0 < p.leastLength)
    (step : ∀ {before : Option Char} {taken rest : List Char} {next : Place → Option β},
      Takes p before taken rest → (next ⟨lastOf before taken, rest⟩).isSome = true →
      (p.run ⟨before, taken ++ rest⟩ next).isSome = true) (fuel : List Char)
    (hfuel : taken.length + rest.length ≤ fuel.length) (h : Takes (.many p) before taken rest)
    (hgo : (go ⟨lastOf before taken, rest⟩).isSome = true) :
    (runMany (run p) go fuel ⟨before, taken ++ rest⟩).isSome = true := by
  induction fuel generalizing before taken with
  | nil =>
    have := h.leastLength_le
    rw [leastLength] at this
    simp only [List.length_nil] at hfuel
    omega
  | cons _ fuel ih =>
    rw [runMany]
    cases h with
    | once htaken =>
      refine step htaken ?_
      split
      · rfl
      · exact hgo
    | more hfirst hothers =>
      have hshort := hfirst.leastLength_le
      rw [lastOf_append] at hgo
      rw [List.append_assoc]
      refine step hfirst ?_
      have hrest := ih (by simp only [List.length_append, List.length_cons] at hfuel; omega) hothers hgo
      obtain ⟨r, hr⟩ := Option.isSome_iff_exists.mp hrest
      rw [hr]
      rfl

theorem isSome_run_of_takes (hp : p.isProductive = true) (h : Takes p before taken rest)
    (hgo : (go ⟨lastOf before taken, rest⟩).isSome = true) :
    (p.run ⟨before, taken ++ rest⟩ go).isSome = true := by
  induction p generalizing before taken rest go with
  | span inClass least most =>
    obtain ⟨hall, hleast, hmost⟩ := takes_span.mp h
    exact isSome_runSpan hall hleast hmost hgo
  | boundary =>
    cases h with
    | boundary edge => simpa [run, edge] using hgo
  | finish =>
    cases h with
    | finish atEnd => simpa [run, atEnd] using hgo
  | seq a b iha ihb =>
    rw [isProductive, Bool.and_eq_true] at hp
    obtain ⟨cs, ds, rfl, hfirst, hsecond⟩ := takes_seq.mp h
    rw [lastOf_append] at hgo
    rw [List.append_assoc]
    exact iha hp.1 hfirst (ihb hp.2 hsecond hgo)
  | choice a b iha ihb =>
    rw [isProductive, Bool.and_eq_true] at hp
    rw [run]
    rcases takes_choice.mp h with htaken | htaken
    · obtain ⟨r, hr⟩ := Option.isSome_iff_exists.mp (iha hp.1 htaken hgo)
      rw [hr]
      rfl
    · split
      · rfl
      · exact ihb hp.2 htaken hgo
  | many p ih =>
    rw [isProductive, Bool.and_eq_true, decide_eq_true_eq] at hp
    exact isSome_runMany hp.2 (ih hp.1) _ (by simp) h hgo

/-- A pattern matches at a place exactly if it takes the characters there up to some later place. -/
theorem isSome_match?_iff (hp : p.isProductive = true) :
    (p.match? ⟨before, cs⟩).isSome = true ↔ ∃ taken rest, cs = taken ++ rest ∧ Takes p before taken rest := by
  constructor
  · intro h
    obtain ⟨stop, hstop⟩ := Option.isSome_iff_exists.mp h
    obtain ⟨taken, hcs, htaken, -⟩ := match?_takes hstop
    exact ⟨taken, stop.rest, hcs, htaken⟩
  · intro h
    obtain ⟨taken, rest, rfl, htaken⟩ := h
    exact isSome_run_of_takes hp htaken rfl

end ThreatAtlas.Pattern
