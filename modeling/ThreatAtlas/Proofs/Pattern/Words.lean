import ThreatAtlas.Proofs.Pattern

/-!
# Searching for whole words

The words of a text are its longest runs of word characters. A pattern that begins and ends at the edges of
a word takes a word as a whole or not at all, so a search for it finds just the words that it accepts, each
where it stands in the text.
-/

namespace ThreatAtlas

namespace Text

def words : List Char → List (List Char)
  | [] => []
  | c :: cs =>
    if isWord c then (c :: cs.takeWhile isWord) :: words (cs.dropWhile isWord) else words cs
termination_by cs => cs.length
decreasing_by
  · exact Nat.lt_succ_of_le (List.dropWhile_suffix _).length_le
  · exact Nat.lt_succ_self _

@[simp] theorem words_nil : words [] = [] := by
  rw [words]

variable {c : Char} {cs rest word : List Char} {start : Nat}

theorem words_cons_of_isWord (hc : isWord c = true) (cs : List Char) :
    words (c :: cs) = (c :: cs.takeWhile isWord) :: words (cs.dropWhile isWord) := by
  rw [words, if_pos hc]

theorem words_cons_of_not (hc : isWord c = false) (cs : List Char) : words (c :: cs) = words cs := by
  rw [words, hc, if_neg Bool.false_ne_true]

theorem run_append_rest (c : Char) (cs : List Char) :
    (c :: cs.takeWhile isWord) ++ cs.dropWhile isWord = c :: cs := by
  rw [List.cons_append, List.takeWhile_append_dropWhile]

theorem isWord_of_mem_run (hc : isWord c = true) : ∀ d ∈ c :: cs.takeWhile isWord, isWord d = true := by
  intro d hd
  rcases List.mem_cons.mp hd with rfl | hd
  · exact hc
  · exact List.mem_takeWhile_imp hd

theorem takeWhile_dropWhile_of_run {inClass : Char → Bool} {run : List Char}
    (hrun : ∀ c ∈ run, inClass c = true) (hrest : ∀ c ∈ rest.head?, inClass c = false) :
    (run ++ rest).takeWhile inClass = run ∧ (run ++ rest).dropWhile inClass = rest := by
  rw [List.takeWhile_append_of_pos hrun, List.dropWhile_append_of_pos hrun]
  cases rest with
  | nil => simp
  | cons d rest =>
    have hd : inClass d = false := hrest d rfl
    simp [hd]

theorem eq_of_run_append_eq {inClass : Char → Bool} {run run' rest' : List Char}
    (hrun : ∀ c ∈ run, inClass c = true) (hrest : ∀ c ∈ rest.head?, inClass c = false)
    (hrun' : ∀ c ∈ run', inClass c = true) (hrest' : ∀ c ∈ rest'.head?, inClass c = false)
    (h : run ++ rest = run' ++ rest') : run = run' ∧ rest = rest' := by
  obtain ⟨htake, hdrop⟩ := takeWhile_dropWhile_of_run hrun hrest
  obtain ⟨htake', hdrop'⟩ := takeWhile_dropWhile_of_run hrun' hrest'
  rw [← h] at htake' hdrop'
  exact ⟨htake.symm.trans htake', hdrop.symm.trans hdrop'⟩

theorem head?_dropWhile_isWord (cs : List Char) : ∀ c ∈ (cs.dropWhile isWord).head?, isWord c = false := by
  intro c hc
  have hne : cs.dropWhile isWord ≠ [] := by
    intro hnil
    rw [hnil] at hc
    cases hc
  have hhead := List.head_dropWhile_not isWord hne
  rw [List.head?_eq_some_head hne, Option.mem_some_iff] at hc
  rwa [hc] at hhead

/-! Where words stand -/

/-- At this place of the text stands a word: a block of word characters that cannot be made longer. -/
def IsRun (text : List Char) (start : Nat) (word : List Char) : Prop :=
  ∃ pre post, text = pre ++ word ++ post ∧ start = pre.length ∧ word ≠ [] ∧
    (∀ c ∈ word, isWord c = true) ∧ (∀ c ∈ pre.getLast?, isWord c = false) ∧
    ∀ c ∈ post.head?, isWord c = false

def runs (start : Nat) : List Char → List (Nat × List Char)
  | [] => []
  | c :: cs =>
    if isWord c then
      (start, c :: cs.takeWhile isWord) ::
        runs (start + (c :: cs.takeWhile isWord).length) (cs.dropWhile isWord)
    else runs (start + 1) cs
termination_by cs => cs.length
decreasing_by
  · exact Nat.lt_succ_of_le (List.dropWhile_suffix _).length_le
  · exact Nat.lt_succ_self _

@[simp] theorem runs_nil (start : Nat) : runs start [] = [] := by
  rw [runs]

theorem runs_cons_of_isWord (hc : isWord c = true) (start : Nat) (cs : List Char) :
    runs start (c :: cs) = (start, c :: cs.takeWhile isWord) ::
      runs (start + (c :: cs.takeWhile isWord).length) (cs.dropWhile isWord) := by
  rw [runs, if_pos hc]

theorem runs_cons_of_not (hc : isWord c = false) (start : Nat) (cs : List Char) :
    runs start (c :: cs) = runs (start + 1) cs := by
  rw [runs, hc, if_neg Bool.false_ne_true]

theorem map_snd_runs (start : Nat) (cs : List Char) : (runs start cs).map Prod.snd = words cs := by
  induction start, cs using runs.induct with
  | case1 start => simp
  | case2 start c cs hc ih => rw [runs_cons_of_isWord hc, words_cons_of_isWord hc, List.map_cons, ih]
  | case3 start c cs hc ih =>
    have hc : isWord c = false := by simpa using hc
    rw [runs_cons_of_not hc, words_cons_of_not hc, ih]

theorem not_isRun_nil : ¬ IsRun [] start word := by
  intro h
  obtain ⟨pre, post, htext, -, hne, -⟩ := h
  simp_all

theorem IsRun.start_ne_zero {text : List Char} (h : IsRun text start word)
    (hfirst : ∀ c ∈ text.head?, isWord c = false) : start ≠ 0 := by
  intro hzero
  obtain ⟨pre, post, rfl, rfl, hne, hall, -⟩ := h
  have hpre : pre = [] := List.length_eq_zero_iff.mp hzero
  obtain ⟨c, word, rfl⟩ := List.exists_cons_of_ne_nil hne
  have hc := hfirst c (by simp [hpre])
  rw [hall c (by simp)] at hc
  cases hc

theorem isRun_cons_of_not (hc : isWord c = false) :
    IsRun (c :: cs) start word ↔ ∃ k, start = k + 1 ∧ IsRun cs k word := by
  constructor
  · intro h
    have hstart := h.start_ne_zero (by simpa using hc)
    obtain ⟨pre, post, htext, rfl, hne, hall, hbefore, hafter⟩ := h
    cases pre with
    | nil => simp at hstart
    | cons d pre =>
      have hcs : cs = pre ++ word ++ post := by simpa using (List.cons.inj htext).2
      refine ⟨pre.length, rfl, pre, post, hcs, rfl, hne, hall, ?_, hafter⟩
      intro e he
      apply hbefore
      have hpre : pre ≠ [] := by
        intro hnil
        simp [hnil] at he
      rwa [List.getLast?_cons_of_ne_nil hpre]
  · intro h
    obtain ⟨k, rfl, pre, post, rfl, rfl, hne, hall, hbefore, hafter⟩ := h
    refine ⟨c :: pre, post, by simp, by simp, hne, hall, ?_, hafter⟩
    intro e he
    by_cases hpre : pre = []
    · have hec : c = e := by simpa [hpre] using he
      rwa [← hec]
    · rw [List.getLast?_cons_of_ne_nil hpre] at he
      exact hbefore e he

theorem isRun_append {first : List Char} (hfirst : first ≠ []) (hword : ∀ c ∈ first, isWord c = true)
    (hrest : ∀ c ∈ rest.head?, isWord c = false) : IsRun (first ++ rest) start word ↔
      start = 0 ∧ word = first ∨ ∃ k, start = first.length + k ∧ IsRun rest k word := by
  constructor
  · intro h
    obtain ⟨pre, post, htext, rfl, hne, hall, hbefore, hafter⟩ := h
    by_cases hpre : pre = []
    · have hsame : first ++ rest = word ++ post := by simpa [hpre] using htext
      have hends := takeWhile_dropWhile_of_run hword hrest
      rw [hsame, (takeWhile_dropWhile_of_run hall hafter).1] at hends
      exact .inl ⟨by simp [hpre], hends.1⟩
    · right
      obtain ⟨d, hd⟩ : ∃ d, pre.getLast? = some d := Option.ne_none_iff_exists'.mp (by simpa using hpre)
      have hlast : isWord d = false := hbefore d hd
      -- What stands before the word reaches over the first one, for it ends in no word character.
      rw [List.append_assoc] at htext
      rcases List.append_eq_append_iff.mp htext with ⟨more, rfl, hmore⟩ | ⟨more, hfirst, -⟩
      · have hmoreNe : more ≠ [] := by
          intro hnil
          have hmem : d ∈ first := List.mem_of_getLast? (by simpa [hnil] using hd)
          rw [hword d hmem] at hlast
          cases hlast
        refine ⟨more.length, by simp, more, post, by simpa using hmore, rfl, hne, hall, ?_, hafter⟩
        intro e he
        apply hbefore
        rwa [List.getLast?_append_of_ne_nil _ hmoreNe]
      · have hmem : d ∈ first := by
          rw [hfirst]
          exact List.mem_append_left _ (List.mem_of_getLast? hd)
        rw [hword d hmem] at hlast
        cases hlast
  · intro h
    rcases h with ⟨rfl, rfl⟩ | ⟨k, rfl, h⟩
    · exact ⟨[], rest, by simp, rfl, hfirst, hword, by simp, hrest⟩
    · have hk := h.start_ne_zero hrest
      obtain ⟨pre, post, rfl, rfl, hne, hall, hbefore, hafter⟩ := h
      have hpre : pre ≠ [] := by
        intro hnil
        simp [hnil] at hk
      refine ⟨first ++ pre, post, by simp, by simp, hne, hall, ?_, hafter⟩
      intro e he
      rw [List.getLast?_append_of_ne_nil _ hpre] at he
      exact hbefore e he

/-- The runs of a text are all the words that stand in it. -/
theorem mem_runs_iff {place : Nat} :
    (place, word) ∈ runs start cs ↔ ∃ k, place = start + k ∧ IsRun cs k word := by
  induction start, cs using runs.induct with
  | case1 start => simp [not_isRun_nil]
  | case2 start c cs hc ih =>
    have hsplit (k : Nat) : IsRun (c :: cs.takeWhile isWord ++ cs.dropWhile isWord) k word ↔ _ :=
      isRun_append (List.cons_ne_nil c _) (isWord_of_mem_run hc) (head?_dropWhile_isWord cs)
    rw [run_append_rest] at hsplit
    rw [runs_cons_of_isWord hc, List.mem_cons, ih]
    simp only [hsplit, Prod.mk.injEq]
    constructor
    · intro h
      rcases h with ⟨rfl, rfl⟩ | ⟨k, rfl, h⟩
      · exact ⟨0, rfl, .inl ⟨rfl, rfl⟩⟩
      · exact ⟨_, Nat.add_assoc _ _ _, .inr ⟨k, rfl, h⟩⟩
    · intro h
      obtain ⟨_, rfl, ⟨rfl, rfl⟩ | ⟨k, rfl, h⟩⟩ := h
      · exact .inl ⟨rfl, rfl⟩
      · exact .inr ⟨k, (Nat.add_assoc _ _ _).symm, h⟩
  | case3 start c cs hc ih =>
    have hc : isWord c = false := by simpa using hc
    rw [runs_cons_of_not hc, ih]
    simp only [isRun_cons_of_not hc]
    constructor
    · intro h
      obtain ⟨k, rfl, h⟩ := h
      exact ⟨k + 1, by omega, k, rfl, h⟩
    · intro h
      obtain ⟨_, rfl, k, rfl, h⟩ := h
      exact ⟨k, by omega, h⟩

/-- The words stand apart from each other, in their order. -/
theorem pairwise_runs (start : Nat) (cs : List Char) :
    (runs start cs).Pairwise fun a b => a.1 + a.2.length < b.1 := by
  induction start, cs using runs.induct with
  | case1 start => simp
  | case2 start c cs hc ih =>
    rw [runs_cons_of_isWord hc, List.pairwise_cons]
    refine ⟨?_, ih⟩
    intro b hb
    obtain ⟨k, hplace, hrun⟩ := mem_runs_iff.mp hb
    have hk := hrun.start_ne_zero (head?_dropWhile_isWord cs)
    dsimp only
    omega
  | case3 start c cs hc ih =>
    have hc : isWord c = false := by simpa using hc
    rwa [runs_cons_of_not hc]

theorem runs_apart {a b : Nat × List Char} (ha : a ∈ runs start cs) (hb : b ∈ runs start cs) (hne : a ≠ b) :
    a.1 + a.2.length < b.1 ∨ b.1 + b.2.length < a.1 := by
  have : Std.Symm fun a b : Nat × List Char => a.1 + a.2.length < b.1 ∨ b.1 + b.2.length < a.1 :=
    ⟨fun _ _ => Or.symm⟩
  have hpairs : (runs start cs).Pairwise fun a b => a.1 + a.2.length < b.1 ∨ b.1 + b.2.length < a.1 :=
    (pairwise_runs start cs).imp Or.inl
  exact hpairs.forall ha hb hne

end Text

namespace Pattern

open Text (isWord words runs)

/-- The matches of a search, each with its place. The characters begin at the place `start`. -/
def locateFrom (p : Pattern) (before : Option Char) (start : Nat) : List Char → List (Nat × List Char)
  | [] => []
  | c :: cs =>
    match p.match? ⟨before, c :: cs⟩ with
    | some stop =>
      if stop.rest.length ≤ cs.length then
        (start, Place.upTo ⟨before, c :: cs⟩ stop) ::
          locateFrom p stop.before (start + ((c :: cs).length - stop.rest.length)) stop.rest
      else locateFrom p (some c) (start + 1) cs
    | none => locateFrom p (some c) (start + 1) cs
termination_by cs => cs.length

def locate (p : Pattern) (s : String) : List (Nat × String) :=
  (p.locateFrom none 0 s.toList).map fun found => (found.1, String.ofList found.2)

theorem map_snd_locateFrom (p : Pattern) (before : Option Char) (start : Nat) (cs : List Char) :
    (p.locateFrom before start cs).map Prod.snd = p.findFrom before cs := by
  induction before, cs using findFrom.induct p generalizing start with
  | case1 before => simp [locateFrom, findFrom]
  | case2 before c cs stop hmatch hle ih =>
    rw [locateFrom, findFrom, hmatch]
    simp [hle, ih]
  | case3 before c cs stop hmatch hgt ih =>
    rw [locateFrom, findFrom, hmatch]
    simp [hgt, ih]
  | case4 before c cs hmatch ih =>
    rw [locateFrom, findFrom, hmatch]
    exact ih _

theorem map_snd_locate (p : Pattern) (s : String) : (p.locate s).map Prod.snd = p.findAll s := by
  rw [findAll, ← map_snd_locateFrom p none 0, locate, List.map_map, List.map_map]
  rfl

def inWord (c : Option Char) : Bool :=
  (c.map isWord).getD false

theorem inWord_eq_false_iff {c : Option Char} : inWord c = false ↔ ∀ d ∈ c, isWord d = false := by
  cases c <;> simp [inWord]

theorem isEdge_eq (before : Option Char) (rest : List Char) :
    Place.isEdge ⟨before, rest⟩ = (inWord before != inWord rest.head?) := rfl

variable {cs : List Char}

theorem takes_boundary {before : Option Char} {rest : List Char} :
    Takes .boundary before cs rest ↔ cs = [] ∧ inWord before ≠ inWord rest.head? := by
  rw [← bne_iff_ne, ← isEdge_eq]
  constructor
  · intro h
    cases h with
    | boundary edge => exact ⟨rfl, edge⟩
  · rintro ⟨rfl, hedge⟩
    exact .boundary hedge

theorem inWord_lastOf (hne : cs ≠ []) (hall : ∀ c ∈ cs, isWord c = true) (before : Option Char) :
    inWord (lastOf before cs) = true := by
  obtain ⟨c, hc⟩ : ∃ c, cs.getLast? = some c := Option.ne_none_iff_exists'.mp (by simpa using hne)
  have hmem : c ∈ cs := List.mem_of_getLast? hc
  simp [lastOf, hc, inWord, hall c hmem]

theorem inWord_head?_append (hne : cs ≠ []) (hall : ∀ c ∈ cs, isWord c = true) (rest : List Char) :
    inWord (cs ++ rest).head? = true := by
  obtain ⟨c, cs, rfl⟩ := List.exists_cons_of_ne_nil hne
  simp [inWord, hall c (by simp)]

/-- The pattern takes nothing but word characters up to the end of a word, if they are accepted. -/
structure TakesEnds (p : Pattern) (accepts : List Char → Bool) : Prop where
  productive : p.isProductive = true
  nonempty : accepts [] = false
  takes_iff {before : Option Char} {taken rest : List Char} : Takes p before taken rest ↔
    (∀ c ∈ taken, isWord c = true) ∧ inWord rest.head? = false ∧ accepts taken = true

/-- The pattern takes nothing but whole words, and of these the ones that are accepted. -/
structure TakesWords (p : Pattern) (accepts : List Char → Bool) : Prop where
  productive : p.isProductive = true
  takes_iff {before : Option Char} {taken rest : List Char} : Takes p before taken rest ↔
    taken ≠ [] ∧ (∀ c ∈ taken, isWord c = true) ∧ inWord before = false ∧
      inWord rest.head? = false ∧ accepts taken = true

namespace TakesEnds

variable {p : Pattern} {accepts : List Char → Bool}

theorem ne_nil (h : TakesEnds p accepts) {word : List Char} (hword : accepts word = true) : word ≠ [] := by
  intro hnil
  rw [hnil, h.nonempty] at hword
  cases hword

theorem span {inClass : Char → Bool} (hclass : ∀ c, inClass c = true → isWord c = true) {length : Nat}
    (hlength : 0 < length) : TakesEnds (.seq (.span inClass length (some length)) .boundary)
      fun word => word.all inClass && word.length == length where
  productive := rfl
  nonempty := by simpa using hlength.ne
  takes_iff := by
    intro before taken rest
    simp only [takes_seq, takes_span, takes_boundary, Bool.and_eq_true, List.all_eq_true, beq_iff_eq]
    constructor
    · intro h
      obtain ⟨cs, edge, rfl, ⟨hall, hleast, hmost⟩, rfl, hedge⟩ := h
      have hlen : cs.length = length := le_antisymm (hmost length rfl) hleast
      have hne : cs ≠ [] := List.length_pos_iff.mp (hlen ▸ hlength)
      have hword : ∀ c ∈ cs, isWord c = true := fun c hc => hclass c (hall c hc)
      rw [inWord_lastOf hne hword] at hedge
      rw [List.append_nil]
      exact ⟨hword, by simpa using hedge.symm, hall, hlen⟩
    · intro h
      obtain ⟨hword, hafter, hall, hlen⟩ := h
      have hne : taken ≠ [] := List.length_pos_iff.mp (hlen ▸ hlength)
      refine ⟨taken, [], by simp, ⟨hall, hlen.ge, ?_⟩, rfl, ?_⟩
      · intro m hm
        cases hm
        exact hlen.le
      · rw [inWord_lastOf hne hword, hafter]
        exact Bool.noConfusion

theorem char {c : Char} (hc : isWord c = true) (h : TakesEnds p accepts) :
    TakesEnds (.seq (Pattern.char c) p) fun word => word.head? == some c && accepts word.tail where
  productive := by simp [isProductive, Pattern.char, one, h.productive]
  nonempty := rfl
  takes_iff := by
    intro before taken rest
    simp only [takes_seq, Pattern.char, takes_one, h.takes_iff, Bool.and_eq_true, beq_iff_eq]
    constructor
    · intro hparts
      obtain ⟨_, word, rfl, ⟨d, rfl, rfl⟩, hword, hafter, haccepts⟩ := hparts
      exact ⟨by simpa [hc] using hword, hafter, by simp, haccepts⟩
    · intro hparts
      obtain ⟨hword, hafter, hhead, haccepts⟩ := hparts
      obtain ⟨word, rfl⟩ := List.head?_eq_some_iff.mp hhead
      have hothers : ∀ d ∈ word, isWord d = true := fun d hd => hword d (List.mem_cons_of_mem c hd)
      exact ⟨[c], word, rfl, ⟨c, rfl, rfl⟩, hothers, hafter, haccepts⟩

theorem takesWords (h : TakesEnds p accepts) : TakesWords (.seq .boundary p) accepts where
  productive := by rw [isProductive, h.productive]; rfl
  takes_iff := by
    intro before taken rest
    simp only [takes_seq, takes_boundary, h.takes_iff]
    constructor
    · intro hparts
      obtain ⟨edge, word, rfl, ⟨rfl, hedge⟩, hword, hafter, haccepts⟩ := hparts
      rw [inWord_head?_append (h.ne_nil haccepts) hword] at hedge
      exact ⟨h.ne_nil haccepts, hword, by simpa using hedge, hafter, haccepts⟩
    · intro hparts
      obtain ⟨hne, hword, hbefore, hafter, haccepts⟩ := hparts
      refine ⟨[], taken, rfl, ⟨rfl, ?_⟩, hword, hafter, haccepts⟩
      rw [hbefore, inWord_head?_append hne hword]
      exact Bool.noConfusion

end TakesEnds

namespace TakesWords

variable {p q : Pattern} {accepts accepts' : List Char → Bool}

theorem choice (hp : TakesWords p accepts) (hq : TakesWords q accepts') :
    TakesWords (.choice p q) fun word => accepts word || accepts' word where
  productive := by rw [isProductive, hp.productive, hq.productive]; rfl
  takes_iff := by
    intro before taken rest
    rw [takes_choice, hp.takes_iff, hq.takes_iff, Bool.or_eq_true]
    tauto

theorem match?_eq (hp : TakesWords p accepts) (before : Option Char) (c : Char) (cs : List Char) :
    p.match? ⟨before, c :: cs⟩ =
      if inWord before = false ∧ isWord c = true ∧ accepts (c :: cs.takeWhile isWord) = true then
        some ⟨lastOf before (c :: cs.takeWhile isWord), cs.dropWhile isWord⟩
      else none := by
  cases hmatch : p.match? ⟨before, c :: cs⟩ with
  | none =>
    rw [if_neg]
    rintro ⟨hbefore, hc, haccepts⟩
    have htakes : Takes p before (c :: cs.takeWhile isWord) (cs.dropWhile isWord) := by
      refine hp.takes_iff.mpr
        ⟨List.cons_ne_nil _ _, Text.isWord_of_mem_run hc, hbefore, ?_, haccepts⟩
      exact inWord_eq_false_iff.mpr (Text.head?_dropWhile_isWord cs)
    have hsome := (isSome_match?_iff hp.productive).mpr ⟨_, _, (Text.run_append_rest c cs).symm, htakes⟩
    rw [hmatch] at hsome
    cases hsome
  | some stop =>
    obtain ⟨taken, hcs, htaken, hstop⟩ := match?_takes hmatch
    obtain ⟨hne, hall, hbefore, hafter, haccepts⟩ := hp.takes_iff.mp htaken
    obtain ⟨d, run, rfl⟩ := List.exists_cons_of_ne_nil hne
    rw [List.cons_append, List.cons.injEq] at hcs
    obtain ⟨rfl, rfl⟩ := hcs
    obtain ⟨hrun, hrest⟩ := Text.takeWhile_dropWhile_of_run
      (fun d hd => hall d (List.mem_cons_of_mem c hd)) (inWord_eq_false_iff.mp hafter)
    rw [hrun, hrest, if_pos ⟨hbefore, hall c (by simp), haccepts⟩, ← hstop]

theorem locateFrom_eq (hp : TakesWords p accepts) (before : Option Char) (start : Nat) (cs : List Char) :
    p.locateFrom before start cs =
      (if inWord before then runs (start + (cs.takeWhile isWord).length) (cs.dropWhile isWord)
        else runs start cs).filter fun run => accepts run.2 := by
  induction hlen : cs.length using Nat.strong_induction_on generalizing before start cs with
  | _ n ih =>
  subst hlen
  cases cs with
  | nil => simp [locateFrom]
  | cons c cs =>
    have hshort : (cs.dropWhile isWord).length < (c :: cs).length :=
      Nat.lt_succ_of_le (List.dropWhile_suffix _).length_le
    have hnext := ih cs.length (Nat.lt_succ_self _) (some c) (start + 1) cs rfl
    rw [locateFrom, hp.match?_eq]
    cases hbefore : inWord before with
    | true =>
      rw [if_neg (by simp), hnext, if_pos rfl]
      cases hc : isWord c with
      | true => simp [inWord, hc, Nat.add_assoc, Nat.add_comm 1]
      | false => simp [inWord, hc, Text.runs_cons_of_not hc]
    | false =>
      rw [if_neg Bool.false_ne_true]
      cases hc : isWord c with
      | false => simp [hnext, inWord, hc, Text.runs_cons_of_not hc]
      | true =>
        have hsplit := Text.run_append_rest c cs
        rw [Text.runs_cons_of_isWord hc]
        cases haccepts : accepts (c :: cs.takeWhile isWord) with
        | false => simp [hnext, inWord, hc, haccepts, Nat.add_assoc, Nat.add_comm 1]
        | true =>
          have hfound : Place.upTo ⟨before, c :: cs⟩
              ⟨lastOf before (c :: cs.takeWhile isWord), cs.dropWhile isWord⟩ =
                c :: cs.takeWhile isWord := by
            rw [← hsplit, upTo_append]
          have hplace : (c :: cs).length - (cs.dropWhile isWord).length =
              (c :: cs.takeWhile isWord).length := by
            rw [← hsplit, List.length_append, Nat.add_sub_cancel]
          have hrest := ih _ hshort (lastOf before (c :: cs.takeWhile isWord))
            (start + (c :: cs.takeWhile isWord).length) (cs.dropWhile isWord) rfl
          rw [inWord_lastOf (List.cons_ne_nil _ _) (Text.isWord_of_mem_run hc), if_pos rfl,
            List.dropWhile_idempotent] at hrest
          have hnone : (cs.dropWhile isWord).takeWhile isWord = [] := by
            have hends := Text.takeWhile_dropWhile_of_run (List.forall_mem_nil _)
              (Text.head?_dropWhile_isWord cs)
            exact hends.1
          rw [hnone, List.length_nil, Nat.add_zero] at hrest
          rw [if_pos ⟨rfl, rfl, rfl⟩, List.filter_cons, if_pos haccepts, ← hrest]
          dsimp only
          rw [if_pos (List.dropWhile_suffix _).length_le, hfound, hplace]

theorem locate_eq (hp : TakesWords p accepts) (s : String) :
    p.locate s = ((runs 0 s.toList).filter fun run => accepts run.2).map fun run =>
      (run.1, String.ofList run.2) := by
  rw [locate, hp.locateFrom_eq]
  rfl

/-- A search through a text finds the accepted words, in their order. -/
theorem findAll_eq (hp : TakesWords p accepts) (s : String) :
    p.findAll s = ((words s.toList).filter accepts).map String.ofList := by
  rw [← map_snd_locate, hp.locate_eq, ← Text.map_snd_runs 0, List.filter_map, List.map_map, List.map_map]
  rfl

end TakesWords

end Pattern

end ThreatAtlas
