import Mathlib
import ThreatAtlas.Json.Reader
import ThreatAtlas.Json.Writer

/-!
# Reading back texts and numbers

A text in quotes reads back as itself. A number reads back with its kind and to its end, if what follows
cannot be taken for more of it: an integer as itself, a real number as some real number.
-/

namespace ThreatAtlas.Json

theorem drop_append_length (before rest : List Char) (offset : Nat) :
    Cursor.drop ⟨before ++ rest, offset⟩ before.length = ⟨rest, offset + before.length⟩ := by
  unfold Cursor.drop
  rw [List.drop_left]

/-! ### Texts -/

variable {rest whole frac es ds : List Char} {n mantissa : Nat} {e : Int}

theorem readText_plain {start fuel offset : Nat} {done : List CodePoint} {c : Char} (hquote : c ≠ '"')
    (hslash : c ≠ '\\') (hc : ¬ c.toNat < 0x20) : readText start (fuel + 1) done ⟨c :: rest, offset⟩ =
      readText start fuel (.char c :: done) ⟨rest, offset + 1⟩ := by
  rw [readText]
  dsimp only
  split
  case h_1 heq => cases heq
  case h_2 heq => exact absurd (List.cons.inj heq).1 hquote
  case h_3 heq => exact absurd (List.cons.inj heq).1 hslash
  case h_4 heq => exact absurd (List.cons.inj heq).1 hslash
  case h_5 heq => exact absurd (List.cons.inj heq).1 hslash
  case h_6 heq =>
    obtain ⟨rfl, -⟩ := List.cons.inj heq
    rw [if_neg hc]
    rfl

theorem toList_quote (s : String) : (quote s).toList = '"' :: (s.toList.flatMap escape ++ ['"']) := by
  rw [quote, String.toList_ofList, List.cons_append]

/-! ### Numbers -/

/-- What follows cannot be taken for more of a number. -/
def Stops (rest : List Char) : Prop :=
  ∀ c ∈ rest.head?, c.isDigit = false ∧ c ≠ '.' ∧ c ≠ 'e' ∧ c ≠ 'E'

theorem takeWhile_append_stop {p : Char → Bool} {cs : List Char} (hcs : ∀ c ∈ cs, p c = true)
    (hrest : ∀ c ∈ rest.head?, p c = false) : (cs ++ rest).takeWhile p = cs := by
  rw [List.takeWhile_append_of_pos hcs]
  cases rest with
  | nil => rw [List.takeWhile_nil, List.append_nil]
  | cons c rest =>
    have hc : p c = false := hrest c rfl
    rw [List.takeWhile_cons, hc, if_neg Bool.false_ne_true, List.append_nil]

structure IsWhole (ds : List Char) : Prop where
  digits : ∀ c ∈ ds, c.isDigit = true
  ne_nil : ds ≠ []
  lead : ds = ['0'] ∨ ds.head? ≠ some '0'

private theorem readWhole_append (h : IsWhole whole) (hrest : ∀ c ∈ rest.head?, c.isDigit = false) :
    readWhole (whole ++ rest) = whole := by
  obtain ⟨c, ds, rfl⟩ := List.exists_cons_of_ne_nil h.ne_nil
  rcases h.lead with hzero | hlead
  · rw [hzero]
    rfl
  · unfold readWhole
    split
    case h_1 heq => exact absurd (congrArg some (List.cons.inj heq).1) hlead
    case h_2 => exact takeWhile_append_stop h.digits hrest

private theorem head?_toDigits (hn : 0 < n) : (Nat.toDigits 10 n).head? ≠ some '0' := by
  induction n using Nat.strongRecOn with
  | ind n ih =>
    by_cases hsmall : n < 10
    · rw [Nat.toDigits_of_lt_base hsmall]
      interval_cases n <;> decide
    · have hlead := ih (n / 10) (by omega) (by omega)
      obtain ⟨c, cs, hcs⟩ := List.exists_cons_of_ne_nil (@Nat.toDigits_ne_nil (n / 10) 10)
      rw [Nat.toDigits_of_base_le (by decide) (by omega), hcs]
      rwa [hcs] at hlead

theorem isWhole_toDigits (n : Nat) : IsWhole (Nat.toDigits 10 n) where
  digits _ hc := Nat.isDigit_of_mem_toDigits (by decide) (by decide) hc
  ne_nil := Nat.toDigits_ne_nil
  lead := by
    rcases Nat.eq_zero_or_pos n with rfl | hn
    · exact .inl (Nat.toDigits_zero 10)
    · exact .inr (head?_toDigits hn)

private theorem digitsValue_toDigits (n : Nat) : digitsValue (Nat.toDigits 10 n) = n :=
  Nat.ofDigitChars_ten_toDigits

def withSign (negative : Bool) (cs : List Char) : List Char :=
  if negative then '-' :: cs else cs

def fractionText (frac : List Char) : List Char :=
  if frac.isEmpty then [] else '.' :: frac

inductive IsExponent : List Char → Prop where
  | none : IsExponent []
  | some (negative : Bool) {ds : List Char} (digits : ∀ c ∈ ds, c.isDigit = true) (ne_nil : ds ≠ []) :
    IsExponent ('e' :: (if negative then '-' else '+') :: ds)

private theorem readFraction_append (hfrac : ∀ c ∈ frac, c.isDigit = true)
    (hrest : ∀ c ∈ rest.head?, c.isDigit = false ∧ c ≠ '.') :
    readFraction (fractionText frac ++ rest) = frac := by
  unfold fractionText
  split
  case isTrue hempty =>
    rw [List.isEmpty_iff] at hempty
    subst hempty
    unfold readFraction
    split
    case h_1 heq => exact absurd rfl (hrest '.' (by rw [← List.nil_append rest, heq]; rfl)).2
    case h_2 => rfl
  case isFalse => exact takeWhile_append_stop hfrac fun c hc => (hrest c hc).1

private theorem readExponent_of_stops (hrest : Stops rest) : readExponent rest = none := by
  cases rest with
  | nil => rfl
  | cons c rest =>
    obtain ⟨-, -, he, hE⟩ := hrest c rfl
    simp [readExponent, he, hE]

/-- An exponent and its value; where there is none, the value is zero. -/
inductive SpellsExponent : List Char → Int → Prop where
  | none : SpellsExponent [] 0
  | plain {mark : Char} {ds : List Char} (isMark : mark = 'e' ∨ mark = 'E')
      (digits : ∀ c ∈ ds, c.isDigit = true) (ne_nil : ds ≠ []) :
      SpellsExponent (mark :: ds) (digitsValue ds)
  | signed {mark : Char} {ds : List Char} (isMark : mark = 'e' ∨ mark = 'E') (negative : Bool)
      (digits : ∀ c ∈ ds, c.isDigit = true) (ne_nil : ds ≠ []) :
      SpellsExponent (mark :: (if negative then '-' else '+') :: ds)
        (if negative then -digitsValue ds else digitsValue ds)

theorem IsExponent.spells (h : IsExponent es) : ∃ e, SpellsExponent es e := by
  cases h with
  | none => exact ⟨_, .none⟩
  | some negative digits ne_nil => exact ⟨_, .signed (.inl rfl) negative digits ne_nil⟩

private theorem readExponent_append (h : SpellsExponent es e) (hne : es ≠ []) (hrest : Stops rest) :
    readExponent (es ++ rest) = some (es.length, e) := by
  cases h with
  | none => exact absurd rfl hne
  | @plain mark ds isMark digits ne_nil =>
    have htake := takeWhile_append_stop digits fun c hc => (hrest c hc).1
    have hmark : (mark == 'e' || mark == 'E') = true := by simpa using isMark
    obtain ⟨c, cs, rfl⟩ := List.exists_cons_of_ne_nil ne_nil
    have hsign : ∀ d : Char, d.isDigit = false → c ≠ d := by
      rintro d hd rfl
      rw [digits c (by simp)] at hd
      cases hd
    simp only [List.cons_append] at htake ⊢
    unfold readExponent
    dsimp only
    rw [if_pos hmark]
    split
    case h_1 more heq => exact absurd (List.cons.inj heq).1 (hsign '-' rfl)
    case h_2 more heq => exact absurd (List.cons.inj heq).1 (hsign '+' rfl)
    case h_3 =>
      dsimp only
      rw [htake, if_neg (by simp), List.length_cons (a := mark), Nat.add_comm 1]
      rfl
  | @signed mark ds isMark negative digits ne_nil =>
    have htake := takeWhile_append_stop digits fun c hc => (hrest c hc).1
    have hmark : (mark == 'e' || mark == 'E') = true := by simpa using isMark
    cases negative with
    | true => simp [readExponent, hmark, htake, ne_nil, Nat.add_comm 2]
    | false => simp [readExponent, hmark, htake, ne_nil, Nat.add_comm 2]

private theorem head?_withSign (negative : Bool) {more : List Char} (h : IsWhole whole) :
    ((withSign negative (whole ++ more)).head? == some '-') = negative := by
  cases negative with
  | true => rfl
  | false =>
    obtain ⟨c, ds, rfl⟩ := List.exists_cons_of_ne_nil h.ne_nil
    have hc : c.isDigit = true := h.digits c (by simp)
    have hne : c ≠ '-' := by
      rintro rfl
      exact absurd hc (by decide)
    simpa [withSign] using hne

private theorem unsigned_withSign (negative : Bool) (cs : List Char) (offset : Nat) :
    ∃ offset', (if negative then Cursor.drop ⟨withSign negative cs, offset⟩ 1
      else ⟨withSign negative cs, offset⟩) = ⟨cs, offset'⟩ := by
  cases negative with
  | true => exact ⟨offset + 1, rfl⟩
  | false => exact ⟨offset, rfl⟩

private theorem drop_fractionText (frac rest : List Char) (offset : Nat) :
    ∃ offset', (if frac.isEmpty then ⟨fractionText frac ++ rest, offset⟩
      else Cursor.drop ⟨fractionText frac ++ rest, offset⟩ (frac.length + 1)) = ⟨rest, offset'⟩ := by
  unfold fractionText
  split
  · exact ⟨offset, rfl⟩
  · exact ⟨_, drop_append_length ('.' :: frac) rest offset⟩

theorem readNumber_whole (negative : Bool) (hwhole : IsWhole whole) (hrest : Stops rest) (offset : Nat) :
    (∃ offset', readNumber ⟨withSign negative (whole ++ rest), offset⟩ =
        .ok (some (.int (if negative then -digitsValue whole else digitsValue whole), ⟨rest, offset'⟩))) ∨
      Number.digitLimit < whole.length ∧ ∃ digits,
        readNumber ⟨withSign negative (whole ++ rest), offset⟩ = .error ⟨.longInteger digits, offset⟩ := by
  have hempty : whole.isEmpty = false := by simpa using hwhole.ne_nil
  obtain ⟨_, hunsigned⟩ := unsigned_withSign negative (whole ++ rest) offset
  have hfrac : readFraction rest = [] :=
    readFraction_append (List.forall_mem_nil _) fun c hc => ⟨(hrest c hc).1, (hrest c hc).2.1⟩
  have hexp : readExponent rest = none := readExponent_of_stops hrest
  unfold readNumber
  simp only [head?_withSign negative hwhole, hunsigned,
    readWhole_append hwhole fun c hc => (hrest c hc).1, hempty, drop_append_length, hfrac, hexp,
    List.isEmpty_nil, Bool.false_eq_true, if_false, if_true]
  split
  case isTrue hlong => exact .inr ⟨hlong, _, rfl⟩
  case isFalse => exact .inl ⟨_, rfl⟩

theorem readNumber_decimal (negative : Bool) (hwhole : IsWhole whole) (hfrac : ∀ c ∈ frac, c.isDigit = true)
    (hes : SpellsExponent es e) (hreal : frac ≠ [] ∨ es ≠ []) (hrest : Stops rest) (offset : Nat) :
    ∃ offset', readNumber
        ⟨withSign negative (whole ++ (fractionText frac ++ (es ++ rest))), offset⟩ =
      .ok (some (.real (Number.ofDecimal negative (digitsValue (whole ++ frac)) (e - frac.length)),
        ⟨rest, offset'⟩)) := by
  have hempty : whole.isEmpty = false := by simpa using hwhole.ne_nil
  have hmark : ∀ c : Char, c = 'e' ∨ c = 'E' → c.isDigit = false ∧ c ≠ '.' := by
    rintro c (rfl | rfl) <;> decide
  have hafter : ∀ c ∈ (es ++ rest).head?, c.isDigit = false ∧ c ≠ '.' := by
    cases hes with
    | none => exact fun c hc => ⟨(hrest c hc).1, (hrest c hc).2.1⟩
    | plain isMark _ _ =>
      rintro c ⟨⟩
      exact hmark _ isMark
    | signed isMark _ _ _ =>
      rintro c ⟨⟩
      exact hmark _ isMark
  have hpoint : ∀ c ∈ (fractionText frac ++ (es ++ rest)).head?, c.isDigit = false := by
    unfold fractionText
    split
    · exact fun c hc => (hafter c hc).1
    · rintro c ⟨⟩
      decide
  obtain ⟨start, hunsigned⟩ :=
    unsigned_withSign negative (whole ++ (fractionText frac ++ (es ++ rest))) offset
  obtain ⟨_, hdrop⟩ := drop_fractionText frac (es ++ rest) (start + whole.length)
  unfold readNumber
  simp only [head?_withSign negative hwhole, hunsigned, readWhole_append hwhole hpoint, hempty,
    drop_append_length, readFraction_append hfrac hafter, hdrop, Bool.false_eq_true, if_false]
  by_cases hnone : es = []
  · subst hnone
    cases hes
    have hne : frac.isEmpty = false := by simpa using hreal
    simp only [List.nil_append, readExponent_of_stops hrest, hne, Bool.false_eq_true, if_false,
      Int.zero_sub]
    exact ⟨_, rfl⟩
  · simp only [readExponent_append hes hnone hrest, drop_append_length]
    exact ⟨_, rfl⟩

theorem toList_toString_int (n : Int) :
    (toString n).toList = withSign (n < 0) (Nat.toDigits 10 n.natAbs) := by
  cases n with
  | ofNat m => 
    change (Nat.repr m).toList = _
    rw [Nat.toList_repr]
    rfl
  | negSucc m =>
    change ("-" ++ Nat.repr (m + 1)).toList = _
    have hsign : decide (Int.negSucc m < 0) = true := decide_eq_true (Int.negSucc_lt_zero m)
    rw [String.toList_append, Nat.toList_repr, hsign]
    simp [withSign]

theorem withSign_append (negative : Bool) (cs rest : List Char) :
    withSign negative cs ++ rest = withSign negative (cs ++ rest) := by
  cases negative <;> rfl

theorem signed_digitsValue (n : Int) :
    (if decide (n < 0) = true then -(digitsValue (Nat.toDigits 10 n.natAbs) : Int)
      else digitsValue (Nat.toDigits 10 n.natAbs)) = n := by
  rw [digitsValue_toDigits]
  by_cases hn : n < 0
  · rw [if_pos (decide_eq_true hn)]
    omega
  · rw [if_neg (by simpa using hn)]
    omega

/-! ### Real numbers -/

private theorem readsBack_zero (hm : 0 < mantissa) (exponent power : Int) :
    Number.readsBack mantissa exponent 0 power = false := by
  have hlow : 0 < (Number.readBackBounds mantissa exponent).1 := by
    unfold Number.readBackBounds
    dsimp only
    split <;> omega
  have hcompare : Number.compareDecimal 0 power (Number.readBackBounds mantissa exponent).1 (exponent - 2)
      = .lt := by
    unfold Number.compareDecimal
    rw [Nat.zero_mul, Nat.zero_mul, Nat.compare_eq_lt]
    have h2 : 0 < Nat.pow 2 (exponent - 2).toNat := Nat.pow_pos (by decide)
    have h10 : 0 < Nat.pow 10 (-power).toNat := Nat.pow_pos (by decide)
    positivity
  unfold Number.readsBack
  dsimp only
  rw [hcompare]
  split <;> rfl

private theorem roundDiv_eq_or (num den : Nat) :
    Number.roundDiv num den = num / den ∨ Number.roundDiv num den = num / den + 1 := by
  unfold Number.roundDiv
  dsimp only
  split
  · exact .inl rfl
  · split
    · exact .inr rfl
    · split
      · exact .inl rfl
      · exact .inr rfl

private theorem readsBack_of_candidate {d : Nat} {exponent power : Int}
    (h : Number.candidate mantissa exponent power = some d) :
    Number.readsBack mantissa exponent d power = true := by
  unfold Number.candidate at h
  dsimp only at h
  split at h
  case h_1 hlow hhigh =>
    obtain rfl := Option.some.inj h
    rcases roundDiv_eq_or ((Number.fraction mantissa exponent).1 * Nat.pow 10 (-power).toNat)
        ((Number.fraction mantissa exponent).2 * Nat.pow 10 power.toNat) with hround | hround
    · rw [hround]
      exact hlow
    · rw [hround]
      exact hhigh
  case h_2 hlow _ =>
    obtain rfl := Option.some.inj h
    exact hlow
  case h_3 _ hhigh =>
    obtain rfl := Option.some.inj h
    exact hhigh
  case h_4 => cases h

theorem shortest_pos (hm : 0 < mantissa) (exponent : Int) : 0 < (Number.shortest mantissa exponent).1 := by
  unfold Number.shortest
  dsimp only
  cases hhit : (List.range 17).findSome? fun (n : Nat) =>
      (Number.candidate mantissa exponent (Number.leadingPower mantissa exponent - n)).map fun d =>
        (d, Number.leadingPower mantissa exponent - n) with
  | none => exact hm
  | some hit =>
    obtain ⟨n, -, hn⟩ := List.exists_of_findSome?_eq_some hhit
    obtain ⟨d, hd, rfl⟩ := Option.map_eq_some_iff.mp hn
    apply Nat.pos_of_ne_zero
    rintro rfl
    have hback := readsBack_of_candidate hd
    rw [readsBack_zero hm] at hback
    cases hback

private theorem IsWhole.append {more : List Char} (h : IsWhole ds) (hlead : ds.head? ≠ some '0')
    (hmore : ∀ c ∈ more, c.isDigit = true) : IsWhole (ds ++ more) := by
  obtain ⟨c, cs, rfl⟩ := List.exists_cons_of_ne_nil h.ne_nil
  refine ⟨?_, List.cons_ne_nil _ _, .inr hlead⟩
  intro c hc
  rcases List.mem_append.mp hc with hc | hc
  · exact h.digits c hc
  · exact hmore c hc

private theorem IsWhole.of_isPrefix {part : List Char} (h : IsWhole ds) (hlead : ds.head? ≠ some '0')
    (hpart : part <+: ds) (hne : part ≠ []) : IsWhole part ∧ part.head? ≠ some '0' := by
  obtain ⟨c, cs, rfl⟩ := List.exists_cons_of_ne_nil hne
  have hhead : (c :: cs).head? ≠ some '0' := by
    obtain ⟨more, rfl⟩ := hpart
    exact hlead
  exact ⟨⟨fun c hc => h.digits c (hpart.subset hc), hne, .inr hhead⟩, hhead⟩

private theorem isWhole_dropZeros (hn : 0 < n) (power : Int) :
    IsWhole (Number.dropZeros (Nat.toDigits 10 n) power).1 ∧
      (Number.dropZeros (Nat.toDigits 10 n) power).1.head? ≠ some '0' := by
  have hwhole := isWhole_toDigits n
  have hlead := head?_toDigits hn
  refine hwhole.of_isPrefix hlead (List.rdropWhile_prefix _ _) ?_
  intro hnil
  obtain ⟨c, cs, hcs⟩ := List.exists_cons_of_ne_nil hwhole.ne_nil
  have hzero := List.rdropWhile_eq_nil_iff.mp hnil c (by simp [hcs])
  rw [hcs, List.head?_cons] at hlead
  exact hlead (congrArg some (eq_of_beq hzero))

private theorem isDigit_of_mem_zeros {c : Char} (hc : c ∈ Number.zeros n) : c.isDigit = true := by
  obtain rfl := List.eq_of_mem_replicate hc
  rfl

private theorem isExponent_exponentDigits (e : Int) :
    IsExponent ('e' :: (if e < 0 then '-' else '+') :: Number.exponentDigits e.natAbs) := by
  have hwhole := isWhole_toDigits e.natAbs
  have hdigits : ∀ c ∈ Number.exponentDigits e.natAbs, c.isDigit = true := by
    intro c hc
    rcases List.mem_append.mp hc with hc | hc
    · exact isDigit_of_mem_zeros hc
    · exact hwhole.digits c hc
  have hne : Number.exponentDigits e.natAbs ≠ [] :=
    List.append_ne_nil_of_right_ne_nil _ hwhole.ne_nil
  simpa using IsExponent.some (e < 0) hdigits hne

private theorem layOut_eq (hds : IsWhole ds) (hlead : ds.head? ≠ some '0') (point : Int) :
    ∃ whole frac es, Number.layOut ds point = whole ++ (fractionText frac ++ es) ∧ IsWhole whole ∧
      (∀ c ∈ frac, c.isDigit = true) ∧ IsExponent es ∧ (frac ≠ [] ∨ es ≠ []) := by
  have hdropped : ∀ n, ∀ c ∈ ds.drop n, c.isDigit = true :=
    fun n c hc => hds.digits c (List.mem_of_mem_drop hc)
  have hpart : ∀ n, 0 < n → IsWhole (ds.take n) := by
    intro n hn
    refine (hds.of_isPrefix hlead (List.take_prefix n ds) ?_).1
    simp [hds.ne_nil, Nat.ne_of_gt hn]
  have hpointed : ∀ frac : List Char, frac ≠ [] → fractionText frac = '.' :: frac :=
    fun frac hfrac => if_neg (by simpa using hfrac)
  unfold Number.layOut
  dsimp only
  split
  · split
    · have hne : Number.zeros (-point).toNat ++ ds ≠ [] :=
        List.append_ne_nil_of_right_ne_nil _ hds.ne_nil
      refine ⟨['0'], Number.zeros (-point).toNat ++ ds, [], ?_, isWhole_toDigits 0, ?_, .none, .inl hne⟩
      · rw [hpointed _ hne, List.append_nil]
        rfl
      · intro c hc
        rcases List.mem_append.mp hc with hc | hc
        · exact isDigit_of_mem_zeros hc
        · exact hds.digits c hc
    · split
      · refine ⟨ds ++ Number.zeros (point - ds.length).toNat, ['0'], [], rfl,
          hds.append hlead fun c hc => isDigit_of_mem_zeros hc, ?_, .none, .inl (by decide)⟩
        intro c hc
        obtain rfl := List.mem_singleton.mp hc
        rfl
      · have hne : ds.drop point.toNat ≠ [] := by
          rw [List.ne_nil_iff_length_pos, List.length_drop]
          omega
        refine ⟨ds.take point.toNat, ds.drop point.toNat, [], ?_, hpart _ (by omega), hdropped _,
          .none, .inl hne⟩
        rw [hpointed _ hne, List.append_nil]
  · have hexp := isExponent_exponentDigits (point - 1)
    split
    · exact ⟨ds, [], _, rfl, hds, List.forall_mem_nil _, hexp, .inr (List.cons_ne_nil _ _)⟩
    · have hne : ds.drop 1 ≠ [] := by
        rw [List.ne_nil_iff_length_pos, List.length_drop]
        omega
      refine ⟨ds.take 1, ds.drop 1, _, ?_, hpart 1 (by decide), hdropped _, hexp, .inl hne⟩
      rw [hpointed _ hne, List.append_assoc]

theorem write_eq {x : Float} {negative : Bool} {m : Nat} (hx : Number.exact x = .finite negative m e) :
    ∃ whole frac es, (Number.write x).toList = withSign negative (whole ++ (fractionText frac ++ es)) ∧
      IsWhole whole ∧ (∀ c ∈ frac, c.isDigit = true) ∧ IsExponent es ∧ (frac ≠ [] ∨ es ≠ []) := by
  unfold Number.write Number.signed
  rw [hx]
  cases m with
  | zero =>
    refine ⟨['0'], ['0'], [], ?_, isWhole_toDigits 0, ?_, .none, .inl (by decide)⟩
    · simp [withSign, fractionText]
    · intro c hc
      obtain rfl := List.mem_singleton.mp hc
      rfl
  | succ m =>
    let kept := Number.dropZeros (Nat.toDigits 10 (Number.shortest (m + 1) e).1)
      (Number.shortest (m + 1) e).2
    have hpos := shortest_pos (Nat.succ_pos m) e
    obtain ⟨hds, hlead⟩ : IsWhole kept.1 ∧ kept.1.head? ≠ some '0' := isWhole_dropZeros hpos _
    obtain ⟨whole, frac, es, htext, hrest⟩ := layOut_eq hds hlead (kept.1.length + kept.2)
    refine ⟨whole, frac, es, ?_, hrest⟩
    change (String.ofList (withSign negative (Number.layOut kept.1 (kept.1.length + kept.2)))).toList = _
    rw [htext, String.toList_ofList]

/-! ### No character that ends a line -/

private theorem return_notMem_escape (c : Char) : '\r' ∉ escape c := by
  unfold escape
  split
  case h_8 hreturn _ _ _ =>
    split
    case isTrue hc =>
      have hcode : ∀ n < 0x20, '\r' ∉ Text.hexDigits 4 n := by decide
      simp [hcode _ hc]
    case isFalse => simpa using Ne.symm hreturn
  all_goals decide

theorem return_notMem_quote (s : String) : '\r' ∉ (quote s).toList := by
  rw [toList_quote]
  simp [return_notMem_escape]

/-! ### The characters of numbers -/

def Numeral (c : Char) : Prop :=
  c.isDigit = true ∨ c ∈ ['-', '+', '.', 'e', 'E']
deriving Decidable

theorem numeral_withSign (negative : Bool) {cs : List Char} (h : ∀ c ∈ cs, Numeral c) :
    ∀ c ∈ withSign negative cs, Numeral c := by
  cases negative with
  | true => exact List.forall_mem_cons.mpr ⟨by decide, h⟩
  | false => exact h

private theorem SpellsExponent.numeral (h : SpellsExponent es e) : ∀ c ∈ es, Numeral c := by
  have hmark : ∀ mark, mark = 'e' ∨ mark = 'E' → Numeral mark := by
    rintro mark (rfl | rfl) <;> decide
  cases h with
  | none => exact List.forall_mem_nil _
  | plain isMark digits _ =>
    exact List.forall_mem_cons.mpr ⟨hmark _ isMark, fun c hc => .inl (digits c hc)⟩
  | signed isMark negative digits _ =>
    refine List.forall_mem_cons.mpr ⟨hmark _ isMark, ?_⟩
    refine List.forall_mem_cons.mpr ⟨?_, fun c hc => .inl (digits c hc)⟩
    cases negative <;> decide

theorem numeral_decimal (negative : Bool) (hwhole : IsWhole whole) (hfrac : ∀ c ∈ frac, c.isDigit = true)
    (hes : SpellsExponent es e) :
    ∀ c ∈ withSign negative (whole ++ (fractionText frac ++ es)), Numeral c := by
  refine numeral_withSign negative fun c hc => ?_
  rcases List.mem_append.mp hc with hc | hc
  · exact .inl (hwhole.digits c hc)
  · rcases List.mem_append.mp hc with hc | hc
    · unfold fractionText at hc
      split at hc
      · cases hc
      · rcases List.mem_cons.mp hc with rfl | hc
        · decide
        · exact .inl (hfrac c hc)
    · exact hes.numeral c hc

theorem return_notMem_int (n : Int) : '\r' ∉ (toString n).toList := by
  rw [toList_toString_int]
  exact fun hmem => absurd (numeral_withSign _ (fun c hc => .inl ((isWhole_toDigits _).digits c hc)) _ hmem)
    (by decide)

theorem return_notMem_write {x : Float} {negative : Bool} {m : Nat}
    (hx : Number.exact x = .finite negative m e) : '\r' ∉ (Number.write x).toList := by
  obtain ⟨whole, frac, es, htext, hwhole, hfrac, hes, -⟩ := write_eq hx
  obtain ⟨_, hspells⟩ := hes.spells
  rw [htext]
  exact fun hmem => absurd (numeral_decimal negative hwhole hfrac hspells _ hmem) (by decide)

end ThreatAtlas.Json
