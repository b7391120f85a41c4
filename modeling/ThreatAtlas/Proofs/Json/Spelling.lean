import ThreatAtlas.Proofs.Failure
import ThreatAtlas.Proofs.Json.Scalars

/-!
# How texts and numbers are spelt

`SpellsText` says which characters between quotes stand for which code points, with escapes and pairs of
units, and `SpellsNumber` which characters stand for which number. The reader reads exactly these.
-/

namespace ThreatAtlas.Json

inductive IsUnit : List Char → Nat → Prop where
  | four {a b c d : Char} {m n p q : Nat} (first : hexValue? a = some m) (second : hexValue? b = some n)
      (third : hexValue? c = some p) (fourth : hexValue? d = some q) :
      IsUnit [a, b, c, d] (((m * 16 + n) * 16 + p) * 16 + q)

variable {unit high fuel : Nat} {digits cs rest : List Char} {next : Cursor} {c : Char}

private theorem IsUnit.codeUnit? (h : IsUnit digits unit) (c : Char) (rest : List Char) :
    codeUnit? (digits ++ c :: rest) = some (unit, c :: rest) := by
  cases h with
  | four first second third fourth => simp [Json.codeUnit?, first, second, third, fourth]

private theorem isUnit_of_codeUnit? (h : codeUnit? cs = some (unit, rest)) :
    ∃ digits, IsUnit digits unit ∧ cs = digits ++ rest := by
  unfold codeUnit? at h
  split at h
  case h_1 a b c d e more =>
    simp only [Option.bind_eq_bind, Option.bind_eq_some_iff] at h
    obtain ⟨m, ha, n, hb, p, hc, q, hd, heq⟩ := h
    cases heq
    exact ⟨[a, b, c, d], .four ha hb hc hd, rfl⟩
  case h_2 => cases h

private theorem codeUnit?_append_quote (cs rest : List Char) :
    codeUnit? (cs ++ '"' :: rest) =
      (codeUnit? (cs ++ ['"'])).map fun found => (found.1, found.2 ++ rest) := by
  have hquote : hexValue? '"' = none := by decide
  rcases cs with _ | ⟨a, _ | ⟨b, _ | ⟨c, _ | ⟨d, _ | ⟨e, cs⟩⟩⟩⟩⟩ <;>
    rcases rest with _ | ⟨_, _ | ⟨_, _ | ⟨_, _ | ⟨_, _⟩⟩⟩⟩ <;> simp [codeUnit?, hquote]

private theorem lowUnit?_append_quote (high : Nat) (cs rest : List Char) :
    lowUnit? high (cs ++ '"' :: rest) =
      (lowUnit? high (cs ++ ['"'])).map fun found => (found.1, found.2 ++ rest) := by
  by_cases hstart : ∃ more, cs = '\\' :: 'u' :: more
  · obtain ⟨more, rfl⟩ := hstart
    simp only [List.cons_append, lowUnit?, codeUnit?_append_quote more rest]
    split
    · cases codeUnit? (more ++ ['"']) with
      | none => rfl
      | some found =>
        obtain ⟨low, behind⟩ := found
        simp only [Option.map_some]
        split <;> rfl
    · rfl
  · have hnone : ∀ tail, lowUnit? high (cs ++ '"' :: tail) = none := by
      intro tail
      unfold lowUnit?
      split
      case h_1 more heq =>
        rcases cs with _ | ⟨c, _ | ⟨d, cs⟩⟩
        · cases heq
        · cases heq
        · cases heq
          exact absurd ⟨cs, rfl⟩ hstart
      case h_2 => rfl
    rw [hnone, hnone, Option.map_none]

def pairCode (high low : Nat) : Nat :=
  0x10000 + (high - 0xD800) * 0x400 + (low - 0xDC00)

/-- Characters between quotes, and the code points they stand for. -/
inductive SpellsText : List Char → List CodePoint → Prop where
  | nil : SpellsText [] []
  | plain {c : Char} {body : List Char} {points : List CodePoint} (quote : c ≠ '"') (slash : c ≠ '\\')
      (control : ¬ c.toNat < 0x20) (rest : SpellsText body points) :
      SpellsText (c :: body) (.char c :: points)
  | escape {c d : Char} {body : List Char} {points : List CodePoint} (short : simpleEscape? c = some d)
      (rest : SpellsText body points) : SpellsText ('\\' :: c :: body) (.char d :: points)
  /-- A unit that is not the first half of a pair. -/
  | code {digits body : List Char} {points : List CodePoint} {unit : Nat} (four : IsUnit digits unit)
      (alone : lowUnit? unit (body ++ ['"']) = none) (rest : SpellsText body points) :
      SpellsText ('\\' :: 'u' :: (digits ++ body)) (.ofUnit unit :: points)
  | pair {first second body : List Char} {points : List CodePoint} {high low : Nat}
      (upper : IsUnit first high) (isHigh : 0xD800 ≤ high ∧ high < 0xDC00) (lower : IsUnit second low)
      (isLow : 0xDC00 ≤ low ∧ low < 0xE000) (rest : SpellsText body points) :
      SpellsText ('\\' :: 'u' :: (first ++ '\\' :: 'u' :: (second ++ body)))
        (.char (Char.ofNat (pairCode high low)) :: points)

theorem lowUnit?_eq_some {code : Nat} {behind : List Char} (h : lowUnit? high cs = some (code, behind)) :
    ∃ digits low, (0xD800 ≤ high ∧ high < 0xDC00) ∧ IsUnit digits low ∧ (0xDC00 ≤ low ∧ low < 0xE000) ∧
      cs = '\\' :: 'u' :: (digits ++ behind) ∧ code = pairCode high low := by
  unfold lowUnit? at h
  split at h
  case h_2 => cases h
  case h_1 more =>
    split at h
    case isFalse => cases h
    case isTrue hhigh =>
      split at h
      case h_2 => cases h
      case h_1 low behind' hunit =>
        split at h
        case isFalse => cases h
        case isTrue hlow =>
          obtain ⟨hcode, rfl⟩ := Prod.mk.inj (Option.some.inj h)
          obtain ⟨digits, hdigits, rfl⟩ := isUnit_of_codeUnit? hunit
          rw [Bool.and_eq_true, decide_eq_true_eq, decide_eq_true_eq] at hhigh hlow
          exact ⟨digits, low, hhigh, hdigits, hlow, rfl, hcode.symm⟩

private theorem IsUnit.length (h : IsUnit digits unit) : digits.length = 4 := by
  cases h
  rfl

private theorem drop_six (h : IsUnit digits unit) (rest : List Char) (offset : Nat) :
    Cursor.drop ⟨'\\' :: 'u' :: (digits ++ rest), offset⟩ 6 = ⟨rest, offset + 6⟩ := by
  have hlength : ('\\' :: 'u' :: digits).length = 6 := by rw [List.length_cons, List.length_cons, h.length]
  rw [← hlength]
  exact drop_append_length ('\\' :: 'u' :: digits) rest offset

private theorem drop_twelve {first second : List Char} {low : Nat} (hfirst : IsUnit first high)
    (hsecond : IsUnit second low) (rest : List Char) (offset : Nat) :
    Cursor.drop ⟨'\\' :: 'u' :: (first ++ '\\' :: 'u' :: (second ++ rest)), offset⟩ 12 =
      ⟨rest, offset + 12⟩ := by
  have hhalves (cur : Cursor) : cur.drop 12 = (cur.drop 6).drop 6 := by simp [Cursor.drop]
  rw [hhalves, drop_six hfirst, drop_six hsecond]

private theorem readText_succ {start offset : Nat} {done points : List CodePoint} {chars : List Char}
    (h : readText start (fuel + 1) done ⟨chars, offset⟩ = .ok (points, next)) :
    (chars = '"' :: next.rest ∧ points = done.reverse) ∨
      ∃ taken p rest offset', chars = taken ++ rest ∧
        readText start fuel (p :: done) ⟨rest, offset'⟩ = .ok (points, next) ∧
        ∀ body ps tail, rest = body ++ '"' :: tail → SpellsText body ps →
          SpellsText (taken ++ body) (p :: ps) := by
  unfold readText at h
  split at h
  case h_1 => cases h
  case h_2 more heq =>
    dsimp only at heq
    subst heq
    cases h
    exact .inl ⟨rfl, rfl⟩
  case h_3 => cases h
  case h_4 more heq =>
    dsimp only at heq
    subst heq
    split at h
    case h_1 => cases h
    case h_2 unit behind hunit =>
      obtain ⟨digits, hdigits, rfl⟩ := isUnit_of_codeUnit? hunit
      split at h
      case h_1 code behind' hfound =>
        obtain ⟨second, low, hhigh, hsecond, hlow, rfl, hcode⟩ := lowUnit?_eq_some hfound
        rw [hcode, drop_twelve hdigits hsecond] at h
        refine .inr ⟨'\\' :: 'u' :: (digits ++ '\\' :: 'u' :: second), _, behind', _, by simp, h, ?_⟩
        intro body ps tail _ hspells
        simpa using SpellsText.pair hdigits hhigh hsecond hlow hspells
      case h_2 hnone =>
        rw [drop_six hdigits] at h
        refine .inr ⟨'\\' :: 'u' :: digits, _, behind, _, by simp, h, ?_⟩
        rintro body ps tail rfl hspells
        rw [lowUnit?_append_quote, Option.map_eq_none_iff] at hnone
        exact .code hdigits hnone hspells
  case h_5 c more hu heq =>
    dsimp only at heq
    subst heq
    split at h
    case h_1 d hd =>
      exact .inr ⟨['\\', c], .char d, more, _, rfl, h, fun _ _ _ _ hspells => .escape hd hspells⟩
    case h_2 => cases h
  case h_6 c more hquote hend hu hescape heq =>
    dsimp only at heq
    subst heq
    split at h
    case isTrue => cases h
    case isFalse hcontrol =>
      refine .inr ⟨[c], .char c, more, _, rfl, h, ?_⟩
      rintro body ps tail rfl hspells
      refine .plain hquote (fun hslash => ?_) hcontrol hspells
      obtain ⟨d, rest, hrest⟩ := List.exists_cons_of_ne_nil (l := body ++ '"' :: tail) (by simp)
      exact hescape d rest hslash hrest

theorem spells_of_readText {start : Nat} {done points : List CodePoint} {cur : Cursor}
    (h : readText start fuel done cur = .ok (points, next)) :
    ∃ body ps, cur.rest = body ++ '"' :: next.rest ∧ SpellsText body ps ∧ points = done.reverse ++ ps := by
  induction fuel generalizing done cur with
  | zero => cases h
  | succ fuel ih =>
    obtain ⟨chars, offset⟩ := cur
    rcases readText_succ h with ⟨rfl, rfl⟩ | ⟨taken, p, rest, offset', rfl, hread, hstep⟩
    · exact ⟨[], [], rfl, .nil, by rw [List.append_nil]⟩
    · obtain ⟨body, ps, rfl, hspells, rfl⟩ := ih hread
      exact ⟨taken ++ body, p :: ps, by simp, hstep body ps next.rest rfl hspells, by simp⟩

private theorem readText_short {d : Char} (hc : simpleEscape? c = some d) (start fuel offset : Nat)
    (done : List CodePoint) (rest : List Char) :
    readText start (fuel + 1) done ⟨'\\' :: c :: rest, offset⟩ =
      readText start fuel (.char d :: done) ⟨rest, offset + 2⟩ := by
  rw [readText]
  dsimp only
  split
  case h_4 heq =>
    cases heq
    cases hc
  case h_5 heq =>
    cases heq
    rw [hc]
    rfl
  case h_6 hescape heq =>
    cases heq
    exact absurd rfl (hescape _ _ rfl)
  all_goals simp_all

private theorem readText_unit (four : IsUnit digits unit) (alone : lowUnit? unit (c :: rest) = none)
    (start fuel offset : Nat) (done : List CodePoint) :
    readText start (fuel + 1) done ⟨'\\' :: 'u' :: (digits ++ c :: rest), offset⟩ =
      readText start fuel (.ofUnit unit :: done) ⟨c :: rest, offset + 6⟩ := by
  rw [readText]
  simp only [four.codeUnit?, alone, drop_six four]

private theorem readText_pair {first second : List Char} {low : Nat} (upper : IsUnit first high)
    (isHigh : 0xD800 ≤ high ∧ high < 0xDC00) (lower : IsUnit second low) (isLow : 0xDC00 ≤ low ∧ low < 0xE000)
    (start fuel offset : Nat) (done : List CodePoint) (c : Char) (rest : List Char) :
    readText start (fuel + 1) done
        ⟨'\\' :: 'u' :: (first ++ '\\' :: 'u' :: (second ++ c :: rest)), offset⟩ =
      readText start fuel (.char (Char.ofNat (pairCode high low)) :: done) ⟨c :: rest, offset + 12⟩ := by
  have hlow : lowUnit? high ('\\' :: 'u' :: (second ++ c :: rest)) = some (pairCode high low, c :: rest) := by
    have hhigh : (decide (0xD800 ≤ high) && decide (high < 0xDC00)) = true := by simpa using isHigh
    have hlow : (decide (0xDC00 ≤ low) && decide (low < 0xE000)) = true := by simpa using isLow
    unfold pairCode lowUnit?
    simp only [hhigh, hlow, lower.codeUnit?, if_true]
  rw [readText]
  simp only [upper.codeUnit?, hlow, drop_twelve upper lower]

theorem readText_of_spells {body : List Char} {points : List CodePoint} (h : SpellsText body points)
    (start : Nat) (hfuel : body.length < fuel) (done : List CodePoint) (rest : List Char) (offset : Nat) :
    ∃ offset', readText start fuel done ⟨body ++ '"' :: rest, offset⟩ =
      .ok (done.reverse ++ points, ⟨rest, offset'⟩) := by
  have hbehind (body : List Char) : ∃ c more, body ++ '"' :: rest = c :: more :=
    List.exists_cons_of_ne_nil (by simp)
  induction h generalizing fuel done offset with
  | nil =>
    obtain ⟨fuel, rfl⟩ := Nat.exists_eq_succ_of_ne_zero (Nat.ne_of_gt hfuel)
    exact ⟨offset + 1, by rw [List.append_nil]; rfl⟩
  | @plain c body points quote slash control _ ih =>
    obtain ⟨fuel, rfl⟩ := Nat.exists_eq_succ_of_ne_zero (Nat.ne_of_gt (Nat.zero_lt_of_lt hfuel))
    have hshort : body.length < fuel := by simpa using hfuel
    rw [List.cons_append, readText_plain quote slash control]
    simpa using ih hshort (.char c :: done) (offset + 1)
  | @escape c d body points short _ ih =>
    obtain ⟨fuel, rfl⟩ := Nat.exists_eq_succ_of_ne_zero (Nat.ne_of_gt (Nat.zero_lt_of_lt hfuel))
    have hshort : body.length < fuel := by
      simp only [List.length_cons] at hfuel
      omega
    rw [List.cons_append, List.cons_append, readText_short short]
    simpa using ih hshort (.char d :: done) (offset + 2)
  | @code digits body points unit four alone _ ih =>
    obtain ⟨fuel, rfl⟩ := Nat.exists_eq_succ_of_ne_zero (Nat.ne_of_gt (Nat.zero_lt_of_lt hfuel))
    have hshort : body.length < fuel := by
      simp only [List.length_cons, List.length_append] at hfuel
      omega
    have halone : lowUnit? unit (body ++ '"' :: rest) = none := by
      rw [lowUnit?_append_quote, alone, Option.map_none]
    obtain ⟨c, more, hmore⟩ := hbehind body
    obtain ⟨offset', hread⟩ := ih hshort (.ofUnit unit :: done) (offset + 6)
    rw [hmore] at halone hread
    refine ⟨offset', ?_⟩
    rw [List.cons_append, List.cons_append, List.append_assoc, hmore, readText_unit four halone, hread]
    simp
  | @pair first second body points high low upper isHigh lower isLow _ ih =>
    obtain ⟨fuel, rfl⟩ := Nat.exists_eq_succ_of_ne_zero (Nat.ne_of_gt (Nat.zero_lt_of_lt hfuel))
    have hshort : body.length < fuel := by
      simp only [List.length_cons, List.length_append] at hfuel
      omega
    obtain ⟨c, more, hmore⟩ := hbehind body
    obtain ⟨offset', hread⟩ := ih hshort (.char (Char.ofNat (pairCode high low)) :: done) (offset + 12)
    rw [hmore] at hread
    refine ⟨offset', ?_⟩
    simp only [List.cons_append, List.append_assoc, hmore]
    rw [readText_pair upper isHigh lower isLow, hread]
    simp

private theorem isUnit_hexDigits {n : Nat} (hn : n < 0x20) : IsUnit (Text.hexDigits 4 n) n := by
  have hunit : codeUnit? (Text.hexDigits 4 n ++ ['"']) = some (n, ['"']) := by interval_cases n <;> rfl
  obtain ⟨digits, hdigits, heq⟩ := isUnit_of_codeUnit? hunit
  rwa [List.append_cancel_right heq]

private theorem lowUnit?_of_lt {n : Nat} (hn : n < 0xD800) (rest : List Char) : lowUnit? n rest = none := by
  unfold lowUnit?
  split
  · rw [if_neg]
    simp [Nat.not_le.mpr hn]
  · rfl

private theorem SpellsText.escaped {body : List Char} {points : List CodePoint} (h : SpellsText body points)
    (c : Char) : SpellsText (Json.escape c ++ body) (.char c :: points) := by
  unfold Json.escape
  split
  case h_8 hquote hslash _ _ _ _ _ =>
    split
    case isTrue hc =>
      have hcode := SpellsText.code (isUnit_hexDigits hc) (lowUnit?_of_lt (by omega) _) h
      rwa [CodePoint.ofUnit, if_neg (by simp; omega), Char.ofNat_toNat] at hcode
    case isFalse hc => exact .plain hquote hslash hc h
  all_goals exact .escape rfl h

theorem spellsText_escape (cs : List Char) : SpellsText (cs.flatMap escape) (cs.map .char) := by
  induction cs with
  | nil => exact .nil
  | cons c cs ih => exact ih.escaped c

inductive SpellsNumber : List Char → Value → Prop where
  | int (negative : Bool) {whole : List Char} (isWhole : IsWhole whole)
      (short : whole.length ≤ Number.digitLimit) :
      SpellsNumber (withSign negative whole)
        (.int (if negative then -digitsValue whole else digitsValue whole))
  | real (negative : Bool) {whole frac es : List Char} {e : Int} (isWhole : IsWhole whole)
      (digits : ∀ c ∈ frac, c.isDigit = true) (exponent : SpellsExponent es e)
      (isReal : frac ≠ [] ∨ es ≠ []) :
      SpellsNumber (withSign negative (whole ++ (fractionText frac ++ es)))
        (.real (Number.ofDecimal negative (digitsValue (whole ++ frac)) (e - frac.length)))

private theorem isDigit_of_mem_readWhole (hc : c ∈ readWhole rest) : c.isDigit = true := by
  unfold readWhole at hc
  split at hc
  · rw [List.mem_singleton.mp hc]
    rfl
  · exact List.mem_takeWhile_imp hc

private theorem isWhole_readWhole (h : readWhole rest ≠ []) : IsWhole (readWhole rest) where
  digits _ hc := isDigit_of_mem_readWhole hc
  ne_nil := h
  lead := by
    unfold readWhole
    split
    case h_1 => exact .inl rfl
    case h_2 hzero =>
      refine .inr fun hhead => ?_
      cases rest with
      | nil => cases hhead
      | cons c cs =>
        rw [List.takeWhile_cons] at hhead
        split at hhead
        · cases hhead
          exact hzero cs rfl
        · cases hhead

private theorem readWhole_append_drop (rest : List Char) :
    rest = readWhole rest ++ rest.drop (readWhole rest).length := by
  refine (List.prefix_iff_eq_append.mp ?_).symm
  unfold readWhole
  split
  · exact List.prefix_append ['0'] _
  · exact List.takeWhile_prefix _

private theorem isDigit_of_mem_readFraction (hc : c ∈ readFraction rest) : c.isDigit = true := by
  unfold readFraction at hc
  split at hc
  · exact List.mem_takeWhile_imp hc
  · cases hc

private theorem fractionText_append_drop (cur : Cursor) :
    cur.rest = fractionText (readFraction cur.rest) ++
      (if (readFraction cur.rest).isEmpty then cur
        else cur.drop ((readFraction cur.rest).length + 1)).rest := by
  unfold fractionText
  split
  case isTrue => rfl
  case isFalse hsome =>
    unfold readFraction at hsome ⊢
    split at hsome
    case h_1 more heq =>
      have hprefix := List.prefix_iff_eq_append.mp (List.takeWhile_prefix (l := more) Char.isDigit)
      simp only [heq, Cursor.drop, List.drop_succ_cons, List.cons_append, hprefix]
    case h_2 => exact absurd rfl hsome

private theorem spells_of_readExponent {width : Nat} {e : Int} (h : readExponent rest = some (width, e)) :
    ∃ es, rest = es ++ rest.drop width ∧ es ≠ [] ∧ SpellsExponent es e := by
  unfold readExponent at h
  split at h
  case h_2 => cases h
  case h_1 mark more =>
    split at h
    case isFalse => cases h
    case isTrue hmark =>
      have hisMark : mark = 'e' ∨ mark = 'E' := by simpa using hmark
      have hdigits (cs : List Char) : ∀ c ∈ cs.takeWhile Char.isDigit, c.isDigit = true :=
        fun c hc => List.mem_takeWhile_imp hc
      have hprefix (cs : List Char) :=
        List.prefix_iff_eq_append.mp (List.takeWhile_prefix (l := cs) Char.isDigit)
      split at h
      case h_1 start negative digits heq =>
        dsimp only at h
        split at h
        case isTrue => cases h
        case isFalse hsome =>
          cases h
          have hne : digits.takeWhile Char.isDigit ≠ [] := by simpa using hsome
          split at heq
          case h_1 =>
            cases heq
            refine ⟨mark :: '-' :: digits.takeWhile Char.isDigit, ?_, List.cons_ne_nil _ _,
              .signed hisMark true (hdigits digits) hne⟩
            simp [Nat.add_comm 2, hprefix]
          case h_2 =>
            cases heq
            refine ⟨mark :: '+' :: digits.takeWhile Char.isDigit, ?_, List.cons_ne_nil _ _,
              .signed hisMark false (hdigits digits) hne⟩
            simp [Nat.add_comm 2, hprefix]
          case h_3 =>
            cases heq
            refine ⟨mark :: more.takeWhile Char.isDigit, ?_, List.cons_ne_nil _ _,
              .plain hisMark (hdigits more) hne⟩
            simp [Nat.add_comm 1, hprefix]

private theorem eq_withSign (cur : Cursor) :
    cur.rest = withSign (cur.rest.head? == some '-')
      (if cur.rest.head? == some '-' then cur.drop 1 else cur).rest := by
  unfold withSign
  split
  case isTrue hsign =>
    obtain ⟨cs, hcs⟩ := List.head?_eq_some_iff.mp (eq_of_beq hsign)
    rw [Cursor.drop, hcs]
    rfl
  case isFalse => rfl

theorem spells_of_readNumber {cur : Cursor} {v : Value} (h : readNumber cur = .ok (some (v, next))) :
    ∃ cs, cur.rest = cs ++ next.rest ∧ SpellsNumber cs v := by
  have hsigned := eq_withSign cur
  unfold readNumber at h
  extract_lets negative unsigned whole afterWhole frac afterFrac at h
  have hwhole : unsigned.rest = whole ++ afterWhole.rest := readWhole_append_drop unsigned.rest
  have hfrac : afterWhole.rest = fractionText frac ++ afterFrac.rest := fractionText_append_drop afterWhole
  have hdigits : ∀ c ∈ frac, c.isDigit = true := fun c => isDigit_of_mem_readFraction
  have hisWhole : whole ≠ [] → IsWhole whole := isWhole_readWhole
  change cur.rest = withSign negative unsigned.rest at hsigned
  rw [hwhole, hfrac] at hsigned
  clear_value afterFrac frac afterWhole whole unsigned negative
  split at h
  case isTrue => cases h
  case isFalse hsome =>
    replace hisWhole := hisWhole (by simpa using hsome)
    split at h
    case h_1 width e hexponent =>
      cases h
      obtain ⟨es, hes, hne, hspells⟩ := spells_of_readExponent hexponent
      refine ⟨_, ?_, .real negative hisWhole hdigits hspells (.inr hne)⟩
      rw [hsigned, hes]
      simp [withSign_append, Cursor.drop]
    case h_2 =>
      split at h
      case isTrue hnone =>
        split at h
        case isTrue => cases h
        case isFalse hshort =>
          cases h
          refine ⟨_, ?_, .int negative hisWhole (Nat.not_lt.mp hshort)⟩
          rw [hsigned, ← hfrac, withSign_append]
      case isFalse hpoint =>
        cases h
        have hne : frac ≠ [] := by simpa using hpoint
        have hspells := SpellsNumber.real negative hisWhole hdigits .none (.inl hne)
        rw [Int.zero_sub] at hspells
        refine ⟨_, ?_, hspells⟩
        rw [hsigned]
        simp [withSign_append]

end ThreatAtlas.Json
