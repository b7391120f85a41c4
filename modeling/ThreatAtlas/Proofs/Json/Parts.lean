import ThreatAtlas.Proofs.Json.Spelling

/-!
# Reading the parts of a document

A document is made of values, members of records, and what stands between brackets. `ReadsAs` says that the
reader takes some characters for such a part wherever they stand, or refuses them for a limit of size. It
holds of texts, words and numbers, and carries over from the parts of a list or record to the whole.
-/

namespace ThreatAtlas.Json

/-- The text was refused for the size of an integer or for its depth. -/
def FaultAt.OfLimit (e : FaultAt) : Prop :=
  (∃ digits, e.fault = .longInteger digits) ∨ ∃ part, e.fault = .tooDeep part

/-- The reader stopped at a limit, and what it was given does not keep to the limits. -/
def Refused (r : Except FaultAt α) (fits : Prop) : Prop :=
  ∃ e, r = .error e ∧ e.OfLimit ∧ ¬ fits

private theorem Refused.mono {r : Except FaultAt α} {fits fits' : Prop} (h : Refused r fits)
    (hfits : fits' → fits) : Refused r fits' := by
  obtain ⟨e, hr, he, hnot⟩ := h
  exact ⟨e, hr, he, mt hfits hnot⟩

private theorem Refused.bind {r : Except FaultAt α} {fits : Prop} (h : Refused r fits)
    (f : α → Except FaultAt β) : Refused (r >>= f) fits := by
  obtain ⟨e, rfl, he⟩ := h
  exact ⟨e, rfl, he⟩

/-- Reading came to this value, up to `rest`, or to a limit. -/
def Gives (r : Except FaultAt (Value × Cursor)) (v : Value) (fits : Prop) (rest : List Char) : Prop :=
  (∃ offset, r = .ok (v, ⟨rest, offset⟩)) ∨ Refused r fits

/-! ### Blanks -/

/-- What may stand between the parts of a document. -/
def Spaces (gap : List Char) : Prop :=
  ∀ c ∈ gap, isSpace c = true

theorem spaces_nil : Spaces [] :=
  List.forall_mem_nil _

variable {gap rest whole : List Char} {c : Char} {v : Value} {word : String}

theorem skipSpace_append (hgap : Spaces gap) (hrest : ∀ c ∈ rest.head?, isSpace c = false) (offset : Nat) :
    Cursor.skipSpace ⟨gap ++ rest, offset⟩ = ⟨rest, offset + gap.length⟩ := by
  unfold Cursor.skipSpace
  dsimp only
  rw [takeWhile_append_stop hgap hrest, drop_append_length]

private theorem skipSpace_drop (hgap : Spaces gap) (hrest : rest.head? = some c) (hc : isSpace c = false)
    (mark : Char) (offset : Nat) :
    (Cursor.drop ⟨mark :: (gap ++ rest), offset⟩ 1).skipSpace = ⟨rest, offset + 1 + gap.length⟩ := by
  refine skipSpace_append hgap ?_ (offset + 1)
  rw [hrest]
  rintro d ⟨⟩
  exact hc

/-! ### Beginnings and ends -/

def Begins (c : Char) : Prop :=
  isSpace c = false ∧ c ≠ ']' ∧ c ≠ '\ufeff'
deriving Decidable

private theorem begins_of_isDigit (hc : c.isDigit = true) : Begins c := by
  refine ⟨?_, ?_, ?_⟩
  · rw [Bool.eq_false_iff]
    intro hspace
    simp [isSpace] at hspace
    rcases hspace with ((rfl | rfl) | rfl) | rfl <;> exact absurd hc (by decide)
  · rintro rfl
    exact absurd hc (by decide)
  · rintro rfl
    exact absurd hc (by decide)

private theorem begins_withSign (negative : Bool) (h : IsWhole whole) (more : List Char) :
    ∃ c cs, withSign negative (whole ++ more) = c :: cs ∧ Begins c := by
  cases negative with
  | true => exact ⟨'-', whole ++ more, rfl, by simp [Begins, isSpace]⟩
  | false =>
    obtain ⟨c, cs, rfl⟩ := List.exists_cons_of_ne_nil h.ne_nil
    exact ⟨c, cs ++ more, rfl, begins_of_isDigit (h.digits c (by simp))⟩

private theorem stops_cons (hc : c = ',' ∨ c = ']' ∨ c = '\x7d') (rest : List Char) : Stops (c :: rest) := by
  rintro d ⟨⟩
  rcases hc with rfl | rfl | rfl <;> decide

private theorem stops_append (hgap : Spaces gap) (hrest : Stops rest) : Stops (gap ++ rest) := by
  cases gap with
  | nil => exact hrest
  | cons c gap =>
    rintro d ⟨⟩
    have hc := hgap c (by simp)
    simp only [isSpace, Bool.or_eq_true, beq_iff_eq] at hc
    rcases hc with ((rfl | rfl) | rfl) | rfl <;> decide

/-! ### Words and numbers -/

theorem mem_words {constant : String × Value} (h : constant ∈ constants) :
    constant.1 ∈ ["null", "true", "false", "NaN", "Infinity", "-Infinity"] :=
  List.mem_map_of_mem h

private theorem constants_ext {a b : String × Value} (ha : a ∈ constants) (hb : b ∈ constants)
    (h : a.1.toList.head? = b.1.toList.head?) : a = b := by
  have hnodup : (constants.map fun constant => constant.1.toList.head?).Nodup := by decide
  exact List.inj_on_of_nodup_map hnodup ha hb h

theorem word_ne_nil {constant : String × Value} (h : constant ∈ constants) : constant.1.toList ≠ [] := by
  have hwords : ∀ word ∈ ["null", "true", "false", "NaN", "Infinity", "-Infinity"],
      word.toList ≠ [] := by decide
  exact hwords _ (mem_words h)

private theorem begins_word (h : (word, v) ∈ constants) : ∃ c cs, word.toList = c :: cs ∧ Begins c := by
  have hwords : ∀ w ∈ ["null", "true", "false", "NaN", "Infinity", "-Infinity"],
      ∀ c ∈ w.toList.head?, Begins c := by simp [Begins, isSpace]
  obtain ⟨c, cs, hcs⟩ := List.exists_cons_of_ne_nil (word_ne_nil h)
  exact ⟨c, cs, hcs, hwords word (mem_words h) c (by rw [hcs]; rfl)⟩

private theorem readConstant?_word (h : (word, v) ∈ constants) (rest : List Char) (offset : Nat) :
    readConstant? ⟨word.toList ++ rest, offset⟩ = some (v, ⟨rest, offset + word.length⟩) := by
  have hfind : ∀ pairs ⊆ constants, (word, v) ∈ pairs →
      (pairs.findSome? fun pair =>
        if pair.1.toList.isPrefixOf (word.toList ++ rest) then
          some (pair.2, Cursor.drop ⟨word.toList ++ rest, offset⟩ pair.1.length)
        else none) = some (v, ⟨rest, offset + word.length⟩) := by
    intro pairs hpairs hmem
    induction pairs with
    | nil => cases hmem
    | cons pair pairs ih =>
      obtain ⟨other, w⟩ := pair
      have hother : (other, w) ∈ constants := hpairs (by simp)
      rw [List.findSome?_cons]
      dsimp only
      by_cases hprefix : other.toList.isPrefixOf (word.toList ++ rest) = true
      · have hhead : other.toList.head? = word.toList.head? := by
          obtain ⟨more, hmore⟩ := List.isPrefixOf_iff_prefix.mp hprefix
          have := congrArg List.head? hmore
          rwa [List.head?_append_of_ne_nil _ (word_ne_nil hother),
            List.head?_append_of_ne_nil _ (word_ne_nil h)] at this
        cases constants_ext hother h hhead
        rw [if_pos hprefix]
        dsimp only
        rw [← String.length_toList, drop_append_length]
      · rw [if_neg hprefix]
        refine ih (fun pair hpair => hpairs (List.mem_cons_of_mem _ hpair)) ?_
        rcases List.mem_cons.mp hmem with heq | hmem
        · cases heq
          exact absurd (List.isPrefixOf_iff_prefix.mpr (List.prefix_append _ _)) hprefix
        · exact hmem
  exact hfind constants (List.Subset.refl _) h

theorem readConstant?_withSign (negative : Bool) (h : IsWhole whole) (more : List Char) (offset : Nat) :
    readConstant? ⟨withSign negative (whole ++ more), offset⟩ = none := by
  obtain ⟨c, cs, rfl⟩ := List.exists_cons_of_ne_nil h.ne_nil
  have hc : c.isDigit = true := h.digits c (by simp)
  have hne : ∀ d : Char, d.isDigit = false → d ≠ c := by
    rintro d hd rfl
    rw [hc] at hd
    cases hd
  have hwords : ∀ word ∈ ["null", "true", "false", "NaN", "Infinity", "-Infinity"],
      ¬ word.toList <+: withSign negative (c :: cs ++ more) := by
    cases negative with
    | true => simp [withSign, List.cons_prefix_cons, hne 'I' rfl]
    | false =>
      simp [withSign, List.cons_prefix_cons, hne 'n' rfl, hne 't' rfl, hne 'f' rfl, hne 'N' rfl,
        hne 'I' rfl, hne '-' rfl]
  unfold readConstant?
  rw [List.findSome?_eq_none_iff]
  intro constant hconstant
  exact if_neg fun hprefix =>
    hwords _ (mem_words hconstant) (List.isPrefixOf_iff_prefix.mp hprefix)

theorem readValue_scalar (hquote : c ≠ '"') (hlist : c ≠ '[') (hrecord : c ≠ '\x7b') (fuel levels : Nat)
    (cs : List Char) (offset : Nat) : readValue (fuel + 1) levels ⟨c :: cs, offset⟩ =
      match readConstant? ⟨c :: cs, offset⟩ with
      | some r => .ok r
      | none =>
        match readNumber ⟨c :: cs, offset⟩ with
        | .ok (some r) => .ok r
        | .ok none => .error ⟨.expectingValue, offset⟩
        | .error e => .error e := by
  unfold readValue
  dsimp only
  split
  case h_1 heq => exact absurd (List.cons.inj heq).1 hquote
  case h_2 heq => exact absurd (List.cons.inj heq).1 hlist
  case h_3 heq => exact absurd (List.cons.inj heq).1 hrecord
  case h_4 =>
    cases readConstant? ⟨c :: cs, offset⟩ with
    | some r => rfl
    | none => rcases readNumber ⟨c :: cs, offset⟩ with _ | _ | _ <;> rfl

theorem readValue_word (h : (word, v) ∈ constants) (fuel levels : Nat) (rest : List Char) (offset : Nat) :
    readValue (fuel + 1) levels ⟨word.toList ++ rest, offset⟩ =
      .ok (v, ⟨rest, offset + word.length⟩) := by
  have hhead : ∀ w ∈ ["null", "true", "false", "NaN", "Infinity", "-Infinity"],
      ∀ c ∈ w.toList.head?, c ≠ '"' ∧ c ≠ '[' ∧ c ≠ '\x7b' := by simp
  obtain ⟨c, cs, hword⟩ := List.exists_cons_of_ne_nil (word_ne_nil h)
  obtain ⟨hquote, hlist, hrecord⟩ := hhead word (mem_words h) c (by rw [hword]; rfl)
  have hconstant := readConstant?_word h rest offset
  dsimp only at hword
  rw [hword, List.cons_append] at hconstant ⊢
  rw [readValue_scalar hquote hlist hrecord, hconstant]

theorem readValue_withSign (negative : Bool) (h : IsWhole whole) (more : List Char) (fuel levels offset : Nat) :
    readValue (fuel + 1) levels ⟨withSign negative (whole ++ more), offset⟩ =
      match readNumber ⟨withSign negative (whole ++ more), offset⟩ with
      | .ok (some r) => .ok r
      | .ok none => .error ⟨.expectingValue, offset⟩
      | .error e => .error e := by
  obtain ⟨c, cs, hcs, hquote, hlist, hrecord⟩ : ∃ c cs, withSign negative (whole ++ more) = c :: cs ∧
      c ≠ '"' ∧ c ≠ '[' ∧ c ≠ '\x7b' := by
    cases negative with
    | true => exact ⟨'-', whole ++ more, rfl, by decide⟩
    | false =>
      obtain ⟨c, cs, rfl⟩ := List.exists_cons_of_ne_nil h.ne_nil
      have hc : c.isDigit = true := h.digits c (by simp)
      refine ⟨c, cs ++ more, rfl, ?_, ?_, ?_⟩ <;>
      · rintro rfl
        exact absurd hc (by decide)
  have hconstant := readConstant?_withSign negative h more offset
  rw [hcs] at hconstant ⊢
  rw [readValue_scalar hquote hlist hrecord, hconstant]

/-! ### Parts -/

/-- A part of a document: a value, a member of a record, or what stands between brackets. -/
inductive Part where
  | value (v : Value)
  | member (field : String × Value)
  | items (vs : List Value)
  | members (pairs : List (String × Value))

def Part.Begins : Part → Char → Prop
  | .value _, c => Json.Begins c
  | .items _, c => Json.Begins c
  | .member _, c => c = '"'
  | .members _, c => c = '"'

def membersAfter (fuel levels : Nat) (done : List (String × Value)) (cur : Cursor) :
    Except FaultAt (Value × Cursor) :=
  match cur.skipSpace.rest with
  | '}' :: _ => .ok (.record (Fields.ofPairs done.reverse), cur.skipSpace.drop 1)
  | ',' :: _ => readMembers fuel levels done (cur.skipSpace.drop 1).skipSpace
  | _ => cur.skipSpace.fail .expectingComma

private theorem readItems_of_ok {fuel levels : Nat} {done : List Value} {cur next : Cursor}
    (h : readValue fuel levels cur = .ok (v, next)) : readItems (fuel + 1) levels done cur =
      match next.skipSpace.rest with
      | ']' :: _ => .ok (.list (v :: done).reverse, next.skipSpace.drop 1)
      | ',' :: _ => readItems fuel levels (v :: done) (next.skipSpace.drop 1).skipSpace
      | _ => next.skipSpace.fail .expectingComma := by
  rw [readItems, h]
  rfl

theorem readValue_list {before inner : List Char} (hbefore : Spaces before) (hinner : inner.head? = some c)
    (hspace : isSpace c = false) (hc : c ≠ ']') (fuel levels offset : Nat) :
    readValue (fuel + 1) (levels + 1) ⟨'[' :: (before ++ inner), offset⟩ =
      readItems fuel levels [] ⟨inner, offset + 1 + before.length⟩ := by
  obtain ⟨cs, rfl⟩ : ∃ cs, inner = c :: cs := List.head?_eq_some_iff.mp hinner
  simp only [readValue, skipSpace_drop hbefore hinner hspace]
  split
  case h_1 heq => exact absurd (List.cons.inj heq).1 hc
  case h_2 => rfl

theorem readValue_record {before inner : List Char} (hbefore : Spaces before) (hinner : inner.head? = some c)
    (hspace : isSpace c = false) (hc : c ≠ '}') (fuel levels offset : Nat) :
    readValue (fuel + 1) (levels + 1) ⟨'{' :: (before ++ inner), offset⟩ =
      readMembers fuel levels [] ⟨inner, offset + 1 + before.length⟩ := by
  obtain ⟨cs, rfl⟩ : ∃ cs, inner = c :: cs := List.head?_eq_some_iff.mp hinner
  simp only [readValue, skipSpace_drop hbefore hinner hspace]
  split
  case h_1 heq => exact absurd (List.cons.inj heq).1 hc
  case h_2 => rfl

theorem readMembers_name {body gap' : List Char} {name : List CodePoint} (named : SpellsText body name)
    (hgap : Spaces gap)
    (hgap' : Spaces gap') (hrest : rest.head? = some c) (hc : isSpace c = false) {fuel : Nat}
    (hfuel : body.length < fuel) (levels : Nat) (done : List (String × Value)) (offset : Nat) :
    ∃ offset', readMembers (fuel + 1) levels done
        ⟨'"' :: (body ++ '"' :: (gap ++ ':' :: (gap' ++ rest))), offset⟩ =
      readValue fuel levels ⟨rest, offset'⟩ >>= fun found =>
        membersAfter fuel levels (Fields.entry name found.1 :: done) found.2 := by
  obtain ⟨offset₁, hname⟩ :=
    readText_of_spells named offset hfuel [] (gap ++ ':' :: (gap' ++ rest)) (offset + 1)
  have hcolon : Cursor.skipSpace ⟨gap ++ ':' :: (gap' ++ rest), offset₁⟩ = _ :=
    skipSpace_append hgap (by rintro d ⟨⟩; rfl) offset₁
  have hvalue := skipSpace_drop hgap' hrest hc ':' (offset₁ + gap.length)
  refine ⟨offset₁ + gap.length + 1 + gap'.length, ?_⟩
  rw [readMembers]
  change (readText offset fuel [] ⟨body ++ '"' :: (gap ++ ':' :: (gap' ++ rest)), offset + 1⟩ >>= _) = _
  rw [hname]
  simp only [bind, Except.bind, hcolon, hvalue]
  rfl

/-- The reader takes the characters for the part, wherever they stand. -/
def Taken (levels : Nat) (fits : Prop) (cs : List Char) : Part → Prop
  | .value v => ∀ fuel rest offset, 2 * cs.length ≤ fuel → Stops rest →
      Gives (readValue fuel levels ⟨cs ++ rest, offset⟩) v fits rest
  | .member field => ∀ fuel done rest offset, 2 * cs.length ≤ fuel → Stops rest →
      (∃ offset', readMembers (fuel + 1) levels done ⟨cs ++ rest, offset⟩ =
        membersAfter fuel levels (field :: done) ⟨rest, offset'⟩) ∨
      Refused (readMembers (fuel + 1) levels done ⟨cs ++ rest, offset⟩) fits
  | .items vs => ∀ fuel done rest offset, 2 * cs.length + 1 ≤ fuel →
      Gives (readItems fuel levels done ⟨cs ++ ']' :: rest, offset⟩) (.list (done.reverse ++ vs)) fits rest
  | .members pairs => ∀ fuel done rest offset, 2 * cs.length + 1 ≤ fuel →
      Gives (readMembers fuel levels done ⟨cs ++ '}' :: rest, offset⟩)
        (.record (Fields.ofPairs (done.reverse ++ pairs))) fits rest

structure ReadsAs (levels : Nat) (fits : Prop) (cs : List Char) (part : Part) : Prop where
  begins : ∃ c rest, cs = c :: rest ∧ part.Begins c
  taken : Taken levels fits cs part

section

variable {levels : Nat} {fits fits' : Prop} {cs ds gap gap' : List Char}
variable {part : Part} {v : Value}

private theorem ReadsAs.begins_append (h : ReadsAs levels fits cs part) (more : List Char) :
    ∃ c rest, cs ++ more = c :: rest ∧ part.Begins c := by
  obtain ⟨c, rest, rfl, hc⟩ := h.begins
  exact ⟨c, rest ++ more, rfl, hc⟩

private theorem ReadsAs.head? (h : ReadsAs levels fits cs part) (rest : List Char) :
    ∃ c, (cs ++ rest).head? = some c ∧ part.Begins c := by
  obtain ⟨c, more, heq, hc⟩ := h.begins_append rest
  exact ⟨c, by rw [heq]; rfl, hc⟩

theorem ReadsAs.mono (h : ReadsAs levels fits cs part) (hfits : fits' → fits) :
    ReadsAs levels fits' cs part := by
  refine ⟨h.begins, ?_⟩
  have htaken := h.taken
  cases part with
  | value v => exact fun fuel rest offset hfuel hrest =>
      (htaken fuel rest offset hfuel hrest).imp_right (·.mono hfits)
  | member field => exact fun fuel done rest offset hfuel hrest =>
      (htaken fuel done rest offset hfuel hrest).imp_right (·.mono hfits)
  | items vs => exact fun fuel done rest offset hfuel =>
      (htaken fuel done rest offset hfuel).imp_right (·.mono hfits)
  | members pairs => exact fun fuel done rest offset hfuel =>
      (htaken fuel done rest offset hfuel).imp_right (·.mono hfits)

private theorem ReadsAs.of_value (hbegins : ∃ c rest, cs = c :: rest ∧ Begins c)
    (hread : ∀ fuel rest offset, 2 * cs.length ≤ fuel + 1 → Stops rest →
      Gives (readValue (fuel + 1) levels ⟨cs ++ rest, offset⟩) v fits rest) :
    ReadsAs levels fits cs (.value v) := by
  refine ⟨hbegins, fun fuel rest offset hfuel hrest => ?_⟩
  obtain ⟨c, more, rfl, -⟩ := hbegins
  rw [List.length_cons] at hfuel
  obtain ⟨fuel, rfl⟩ := Nat.exists_eq_succ_of_ne_zero (show fuel ≠ 0 by omega)
  exact hread fuel rest offset hfuel hrest

theorem readsAs_text {body : List Char} {points : List CodePoint} (h : SpellsText body points) :
    ReadsAs levels fits ('"' :: (body ++ ['"'])) (.value (.ofPoints points)) := by
  refine .of_value ⟨'"', _, rfl, by decide⟩ fun fuel rest offset hfuel _ => .inl ?_
  simp only [List.length_cons, List.length_append] at hfuel
  obtain ⟨offset', hread⟩ :=
    readText_of_spells h offset (show body.length < fuel by omega) [] rest (offset + 1)
  refine ⟨offset', ?_⟩
  rw [List.cons_append, List.append_assoc, List.singleton_append]
  unfold readValue
  change (readText offset fuel [] ⟨body ++ '"' :: rest, offset + 1⟩ >>= _) = _
  rw [hread]
  rfl

theorem readsAs_word {word : String} (h : (word, v) ∈ constants) :
    ReadsAs levels fits word.toList (.value v) :=
  .of_value (begins_word h) fun fuel rest offset _ _ => .inl ⟨_, readValue_word h fuel levels rest offset⟩

theorem readsAs_int (negative : Bool) {whole : List Char} (h : IsWhole whole) :
    ReadsAs levels (whole.length ≤ Number.digitLimit) (withSign negative whole)
      (.value (.int (if negative then -digitsValue whole else digitsValue whole))) := by
  refine .of_value (by simpa using begins_withSign negative h []) fun fuel rest offset _ hrest => ?_
  rw [withSign_append, readValue_withSign negative h]
  rcases readNumber_whole negative h hrest offset with ⟨offset', hread⟩ | ⟨hlong, digits, hread⟩
  · exact .inl ⟨offset', by rw [hread]⟩
  · exact .inr ⟨_, by rw [hread], .inl ⟨digits, rfl⟩, Nat.not_le.mpr hlong⟩

theorem readsAs_real (negative : Bool) {whole frac es : List Char} {e : Int} (hwhole : IsWhole whole)
    (hfrac : ∀ c ∈ frac, c.isDigit = true) (hes : SpellsExponent es e) (hreal : frac ≠ [] ∨ es ≠ []) :
    ReadsAs levels fits (withSign negative (whole ++ (fractionText frac ++ es)))
      (.value (.real (Number.ofDecimal negative (digitsValue (whole ++ frac)) (e - frac.length)))) := by
  refine .of_value (begins_withSign negative hwhole _) fun fuel rest offset _ hrest => .inl ?_
  obtain ⟨offset', hread⟩ := readNumber_decimal negative hwhole hfrac hes hreal hrest offset
  rw [withSign_append, List.append_assoc, List.append_assoc, readValue_withSign negative hwhole, hread]
  exact ⟨offset', rfl⟩

theorem readsAs_emptyList (hgap : Spaces gap) :
    ReadsAs (levels + 1) fits ('[' :: (gap ++ [']'])) (.value (.list [])) := by
  refine .of_value ⟨'[', _, rfl, by decide⟩ fun fuel rest offset _ _ => .inl ?_
  have hskip := skipSpace_drop hgap (show (']' :: rest).head? = _ from rfl) rfl '[' offset
  simp only [List.cons_append, List.append_assoc, List.nil_append, readValue, hskip]
  exact ⟨_, rfl⟩

theorem readsAs_emptyRecord (hgap : Spaces gap) :
    ReadsAs (levels + 1) fits ('{' :: (gap ++ ['}'])) (.value (.record [])) := by
  refine .of_value ⟨'{', _, rfl, by decide⟩ fun fuel rest offset _ _ => .inl ?_
  have hskip := skipSpace_drop hgap (show ('}' :: rest).head? = _ from rfl) rfl '{' offset
  simp only [List.cons_append, List.append_assoc, List.nil_append, readValue, hskip]
  exact ⟨_, rfl⟩

theorem readsAs_list {vs : List Value} (hgap : Spaces gap) (h : ReadsAs levels fits cs (.items vs)) :
    ReadsAs (levels + 1) fits ('[' :: (gap ++ (cs ++ [']']))) (.value (.list vs)) := by
  refine .of_value ⟨'[', _, rfl, by decide⟩ fun fuel rest offset hfuel _ => ?_
  simp only [List.length_cons, List.length_append] at hfuel
  obtain ⟨c, hhead, hspace, hc, -⟩ := h.head? (']' :: rest)
  have hitems := h.taken fuel [] rest (offset + 1 + gap.length) (by omega)
  rw [← readValue_list hgap hhead hspace hc fuel levels offset] at hitems
  simpa using hitems

theorem readsAs_record {pairs : List (String × Value)} (hgap : Spaces gap)
    (h : ReadsAs levels fits cs (.members pairs)) :
    ReadsAs (levels + 1) fits ('{' :: (gap ++ (cs ++ ['}']))) (.value (.record (Fields.ofPairs pairs))) := by
  refine .of_value ⟨'{', _, rfl, by decide⟩ fun fuel rest offset hfuel _ => ?_
  simp only [List.length_cons, List.length_append] at hfuel
  obtain ⟨c, hhead, rfl⟩ := h.head? ('}' :: rest)
  have hmembers := h.taken fuel [] rest (offset + 1 + gap.length) (by omega)
  rw [← readValue_record hgap hhead rfl (by decide) fuel levels offset] at hmembers
  simpa using hmembers

theorem readsAs_tooDeep {c : Char} (hc : c = '[' ∨ c = '{') (hnot : ¬ fits) (v : Value) :
    ReadsAs 0 fits (c :: cs) (.value v) := by
  refine .of_value ⟨c, cs, rfl, by rcases hc with rfl | rfl <;> decide⟩ fun fuel rest offset _ _ => .inr ?_
  rcases hc with rfl | rfl <;> exact ⟨_, rfl, .inr ⟨_, rfl⟩, hnot⟩

theorem readsAs_member {body : List Char} {name : List CodePoint} (named : SpellsText body name)
    (hgap : Spaces gap) (hgap' : Spaces gap') (h : ReadsAs levels fits cs (.value v)) :
    ReadsAs levels fits ('"' :: (body ++ '"' :: (gap ++ ':' :: (gap' ++ cs))))
      (.member (Fields.entry name v)) := by
  refine ⟨⟨'"', _, rfl, rfl⟩, fun fuel done rest offset hfuel hrest => ?_⟩
  simp only [List.length_cons, List.length_append] at hfuel
  obtain ⟨c, hhead, hspace, -⟩ := h.head? rest
  obtain ⟨offset₁, hname⟩ := readMembers_name named hgap hgap' hhead hspace
    (show body.length < fuel by omega) levels done offset
  simp only [List.cons_append, List.append_assoc]
  rw [hname]
  rcases h.taken fuel rest offset₁ (by omega) hrest with ⟨offset', hv⟩ | hrefused
  · exact .inl ⟨offset', by rw [hv]; rfl⟩
  · exact .inr (hrefused.bind _)

theorem readsAs_lastItem (h : ReadsAs levels fits cs (.value v)) (hgap : Spaces gap) :
    ReadsAs levels fits (cs ++ gap) (.items [v]) := by
  refine ⟨h.begins_append _, fun fuel done rest offset hfuel => ?_⟩
  rw [List.length_append] at hfuel
  obtain ⟨fuel, rfl⟩ := Nat.exists_eq_succ_of_ne_zero (show fuel ≠ 0 by omega)
  rw [List.append_assoc]
  rcases h.taken fuel (gap ++ ']' :: rest) offset (by omega)
    (stops_append hgap (stops_cons (.inr (.inl rfl)) rest)) with ⟨offset₁, hv⟩ | hrefused
  · have hclose : Cursor.skipSpace ⟨gap ++ ']' :: rest, offset₁⟩ = _ :=
      skipSpace_append hgap (by rintro d ⟨⟩; rfl) offset₁
    rw [readItems_of_ok hv]
    simp only [hclose]
    exact .inl ⟨_, by rw [List.reverse_cons]; rfl⟩
  · rw [readItems]
    exact .inr (hrefused.bind _)

theorem readsAs_nextItem {vs : List Value} (h : ReadsAs levels fits cs (.value v)) (hgap : Spaces gap)
    (hgap' : Spaces gap') (hothers : ReadsAs levels fits ds (.items vs)) :
    ReadsAs levels fits (cs ++ (gap ++ ',' :: (gap' ++ ds))) (.items (v :: vs)) := by
  refine ⟨h.begins_append _, fun fuel done rest offset hfuel => ?_⟩
  simp only [List.length_append, List.length_cons] at hfuel
  obtain ⟨fuel, rfl⟩ := Nat.exists_eq_succ_of_ne_zero (show fuel ≠ 0 by omega)
  simp only [List.append_assoc, List.cons_append]
  rcases h.taken fuel (gap ++ ',' :: (gap' ++ (ds ++ ']' :: rest))) offset (by omega)
    (stops_append hgap (stops_cons (.inl rfl) _)) with ⟨offset₁, hv⟩ | hrefused
  · have hcomma : Cursor.skipSpace ⟨gap ++ ',' :: (gap' ++ (ds ++ ']' :: rest)), offset₁⟩ = _ :=
      skipSpace_append hgap (by rintro d ⟨⟩; rfl) offset₁
    obtain ⟨d, hhead, hspace, -⟩ := hothers.head? (']' :: rest)
    have hnext := skipSpace_drop hgap' hhead hspace ',' (offset₁ + gap.length)
    have hvs := hothers.taken fuel (v :: done) rest (offset₁ + gap.length + 1 + gap'.length) (by omega)
    rw [readItems_of_ok hv]
    simp only [hcomma, hnext]
    rwa [List.reverse_cons, List.append_assoc, List.singleton_append] at hvs
  · rw [readItems]
    exact .inr (hrefused.bind _)

theorem readsAs_lastMember {field : String × Value} (h : ReadsAs levels fits cs (.member field))
    (hgap : Spaces gap) : ReadsAs levels fits (cs ++ gap) (.members [field]) := by
  refine ⟨h.begins_append _, fun fuel done rest offset hfuel => ?_⟩
  rw [List.length_append] at hfuel
  obtain ⟨fuel, rfl⟩ := Nat.exists_eq_succ_of_ne_zero (show fuel ≠ 0 by omega)
  rw [List.append_assoc]
  refine (h.taken fuel done (gap ++ '}' :: rest) offset (by omega)
    (stops_append hgap (stops_cons (.inr (.inr rfl)) rest))).imp_left ?_
  rintro ⟨offset₁, hv⟩
  have hclose : Cursor.skipSpace ⟨gap ++ '}' :: rest, offset₁⟩ = _ :=
    skipSpace_append hgap (by rintro d ⟨⟩; rfl) offset₁
  rw [hv]
  simp only [membersAfter, hclose]
  exact ⟨_, by rw [List.reverse_cons]; rfl⟩

theorem readsAs_nextMember {field : String × Value} {pairs : List (String × Value)}
    (h : ReadsAs levels fits cs (.member field)) (hgap : Spaces gap) (hgap' : Spaces gap')
    (hothers : ReadsAs levels fits ds (.members pairs)) :
    ReadsAs levels fits (cs ++ (gap ++ ',' :: (gap' ++ ds))) (.members (field :: pairs)) := by
  refine ⟨h.begins_append _, fun fuel done rest offset hfuel => ?_⟩
  simp only [List.length_append, List.length_cons] at hfuel
  obtain ⟨fuel, rfl⟩ := Nat.exists_eq_succ_of_ne_zero (show fuel ≠ 0 by omega)
  simp only [List.append_assoc, List.cons_append]
  rcases h.taken fuel done (gap ++ ',' :: (gap' ++ (ds ++ '}' :: rest))) offset (by omega)
    (stops_append hgap (stops_cons (.inl rfl) _)) with ⟨offset₁, hv⟩ | hrefused
  · have hcomma : Cursor.skipSpace ⟨gap ++ ',' :: (gap' ++ (ds ++ '}' :: rest)), offset₁⟩ = _ :=
      skipSpace_append hgap (by rintro d ⟨⟩; rfl) offset₁
    obtain ⟨d, hhead, rfl⟩ := hothers.head? ('}' :: rest)
    have hnext := skipSpace_drop hgap' hhead rfl ',' (offset₁ + gap.length)
    have hpairs := hothers.taken fuel (field :: done) rest
      (offset₁ + gap.length + 1 + gap'.length) (by omega)
    rw [hv]
    simp only [membersAfter, hcomma, hnext]
    rwa [List.reverse_cons, List.append_assoc, List.singleton_append] at hpairs
  · exact .inr hrefused

/-- A whole document is a value with blanks around it. -/
theorem ReadsAs.read {s : String} {before after : List Char} (h : ReadsAs nestingLimit fits cs (.value v))
    (hbefore : Spaces before) (hafter : Spaces after) (hs : s.toList = before ++ (cs ++ after)) :
    read s = .ok v ∨ Refused (read s) fits := by
  obtain ⟨c, hhead, hspace, -, hmark⟩ := h.head? after
  have hstart : (s.toList.head? == some '\ufeff') = false := by
    rw [hs]
    cases before with
    | nil => simpa [hhead] using hmark
    | cons d before =>
      have hd := hbefore d (by simp)
      simp only [List.cons_append, List.head?_cons, beq_eq_false_iff_ne, ne_eq, Option.some.injEq]
      rintro rfl
      exact absurd hd (by decide)
  have hskip : Cursor.skipSpace ⟨before ++ (cs ++ after), 0⟩ = _ :=
    skipSpace_append hbefore (by rw [hhead]; rintro d ⟨⟩; exact hspace) 0
  have hstops : Stops after := by
    rw [← List.append_nil after]
    exact stops_append hafter (by rintro c ⟨⟩)
  have hread := h.taken (2 * s.toList.length + 2) after (0 + before.length)
    (by rw [hs]; simp only [List.length_append]; omega) hstops
  unfold Json.read
  dsimp only
  rw [hstart, if_neg Bool.false_ne_true, hs, hskip, ← hs]
  rcases hread with ⟨offset, hread⟩ | hrefused
  · have hend : Cursor.skipSpace ⟨after ++ [], offset⟩ = _ :=
      skipSpace_append hafter (by rintro c ⟨⟩) offset
    rw [List.append_nil] at hend
    rw [hread]
    simp only [bind, Except.bind, hend]
    exact .inl rfl
  · exact .inr (hrefused.bind _)

end

end ThreatAtlas.Json
