import ThreatAtlas.Proofs.Csv
import ThreatAtlas.Proofs.Json.Grammar

/-!
# What stands inside a document

Whatever a value holds is spelt somewhere in the text that the value was read from, and each text and each
name in it has two quotes there. The text may have more quotes than that: of a repeated name only the last
value counts, so what was read of the others is lost.
-/

namespace ThreatAtlas

namespace Value

/-- The value without the name that was kept with it. -/
def bare : Value → Value
  | .under _ v => v
  | v => v

/-- The first value is the second one or stands somewhere in it. -/
inductive Within : Value → Value → Prop where
  | self (v : Value) : Within v v
  | item {v w : Value} {items : List Value} (mem : w ∈ items) (within : Within v w) : Within v (.list items)
  | field {v : Value} {field : String × Value} {fields : Fields} (mem : field ∈ fields)
      (within : Within v field.2.bare) : Within v (.record fields)

mutual

/-- How many texts stand in the value, the names of fields among them. -/
def textCount : Value → Nat
  | .text _ => 1
  | .unpaired _ => 1
  | .list items => textCountAll items
  | .record fields => textCountFields fields
  | .under _ v => textCount v
  | _ => 0

def textCountAll : List Value → Nat
  | [] => 0
  | v :: rest => textCount v + textCountAll rest

def textCountFields : List (String × Value) → Nat
  | [] => 0
  | (_, v) :: rest => 1 + textCount v + textCountFields rest

end

private theorem textCountFields_set_le (fields : Fields) (name : String) (v : Value) :
    textCountFields (fields.set name v) ≤ textCountFields fields + (1 + textCount v) := by
  induction fields with
  | nil => simp [Fields.set, textCountFields]
  | cons field fields ih =>
    obtain ⟨n, w⟩ := field
    rw [Fields.set]
    split
    · simp only [textCountFields]
      omega
    · simp only [textCountFields]
      omega

private theorem textCountFields_ofPairs_le (pairs : List (String × Value)) :
    textCountFields (Fields.ofPairs pairs) ≤ textCountFields pairs := by
  have hfold (fields : Fields) :
      textCountFields (pairs.foldl (fun fields pair => Fields.set fields pair.1 pair.2) fields) ≤
        textCountFields fields + textCountFields pairs := by
    induction pairs generalizing fields with
    | nil => exact Nat.le_add_right _ _
    | cons pair pairs ih =>
      obtain ⟨name, v⟩ := pair
      have hset := textCountFields_set_le fields name v
      have hrest := ih (fields.set name v)
      simp only [List.foldl_cons, textCountFields] at hrest ⊢
      omega
  have hall := hfold []
  rw [textCountFields, Nat.zero_add] at hall
  exact hall

end Value

namespace Json

def Part.Holds (v : Value) : Part → Prop
  | .value w => v.Within w
  | .member field => v.Within field.2.bare
  | .items ws => ∃ w ∈ ws, v.Within w
  | .members pairs => ∃ pair ∈ pairs, v.Within pair.2.bare

variable {v : Value} {word : String} {cs : List Char} {levels : Nat} {c : Char}

private theorem eq_of_within_word {w : Value} (h : (word, w) ∈ constants) (hwithin : v.Within w) : v = w := by
  cases hwithin with
  | self => rfl
  | item _ _ => simp [constants] at h
  | field _ _ => simp [constants] at h

private theorem eq_of_within_number {w : Value} (h : SpellsNumber cs w) (hwithin : v.Within w) : v = w := by
  cases hwithin with
  | self => rfl
  | item _ _ => cases h
  | field _ _ => cases h

private theorem eq_of_within_text {points : List CodePoint} (hwithin : v.Within (.ofPoints points)) :
    v = .ofPoints points := by
  unfold Value.ofPoints at hwithin ⊢
  split at hwithin
  case isTrue hhalf =>
    rw [dif_pos hhalf]
    cases hwithin
    rfl
  case isFalse hchars =>
    rw [dif_neg hchars]
    cases hwithin
    rfl

private theorem Spells.bare_entry (h : Spells levels cs (.value v)) (name : List CodePoint) :
    (Fields.entry name v).2.bare = v := by
  unfold Fields.entry
  dsimp only
  split
  · rfl
  · cases h with
    | text _ =>
      unfold Value.ofPoints
      split <;> rfl
    | word known =>
      simp only [constants, List.mem_cons, Prod.mk.injEq, List.not_mem_nil, or_false] at known
      rcases known with ⟨-, rfl⟩ | ⟨-, rfl⟩ | ⟨-, rfl⟩ | ⟨-, rfl⟩ | ⟨-, rfl⟩ | ⟨-, rfl⟩ <;> rfl
    | number spelt => cases spelt <;> rfl
    | emptyList _ | list _ _ | emptyRecord _ | record _ _ => rfl

def SpeltIn (cs : List Char) (v : Value) : Prop :=
  ∃ ds levels, ds <:+: cs ∧ Spells levels ds (.value v)

private theorem Spells.speltIn (h : Spells levels cs (.value v)) : SpeltIn cs v :=
  ⟨cs, levels, List.infix_refl cs, h⟩

private theorem SpeltIn.mono {cs' : List Char} (h : SpeltIn cs v) (hpart : cs <:+: cs') : SpeltIn cs' v := by
  obtain ⟨ds, levels, hds, hspells⟩ := h
  exact ⟨ds, levels, hds.trans hpart, hspells⟩

theorem Spells.speltIn_of_holds {part : Part} (h : Spells levels cs part) (hv : part.Holds v) :
    SpeltIn cs v := by
  induction h with
  | @text levels _ _ inside =>
    rw [eq_of_within_text hv]
    exact (@Spells.text levels _ _ inside).speltIn
  | @word levels _ _ known =>
    rw [eq_of_within_word known hv]
    exact (@Spells.word levels _ _ known).speltIn
  | @number levels _ _ spelt =>
    rw [eq_of_within_number spelt hv]
    exact (@Spells.number levels _ _ spelt).speltIn
  | @emptyList levels _ blank =>
    cases hv with
    | self => exact (@Spells.emptyList levels _ blank).speltIn
    | item mem _ => cases mem
  | @emptyRecord levels _ blank =>
    cases hv with
    | self => exact (@Spells.emptyRecord levels _ blank).speltIn
    | field mem _ => cases mem
  | @list _ gap _ _ blank inside ih =>
    cases hv with
    | self => exact (Spells.list blank inside).speltIn
    | item mem within => exact (ih ⟨_, mem, within⟩).mono ⟨'[' :: gap, [']'], by simp⟩
  | @record _ gap _ _ blank inside ih =>
    cases hv with
    | self => exact (Spells.record blank inside).speltIn
    | field mem within =>
      rcases Csv.value_of_mem_foldl_set mem with hnone | ⟨pair, hpair, hvalue⟩
      · cases hnone
      · rw [hvalue] at within
        exact (ih ⟨pair, hpair, within⟩).mono ⟨'{' :: gap, ['}'], by simp⟩
  | @member _ body gap gap' _ name _ _ _ _ inside ih =>
    rw [Part.Holds, inside.bare_entry name] at hv
    exact (ih hv).mono ⟨'"' :: (body ++ '"' :: (gap ++ ':' :: gap')), [], by simp⟩
  | lastItem _ _ ih =>
    obtain ⟨w, hw, within⟩ := hv
    rw [List.mem_singleton.mp hw] at within
    exact (ih within).mono (List.prefix_append _ _).isInfix
  | @nextItem _ cs gap gap' _ _ _ _ _ _ _ ih ihs =>
    obtain ⟨w, hw, within⟩ := hv
    rcases List.mem_cons.mp hw with rfl | hw
    · exact (ih within).mono (List.prefix_append _ _).isInfix
    · exact (ihs ⟨w, hw, within⟩).mono ⟨cs ++ (gap ++ ',' :: gap'), [], by simp⟩
  | lastMember _ _ ih =>
    obtain ⟨pair, hpair, within⟩ := hv
    rw [List.mem_singleton.mp hpair] at within
    exact (ih within).mono (List.prefix_append _ _).isInfix
  | @nextMember _ cs gap gap' _ _ _ _ _ _ _ ih ihs =>
    obtain ⟨pair, hpair, within⟩ := hv
    rcases List.mem_cons.mp hpair with rfl | hpair
    · exact (ih within).mono (List.prefix_append _ _).isInfix
    · exact (ihs ⟨pair, hpair, within⟩).mono ⟨cs ++ (gap ++ ',' :: gap'), [], by simp⟩

/-- How many quotes stand in the text, without those that a backslash escapes. -/
def quoteMarks : List Char → Nat
  | [] => 0
  | '\\' :: _ :: cs => quoteMarks cs
  | c :: cs => (if c = '"' then 1 else 0) + quoteMarks cs

private theorem quoteMarks_cons (hc : c ≠ '\\') (cs : List Char) :
    quoteMarks (c :: cs) = (if c = '"' then 1 else 0) + quoteMarks cs := by
  rw [quoteMarks]
  exact fun _ _ hslash _ => hc hslash

theorem eq_nil_of_slash (h : ∀ (d : Char) (ds : List Char), c = '\\' → cs = d :: ds → False) (hc : c = '\\') :
    cs = [] := by
  cases cs with
  | nil => rfl
  | cons d ds => exact (h d ds hc rfl).elim

theorem quoteMarks_le_append (cs rest : List Char) : quoteMarks cs ≤ quoteMarks (cs ++ rest) := by
  induction cs using quoteMarks.induct with
  | case1 => exact Nat.zero_le _
  | case2 c cs ih =>
    simp only [List.cons_append, quoteMarks]
    exact ih
  | case3 c cs hslash ih =>
    by_cases hc : c = '\\'
    · rw [eq_nil_of_slash hslash hc, hc]
      exact Nat.zero_le _
    · rw [List.cons_append, quoteMarks_cons hc, quoteMarks_cons hc]
      exact Nat.add_le_add_left ih _

theorem quoteMarks_append_bracket (cs rest : List Char) :
    quoteMarks (cs ++ '[' :: rest) = quoteMarks cs + quoteMarks ('[' :: rest) := by
  induction cs using quoteMarks.induct with
  | case1 => exact (Nat.zero_add _).symm
  | case2 c cs ih => simp only [List.cons_append, quoteMarks, ih]
  | case3 c cs hslash ih =>
    by_cases hc : c = '\\'
    · rw [eq_nil_of_slash hslash hc, hc]
      simp [quoteMarks]
    · rw [List.cons_append, quoteMarks_cons hc, quoteMarks_cons hc, ih, Nat.add_assoc]

theorem quoteMarks_append_le (hcs : '\\' ∉ cs) (rest : List Char) :
    quoteMarks rest ≤ quoteMarks (cs ++ rest) := by
  induction cs with
  | nil => exact Nat.le_refl _
  | cons c cs ih =>
    obtain ⟨hc, hcs⟩ := List.ne_and_not_mem_of_not_mem_cons hcs
    rw [List.cons_append, quoteMarks_cons hc.symm]
    exact (ih hcs).trans (Nat.le_add_left _ _)

theorem slash_notMem_digits {digits : List Char} {unit : Nat} (h : IsUnit digits unit) : '\\' ∉ digits := by
  have hslash : hexValue? '\\' = none := by decide
  cases h with
  | four first second third fourth =>
    simp only [List.mem_cons, List.not_mem_nil, or_false]
    rintro (rfl | rfl | rfl | rfl) <;> simp_all

theorem quoteMarks_text_le {body : List Char} {points : List CodePoint} (h : SpellsText body points)
    (rest : List Char) : quoteMarks rest ≤ quoteMarks (body ++ rest) := by
  induction h with
  | nil => exact Nat.le_refl _
  | plain quote slash _ _ ih =>
    rw [List.cons_append, quoteMarks_cons slash]
    exact ih.trans (Nat.le_add_left _ _)
  | escape _ _ ih =>
    simp only [List.cons_append, quoteMarks]
    exact ih
  | code four _ _ ih =>
    simp only [List.cons_append, List.append_assoc, quoteMarks]
    exact ih.trans (quoteMarks_append_le (slash_notMem_digits four) _)
  | pair upper _ lower _ _ ih =>
    simp only [List.cons_append, List.append_assoc, quoteMarks]
    refine le_trans ?_ (quoteMarks_append_le (slash_notMem_digits upper) _)
    simp only [quoteMarks]
    exact ih.trans (quoteMarks_append_le (slash_notMem_digits lower) _)

private theorem slash_notMem_number (h : SpellsNumber cs v) : '\\' ∉ cs := by
  have hnumeral : ∀ c ∈ cs, Numeral c := by
    cases h with
    | int negative isWhole _ => exact numeral_withSign negative fun c hc => .inl (isWhole.digits c hc)
    | real negative isWhole digits exponent _ => exact numeral_decimal negative isWhole digits exponent
  exact fun hmem => absurd (hnumeral _ hmem) (by decide)

private theorem slash_notMem_word (h : (word, v) ∈ constants) : '\\' ∉ word.toList := by
  have hwords : ∀ w ∈ ["null", "true", "false", "NaN", "Infinity", "-Infinity"], '\\' ∉ w.toList := by
    decide
  exact hwords word (mem_words h)

private theorem quoteMarks_spaces_le {gap : List Char} (h : Spaces gap) (rest : List Char) :
    quoteMarks rest ≤ quoteMarks (gap ++ rest) :=
  quoteMarks_append_le (fun hmem => absurd (h _ hmem) (by decide)) rest

private theorem quoteMarks_mark_le (hc : c ≠ '\\') {gap : List Char} (h : Spaces gap) (rest : List Char) :
    quoteMarks rest ≤ quoteMarks (c :: (gap ++ rest)) := by
  rw [quoteMarks_cons hc]
  exact (quoteMarks_spaces_le h rest).trans (Nat.le_add_left _ _)

theorem quoteMarks_comma_le {gap gap' : List Char} (h : Spaces gap) (h' : Spaces gap') (rest : List Char) :
    quoteMarks rest ≤ quoteMarks (gap ++ ',' :: (gap' ++ rest)) :=
  (quoteMarks_mark_le (by decide) h' rest).trans (quoteMarks_spaces_le h _)

private theorem quoteMarks_quote (cs : List Char) : quoteMarks ('"' :: cs) = 1 + quoteMarks cs :=
  quoteMarks_cons (by decide) cs

private theorem textCount_word (h : (word, v) ∈ constants) : v.textCount = 0 := by
  simp only [constants, List.mem_cons, Prod.mk.injEq, List.not_mem_nil, or_false] at h
  rcases h with ⟨-, rfl⟩ | ⟨-, rfl⟩ | ⟨-, rfl⟩ | ⟨-, rfl⟩ | ⟨-, rfl⟩ | ⟨-, rfl⟩ <;> rfl

private theorem textCount_number (h : SpellsNumber cs v) : v.textCount = 0 := by
  cases h <;> rfl

private theorem textCount_ofPoints (points : List CodePoint) : (Value.ofPoints points).textCount = 1 := by
  unfold Value.ofPoints
  split <;> rfl

private theorem textCount_entry (name : List CodePoint) (v : Value) :
    (Fields.entry name v).2.textCount = v.textCount := by
  unfold Fields.entry
  dsimp only
  split <;> rfl

def Part.textCount : Part → Nat
  | .value v => v.textCount
  | .member field => 1 + field.2.textCount
  | .items vs => Value.textCountAll vs
  | .members pairs => Value.textCountFields pairs

private theorem Spells.textCount_le {part : Part} (h : Spells levels cs part) (rest : List Char) :
    2 * part.textCount + quoteMarks rest ≤ quoteMarks (cs ++ rest) := by
  -- Quotes cannot be counted piece by piece, as a backslash reaches into what follows: hence the rest.
  induction h generalizing rest with
  | @text _ body _ inside =>
    have hbody := quoteMarks_text_le inside ('"' :: rest)
    rw [quoteMarks_quote] at hbody
    simp only [List.cons_append, List.append_assoc, List.nil_append, quoteMarks_quote, Part.textCount,
      textCount_ofPoints]
    omega
  | word known =>
    rw [Part.textCount, textCount_word known, Nat.mul_zero, Nat.zero_add]
    exact quoteMarks_append_le (slash_notMem_word known) rest
  | number spelt =>
    rw [Part.textCount, textCount_number spelt, Nat.mul_zero, Nat.zero_add]
    exact quoteMarks_append_le (slash_notMem_number spelt) rest
  | @emptyList _ gap blank =>
    have hmark := quoteMarks_mark_le (show '[' ≠ '\\' by decide) blank (']' :: rest)
    have hclose := quoteMarks_mark_le (show ']' ≠ '\\' by decide) spaces_nil rest
    simp only [List.cons_append, List.append_assoc, List.nil_append, Part.textCount, Value.textCount,
      Value.textCountAll] at hmark hclose ⊢
    omega
  | @emptyRecord _ gap blank =>
    have hmark := quoteMarks_mark_le (show '{' ≠ '\\' by decide) blank ('}' :: rest)
    have hclose := quoteMarks_mark_le (show '}' ≠ '\\' by decide) spaces_nil rest
    simp only [List.cons_append, List.append_assoc, List.nil_append, Part.textCount, Value.textCount,
      Value.textCountFields] at hmark hclose ⊢
    omega
  | @list _ gap cs _ blank inside ih =>
    have hmark := quoteMarks_mark_le (show '[' ≠ '\\' by decide) blank (cs ++ ']' :: rest)
    have hinside := ih (']' :: rest)
    have hclose := quoteMarks_mark_le (show ']' ≠ '\\' by decide) spaces_nil rest
    simp only [List.cons_append, List.append_assoc, List.nil_append, Part.textCount,
      Value.textCount] at hmark hinside hclose ⊢
    omega
  | @record _ gap cs pairs blank inside ih =>
    have hmark := quoteMarks_mark_le (show '{' ≠ '\\' by decide) blank (cs ++ '}' :: rest)
    have hinside := ih ('}' :: rest)
    have hclose := quoteMarks_mark_le (show '}' ≠ '\\' by decide) spaces_nil rest
    have hpairs := Value.textCountFields_ofPairs_le pairs
    simp only [List.cons_append, List.append_assoc, List.nil_append, Part.textCount,
      Value.textCount] at hmark hinside hclose ⊢
    omega
  | @member _ body gap gap' cs _ _ named blank blank' inside ih =>
    have hname := quoteMarks_text_le named ('"' :: (gap ++ ':' :: (gap' ++ (cs ++ rest))))
    have hgap := quoteMarks_spaces_le blank (':' :: (gap' ++ (cs ++ rest)))
    have hmark := quoteMarks_mark_le (show ':' ≠ '\\' by decide) blank' (cs ++ rest)
    have hinside := ih rest
    rw [quoteMarks_quote] at hname
    simp only [List.cons_append, List.append_assoc, quoteMarks_quote, Part.textCount,
      textCount_entry] at hinside ⊢
    omega
  | @lastItem _ cs gap _ item blank ih =>
    have hgap := quoteMarks_spaces_le blank rest
    have hitem := ih (gap ++ rest)
    simp only [List.append_assoc, Part.textCount, Value.textCountAll] at hitem ⊢
    omega
  | @nextItem _ cs gap gap' ds _ _ item blank blank' others ih ihs =>
    have hitem := ih (gap ++ ',' :: (gap' ++ (ds ++ rest)))
    have hcomma := quoteMarks_comma_le blank blank' (ds ++ rest)
    have hothers := ihs rest
    simp only [List.append_assoc, List.cons_append, Part.textCount, Value.textCountAll] at hitem hothers ⊢
    omega
  | @lastMember _ cs gap _ item blank ih =>
    have hgap := quoteMarks_spaces_le blank rest
    have hitem := ih (gap ++ rest)
    simp only [List.append_assoc, Part.textCount, Value.textCountFields] at hitem ⊢
    omega
  | @nextMember _ cs gap gap' ds _ _ item blank blank' others ih ihs =>
    have hitem := ih (gap ++ ',' :: (gap' ++ (ds ++ rest)))
    have hcomma := quoteMarks_comma_le blank blank' (ds ++ rest)
    have hothers := ihs rest
    simp only [List.append_assoc, List.cons_append, Part.textCount, Value.textCountFields] at hitem hothers ⊢
    omega

theorem textCount_le_of_read {s : String} (h : read s = .ok v) : 2 * v.textCount ≤ quoteMarks s.toList := by
  obtain ⟨gap, cs, gap', hgap, -, hs, hspells⟩ := exists_spells_of_read h
  rw [hs]
  calc 2 * v.textCount ≤ 2 * v.textCount + quoteMarks gap' := Nat.le_add_right _ _
    _ ≤ quoteMarks (cs ++ gap') := hspells.textCount_le gap'
    _ ≤ quoteMarks (gap ++ (cs ++ gap')) := quoteMarks_spaces_le hgap _

end Json

end ThreatAtlas
