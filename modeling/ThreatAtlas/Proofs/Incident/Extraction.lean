import ThreatAtlas.Incident.Extraction
import ThreatAtlas.Proofs.Json.Inside

/-!
# What is found in prose

A list is looked for as a stretch of text: a bracket and a brace, anything, a brace and a bracket. Of all the
stretches in a text the one that starts first and ends last counts. A list of records is such a stretch, so
it is found in prose that has no bracket on the wrong side of it. But an object that holds a list of records
has a stretch too, and then the list is found instead of the object.
-/

namespace ThreatAtlas.Incident

/-! ### Stretches -/

def Blanks (gap : List Char) : Prop :=
  ∀ c ∈ gap, Text.isBlank c = true

/-- From a bracket and a brace to a brace and a bracket, the brackets with blanks inside. -/
inductive Stretch : List Char → Prop where
  | mk {gap mid gap' : List Char} (before : Blanks gap) (after : Blanks gap') :
      Stretch ('[' :: (gap ++ '{' :: (mid ++ '}' :: (gap' ++ [']']))))

variable {c : Char} {gap rest cs : List Char} {fields : Fields} {levels : Nat} {document : String}

private theorem takeWhile_blanks (hgap : Blanks gap) (hc : Text.isBlank c = false) :
    (gap ++ c :: rest).takeWhile Text.isBlank = gap := by
  rw [List.takeWhile_append_of_pos hgap, List.takeWhile_cons_of_neg (by simp [hc]), List.append_nil]

private theorem dropWhile_blanks (hgap : Blanks gap) (hc : Text.isBlank c = false) :
    (gap ++ c :: rest).dropWhile Text.isBlank = c :: rest := by
  rw [List.dropWhile_append_of_pos hgap, List.dropWhile_cons_of_neg (by simp [hc])]

private theorem exists_blanks (h : cs.dropWhile Text.isBlank = rest) :
    Blanks (cs.takeWhile Text.isBlank) ∧ cs = cs.takeWhile Text.isBlank ++ rest :=
  ⟨fun _ hc => List.mem_takeWhile_imp hc, by rw [← h, List.takeWhile_append_dropWhile]⟩

private theorem closeArray_eq_some_iff {found : List Char} : closeArray cs = some found ↔
      ∃ gap rest, Blanks gap ∧ cs = '}' :: (gap ++ ']' :: rest) ∧ found = '}' :: (gap ++ [']']) := by
  constructor
  · intro h
    unfold closeArray at h
    split at h
    case h_2 => cases h
    case h_1 cs =>
      split at h
      case h_2 => cases h
      case h_1 rest hrest =>
        cases h
        obtain ⟨hgap, hcs⟩ := exists_blanks hrest
        exact ⟨_, rest, hgap, by rw [← hcs], rfl⟩
  · rintro ⟨gap, rest, hgap, rfl, rfl⟩
    simp only [closeArray, dropWhile_blanks hgap (show Text.isBlank ']' = false by decide),
      takeWhile_blanks hgap (show Text.isBlank ']' = false by decide), List.cons_append]

private theorem upToLast_eq_none_iff {closing : List Char → Option (List Char)} (hnil : closing [] = none) :
    upToLast closing cs = none ↔ ∀ tail, tail <:+ cs → closing tail = none := by
  induction cs with
  | nil => simp [upToLast, hnil]
  | cons c cs ih =>
    rw [upToLast]
    cases hrest : upToLast closing cs with
    | some rest =>
      rw [hrest] at ih
      simp only [reduceCtorEq, false_iff] at ih ⊢
      exact fun hall => ih fun tail htail => hall tail (htail.trans (List.suffix_cons c cs))
    | none =>
      have hnone := ih.mp hrest
      constructor
      · intro hc tail htail
        rcases List.suffix_cons_iff.mp htail with rfl | htail
        · exact hc
        · exact hnone tail htail
      · exact fun hall => hall _ (List.suffix_refl _)

private theorem upToLast_eq_some {closing : List Char → Option (List Char)} (hnil : closing [] = none)
    {found : List Char} (h : upToLast closing cs = some found) :
    ∃ before tail taken, cs = before ++ tail ∧ closing tail = some taken ∧ found = before ++ taken ∧
      ∀ tail', tail' <:+ cs → closing tail' ≠ none → tail.length ≤ tail'.length := by
  induction cs generalizing found with
  | nil => cases h
  | cons c cs ih =>
    rw [upToLast] at h
    cases hrest : upToLast closing cs with
    | some rest =>
      rw [hrest] at h
      cases h
      obtain ⟨before, tail, taken, rfl, htail, rfl, hleast⟩ := ih hrest
      refine ⟨c :: before, tail, taken, rfl, htail, rfl, fun tail' htail' hclosing => ?_⟩
      rcases List.suffix_cons_iff.mp htail' with rfl | htail'
      · simp only [List.length_cons, List.length_append]
        omega
      · exact hleast tail' htail' hclosing
    | none =>
      rw [hrest] at h
      refine ⟨[], c :: cs, found, rfl, h, rfl, fun tail' htail' hclosing => ?_⟩
      rcases List.suffix_cons_iff.mp htail' with rfl | htail'
      · exact Nat.le_refl _
      · exact absurd ((upToLast_eq_none_iff hnil).mp hrest tail' htail') hclosing

private theorem notMem_blanks (h : Blanks gap) (hc : Text.isBlank c = false) : c ∉ gap :=
  fun hmem => Bool.false_ne_true (hc.symm.trans (h c hmem))

private theorem suffix_of_brace {p more : List Char} (hgap : Blanks gap)
    (h : '[' :: (gap ++ '{' :: rest) = p ++ '{' :: more) : more <:+ rest := by
  have hbrace : '{' ∉ '[' :: gap := by simp [notMem_blanks hgap (show Text.isBlank '{' = false by decide)]
  rw [← List.cons_append] at h
  rcases List.append_eq_append_iff.mp h with ⟨a, -, ha⟩ | ⟨a, hp, ha⟩
  · cases a with
    | nil =>
      cases ha
      exact List.suffix_refl _
    | cons c a =>
      cases ha
      exact ⟨a ++ ['{'], by simp⟩
  · cases a with
    | nil =>
      cases ha
      exact List.suffix_refl _
    | cons c a =>
      cases ha
      exact absurd (by rw [hp]; simp) hbrace

theorem length_le_of_closings {gap' after after' : List Char} (hgap : Blanks gap) (hgap' : Blanks gap')
    (h : '}' :: (gap ++ ']' :: after) <:+ '}' :: (gap' ++ ']' :: after')) : after.length ≤ after'.length := by
  have hbracket : Text.isBlank ']' = false := by decide
  rcases List.suffix_cons_iff.mp h with heq | ⟨x, hx⟩
  · have hdrop := congrArg (List.dropWhile Text.isBlank) (List.cons.inj heq).2
    rw [dropWhile_blanks hgap hbracket, dropWhile_blanks hgap' hbracket] at hdrop
    rw [(List.cons.inj hdrop).2]
  · rcases List.append_eq_append_iff.mp hx with ⟨a, hgap'', ha⟩ | ⟨a, -, ha⟩
    · cases a with
      | nil => cases ha
      | cons c a =>
        obtain ⟨rfl, -⟩ := List.cons.inj ha
        exact absurd (by rw [hgap'']; simp) (notMem_blanks hgap' (show Text.isBlank '}' = false by decide))
    · cases a with
      | nil => cases ha
      | cons c a =>
        rw [List.cons_append, List.cons.injEq] at ha
        rw [ha.2]
        simp only [List.length_append, List.length_cons]
        omega

/-! ### The stretch that counts -/

/-- Of all the stretches in the text, this one starts first and ends last. -/
def Spans (found cs : List Char) : Prop :=
  ∃ before after, cs = before ++ (found ++ after) ∧ Stretch found ∧
    ∀ before' other after', cs = before' ++ (other ++ after') → Stretch other →
      before.length ≤ before'.length ∧ after.length ≤ after'.length

private theorem spans_cons {found : List Char} (h : Spans found cs)
    (hnone : ∀ other, other <+: c :: cs → ¬ Stretch other) : Spans found (c :: cs) := by
  obtain ⟨before, after, rfl, hfound, hleast⟩ := h
  refine ⟨c :: before, after, rfl, hfound, fun before' other after' hcs hother => ?_⟩
  cases before' with
  | nil => exact absurd hother (hnone other ⟨after', hcs.symm⟩)
  | cons d before' =>
    obtain ⟨hbefore, hafter⟩ := hleast before' other after' (List.cons.inj hcs).2 hother
    exact ⟨Nat.succ_le_succ hbefore, hafter⟩

theorem spans_start {found : List Char} (hgap : Blanks gap) (h : upToLast closeArray rest = some found) :
    Spans ('[' :: (gap ++ '{' :: found)) ('[' :: (gap ++ '{' :: rest)) := by
  obtain ⟨mid, tail, taken, rfl, hclose, rfl, hleast⟩ := upToLast_eq_some rfl h
  obtain ⟨gap', after, hgap', rfl, rfl⟩ := closeArray_eq_some_iff.mp hclose
  refine ⟨[], after, by simp, .mk hgap hgap', fun before' other after' hcs hother => ⟨Nat.zero_le _, ?_⟩⟩
  obtain @⟨gap₁, mid₁, gap₂, hgap₁, hgap₂⟩ := hother
  have hsuffix : mid₁ ++ '}' :: (gap₂ ++ ']' :: after') <:+ mid ++ '}' :: (gap' ++ ']' :: after) :=
    suffix_of_brace (p := before' ++ '[' :: gap₁) hgap (by rw [hcs]; simp)
  -- Where the other one closes, the scanner could have closed too, and it took the last such place.
  have htail := (List.suffix_append mid₁ _).trans hsuffix
  have hlength := hleast _ htail (by simp [closeArray_eq_some_iff.mpr ⟨gap₂, after', hgap₂, rfl, rfl⟩])
  exact length_le_of_closings hgap' hgap₂
    (List.suffix_of_suffix_length_le (List.suffix_append mid _) htail hlength)

private theorem findArray_cons (c : Char) (cs : List Char) :
    (∃ gap rest found, Blanks gap ∧ c = '[' ∧ cs = gap ++ '{' :: rest ∧
        upToLast closeArray rest = some found ∧
        findArray (c :: cs) = some ('[' :: (gap ++ '{' :: found))) ∨
      ((∀ other, other <+: c :: cs → ¬ Stretch other) ∧ findArray (c :: cs) = findArray cs) := by
  have hstart : ∀ other, other <+: c :: cs → Stretch other → c = '[' ∧ ∃ rest,
      cs.dropWhile Text.isBlank = '{' :: rest ∧ upToLast closeArray rest ≠ none := by
    rintro other ⟨after, hafter⟩ @⟨gap, mid, gap', hgap, hgap'⟩
    cases hafter
    refine ⟨rfl, mid ++ '}' :: (gap' ++ ']' :: after), ?_, fun hnone => ?_⟩
    · simpa using dropWhile_blanks hgap (show Text.isBlank '{' = false by decide)
    · have := (upToLast_eq_none_iff rfl).mp hnone _ (List.suffix_append mid _)
      rw [closeArray_eq_some_iff.mpr ⟨gap', after, hgap', rfl, rfl⟩] at this
      cases this
  by_cases hc : c = '['
  case neg =>
    have hrest : findArray (c :: cs) = findArray cs := by
      rw [findArray]
      exact hc
    exact .inr ⟨fun other hstarts hother => hc (hstart other hstarts hother).1, hrest⟩
  case pos =>
    subst hc
    rw [findArray]
    split
    case h_1 rest hrest =>
      obtain ⟨hgap, hcs⟩ := exists_blanks hrest
      split
      case h_1 found hfound => exact .inl ⟨_, rest, found, hgap, rfl, hcs, hfound, rfl⟩
      case h_2 hnone =>
        refine .inr ⟨fun other hstarts hother => ?_, rfl⟩
        obtain ⟨-, rest', hrest', hsome⟩ := hstart other hstarts hother
        rw [hrest] at hrest'
        cases hrest'
        exact hsome hnone
    case h_2 hother =>
      refine .inr ⟨fun other hstarts hstretch => ?_, rfl⟩
      obtain ⟨-, rest, hrest, -⟩ := hstart other hstarts hstretch
      exact hother rest hrest

private theorem spans_of_findArray {found : List Char} (h : findArray cs = some found) : Spans found cs := by
  induction cs with
  | nil => cases h
  | cons c cs ih =>
    rcases findArray_cons c cs with ⟨gap, rest, found', hgap, rfl, rfl, hclose, hfind⟩ | ⟨hnone, hfind⟩
    · rw [hfind] at h
      cases h
      exact spans_start hgap hclose
    · exact spans_cons (ih (hfind.symm.trans h)) hnone

private theorem Spans.unique {found found' : List Char} (h : Spans found cs) (h' : Spans found' cs) :
    found = found' := by
  obtain ⟨before, after, hcs, hfound, hleast⟩ := h
  obtain ⟨before', after', hcs', hfound', hleast'⟩ := h'
  obtain ⟨hbefore, hafter⟩ := hleast before' found' after' hcs' hfound'
  obtain ⟨hbefore', hafter'⟩ := hleast' before found after hcs hfound
  have hrest := (List.append_inj (hcs.symm.trans hcs') (Nat.le_antisymm hbefore hbefore')).2
  exact (List.append_inj' hrest (Nat.le_antisymm hafter hafter')).1

private theorem findArray_eq_none_iff : findArray cs = none ↔ ∀ found, found <:+: cs → ¬ Stretch found := by
  constructor
  · intro h
    induction cs with
    | nil =>
      rintro found hpart ⟨⟩
      cases List.infix_nil.mp hpart
    | cons c cs ih =>
      rcases findArray_cons c cs with ⟨gap, rest, found, -, -, -, -, hfind⟩ | ⟨hnone, hfind⟩
      · rw [hfind] at h
        cases h
      · intro found hpart
        rcases List.infix_cons_iff.mp hpart with hstarts | hpart
        · exact hnone found hstarts
        · exact ih (hfind.symm.trans h) found hpart
  · intro hnone
    rw [Option.eq_none_iff_forall_ne_some]
    intro found h
    obtain ⟨before, after, hcs, hfound, -⟩ := spans_of_findArray h
    exact hnone found ⟨before, after, by rw [hcs, List.append_assoc]⟩ hfound

private theorem findArray_eq_some_iff {found : List Char} : findArray cs = some found ↔ Spans found cs := by
  refine ⟨spans_of_findArray, fun h => ?_⟩
  cases hfind : findArray cs with
  | none =>
    obtain ⟨before, after, hcs, hfound, -⟩ := h
    exact absurd hfound (findArray_eq_none_iff.mp hfind found ⟨before, after, by rw [hcs, List.append_assoc]⟩)
  | some found' => rw [(spans_of_findArray hfind).unique h]

private theorem Spans.stretch {found : List Char} (h : Spans found cs) : found <:+: cs ∧ Stretch found := by
  obtain ⟨before, after, rfl, hfound, -⟩ := h
  exact ⟨⟨before, after, List.append_assoc _ _ _⟩, hfound⟩

private theorem exists_spans {other : List Char} (hpart : other <:+: cs) (h : Stretch other) :
    ∃ found, Spans found cs := by
  cases hfind : findArray cs with
  | none => exact absurd h (findArray_eq_none_iff.mp hfind other hpart)
  | some found => exact ⟨found, findArray_eq_some_iff.mp hfind⟩

private theorem prefix_of_notMem {p x b y : List Char} (hc : c ∉ p) (h : p ++ x = b ++ c :: y) : p <+: b := by
  rcases List.append_eq_append_iff.mp h with ⟨a, rfl, -⟩ | ⟨a, rfl, ha⟩
  · exact List.prefix_append p a
  · cases a with
    | nil =>
      rw [List.append_nil]
    | cons d a =>
      obtain ⟨rfl, -⟩ := List.cons.inj ha
      exact absurd (by simp) hc

private theorem suffix_of_notMem {p x b y : List Char} (hc : c ∉ p) (h : x ++ p = y ++ c :: b) : p <:+ b := by
  rw [← List.reverse_prefix]
  refine prefix_of_notMem (c := c) (x := x.reverse) (y := y.reverse) (by simpa using hc) ?_
  simpa using congrArg List.reverse h

theorem spans_of_notMem {before found after : List Char} (hfound : Stretch found) (hbefore : '[' ∉ before)
    (hafter : ']' ∉ after) : Spans found (before ++ (found ++ after)) := by
  refine ⟨before, after, rfl, hfound, ?_⟩
  rintro before' other after' hcs @⟨gap, mid, gap', -, -⟩
  constructor
  · exact (prefix_of_notMem hbefore hcs).length_le
  · refine (suffix_of_notMem (x := before ++ found)
      (y := before' ++ '[' :: (gap ++ '{' :: (mid ++ '}' :: gap'))) hafter ?_).length_le
    simpa using hcs

/-! ### Lists of records -/

private theorem blanks_of_spaces (h : Json.Spaces gap) : Blanks gap := by
  intro c hc
  have hspace := h c hc
  simp only [Json.isSpace, Bool.or_eq_true, beq_iff_eq] at hspace
  rcases hspace with ((rfl | rfl) | rfl) | rfl <;> decide

private theorem notMem_spaces (h : Json.Spaces gap) (hc : Json.isSpace c = false) : c ∉ gap :=
  fun hmem => Bool.false_ne_true (hc.symm.trans (h c hmem))

private theorem record_spelt (h : Json.Spells levels cs (.value (.record fields))) :
    (∃ gap, Json.Spaces gap ∧ cs = '{' :: (gap ++ ['}'])) ∨
      ∃ levels gap members pairs, Json.Spaces gap ∧ Json.Spells levels members (.members pairs) ∧
        cs = '{' :: (gap ++ (members ++ ['}'])) := by
  generalize hpart : Json.Part.value (.record fields) = part at h
  cases h with
  | @text _ _ points _ =>
    cases congrArg Value.kind (Json.Part.value.inj hpart) |>.trans (Value.kind_ofPoints points)
  | word known =>
    cases hpart
    simp [Json.constants] at known
  | number spelt =>
    cases hpart
    cases spelt
  | emptyRecord blank => exact .inl ⟨_, blank, rfl⟩
  | record blank inside => exact .inr ⟨_, _, _, _, blank, inside, rfl⟩
  | _ => cases hpart

private theorem record_braces (h : Json.Spells levels cs (.value (.record fields))) :
    ∃ mid, cs = '{' :: (mid ++ ['}']) := by
  rcases record_spelt h with ⟨gap, -, rfl⟩ | ⟨_, gap, members, _, -, -, rfl⟩
  · exact ⟨gap, rfl⟩
  · exact ⟨gap ++ members, by simp⟩

private theorem items_start {vs : List Value} (h : Json.Spells levels cs (.items vs))
    (hhead : vs.head? = some (.record fields)) : ∃ rest, cs = '{' :: rest := by
  cases h with
  | lastItem item _ =>
    cases hhead
    obtain ⟨mid, rfl⟩ := record_braces item
    exact ⟨_, rfl⟩
  | nextItem item _ _ _ =>
    cases hhead
    obtain ⟨mid, rfl⟩ := record_braces item
    exact ⟨_, rfl⟩

private theorem items_end {vs : List Value} (h : Json.Spells levels cs (.items vs))
    (hlast : vs.getLast? = some (.record fields)) :
    ∃ init gap, Json.Spaces gap ∧ cs = init ++ '}' :: gap := by
  induction vs generalizing cs with
  | nil => cases hlast
  | cons v vs ih =>
    cases h with
    | @lastItem _ cs gap _ item blank =>
      cases hlast
      obtain ⟨mid, rfl⟩ := record_braces item
      exact ⟨'{' :: mid, gap, blank, by simp⟩
    | @nextItem _ cs gap gap' ds _ _ _ _ _ others =>
      cases vs with
      | nil => cases others
      | cons w vs =>
        rw [List.getLast?_cons_cons] at hlast
        obtain ⟨init, gap'', hgap, rfl⟩ := ih others hlast
        exact ⟨cs ++ (gap ++ ',' :: (gap' ++ init)), gap'', hgap, by simp⟩

private theorem stretch_of_spells {items : List Value} {first last : Fields}
    (h : Json.Spells levels cs (.value (.list items))) (hhead : items.head? = some (.record first))
    (hlast : items.getLast? = some (.record last)) : Stretch cs := by
  generalize hpart : Json.Part.value (.list items) = part at h
  cases h with
  | @text _ _ points _ =>
    cases congrArg Value.kind (Json.Part.value.inj hpart) |>.trans (Value.kind_ofPoints points)
  | word known =>
    cases hpart
    simp [Json.constants] at known
  | number spelt =>
    cases hpart
    cases spelt
  | emptyList _ =>
    cases hpart
    cases hhead
  | list blank inside =>
    cases hpart
    obtain ⟨rest, rfl⟩ := items_start inside hhead
    obtain ⟨init, gap, hgap, heq⟩ := items_end inside hlast
    cases init with
    | nil => cases heq
    | cons c mid =>
      cases heq
      simpa using @Stretch.mk _ mid _ (blanks_of_spaces blank) (blanks_of_spaces hgap)
  | _ => cases hpart

private theorem parse?_of_spells {v : Value} (h : Json.Spells Json.nestingLimit cs (.value v)) :
    parse? cs = some v := by
  have hread : Json.read (String.ofList cs) = .ok v :=
    Json.read_of_spells Json.spaces_nil Json.spaces_nil (by simp) h
  rw [parse?, hread]
  rfl

/-! ### Objects -/

private theorem upToLast_closeObject {after : List Char} (h : '}' ∉ after) (mid : List Char) :
    upToLast closeObject (mid ++ '}' :: after) = some (mid ++ ['}']) := by
  induction mid with
  | nil =>
    have hnone : upToLast closeObject after = none := by
      refine (upToLast_eq_none_iff rfl).mpr fun tail htail => ?_
      unfold closeObject
      split
      · exact absurd (htail.subset (by simp)) h
      · rfl
    rw [List.nil_append, upToLast, hnone]
    rfl
  | cons c mid ih =>
    rw [List.cons_append, upToLast, ih]
    rfl

theorem findObject_append {before mid after : List Char} (hbefore : '{' ∉ before) (hafter : '}' ∉ after) :
    findObject (before ++ '{' :: (mid ++ '}' :: after)) = some ('{' :: (mid ++ ['}'])) := by
  induction before with
  | nil => rw [List.nil_append, findObject, upToLast_closeObject hafter]
  | cons c before ih =>
    obtain ⟨hc, hbefore⟩ := List.ne_and_not_mem_of_not_mem_cons hbefore
    rw [List.cons_append, findObject, ih hbefore]
    exact fun h => hc h.symm

private theorem extract_of_no_stretch (hread : Json.read document = .ok (.record fields))
    (hnone : ∀ found, found <:+: document.toList → ¬ Stretch found) :
    extract document = some (.list [.record fields]) := by
  obtain ⟨gap, cs, gap', hgap, hgap', hdocument, hspells⟩ := Json.exists_spells_of_read hread
  obtain ⟨mid, rfl⟩ := record_braces hspells
  have hobject : findObject document.toList = some ('{' :: (mid ++ ['}'])) := by
    rw [hdocument]
    simpa using @findObject_append _ mid _ (notMem_spaces hgap (show Json.isSpace '{' = false by decide))
      (notMem_spaces hgap' (show Json.isSpace '}' = false by decide))
  rw [extract, findArray_eq_none_iff.mpr hnone]
  dsimp only
  rw [hobject]
  dsimp only
  rw [parse?_of_spells hspells]
  rfl

private theorem extract_of_spans {text : String} {found : List Char} (h : Spans found text.toList) :
    extract text = (Json.read (String.ofList found)).toOption := by
  rw [extract, findArray_eq_some_iff.mpr h]
  rfl

theorem exists_quote (hread : Json.read document = .ok (.record fields)) (hbracket : '[' ∈ document.toList) :
    ∃ before rest, '[' ∉ before ∧ '\\' ∉ before ∧ document.toList = before ++ '"' :: rest := by
  obtain ⟨gap, cs, gap', hgap, hgap', hdocument, hspells⟩ := Json.exists_spells_of_read hread
  have hspaces (c : Char) (hc : Json.isSpace c = false) : ∀ gap, Json.Spaces gap → c ∉ gap :=
    fun _ h => notMem_spaces h hc
  have hopen := hspaces '[' (by decide)
  have hslash := hspaces '\\' (by decide)
  rw [hdocument] at hbracket ⊢
  rcases record_spelt hspells with ⟨inner, blank, rfl⟩ | ⟨_, inner, members, _, blank, inside, rfl⟩
  · simp [hopen _ hgap, hopen _ hgap', hopen _ blank] at hbracket
  · obtain ⟨c, more, rfl, rfl⟩ := inside.begins
    exact ⟨gap ++ '{' :: inner, more ++ '}' :: gap', by simp [hopen _ hgap, hopen _ blank],
      by simp [hslash _ hgap, hslash _ blank], by simp⟩

theorem quoteMarks_lt_of_stretch (hread : Json.read document = .ok (.record fields)) {found : List Char}
    (hpart : found <:+: document.toList) (hfound : Stretch found) :
    Json.quoteMarks found < Json.quoteMarks document.toList := by
  obtain ⟨rest, hrest⟩ : ∃ rest, found = '[' :: rest := by
    cases hfound
    exact ⟨_, rfl⟩
  obtain ⟨before, more, hopen, hslash, hdocument⟩ :=
    exists_quote hread (hpart.subset (by rw [hrest]; simp))
  obtain ⟨b, a, hpart⟩ := hpart
  have hsplit : before ++ ['"'] ++ more = b ++ '[' :: (rest ++ a) := by
    rw [hrest] at hpart
    simpa [hdocument] using hpart.symm
  obtain ⟨b', rfl⟩ := prefix_of_notMem (by simpa using hopen) hsplit
  have hquote : 1 ≤ Json.quoteMarks (before ++ ['"'] ++ b') :=
    calc 1 = Json.quoteMarks ['"'] := by simp [Json.quoteMarks]
      _ ≤ Json.quoteMarks (before ++ ['"']) := Json.quoteMarks_append_le hslash _
      _ ≤ Json.quoteMarks (before ++ ['"'] ++ b') := Json.quoteMarks_le_append _ _
  have hle : Json.quoteMarks found ≤ Json.quoteMarks ('[' :: (rest ++ a)) := by
    rw [hrest, ← List.cons_append]
    exact Json.quoteMarks_le_append _ _
  have hall : Json.quoteMarks document.toList =
      Json.quoteMarks (before ++ ['"'] ++ b') + Json.quoteMarks ('[' :: (rest ++ a)) := by
    rw [← Json.quoteMarks_append_bracket, ← hsplit, hdocument]
    simp
  omega

/-! ### Documents -/

section

attribute [local simp] Json.read Json.readValue Json.readItems Json.readMembers Json.readText
  Json.simpleEscape? Json.Cursor.skipSpace Json.Cursor.drop Json.isSpace Json.readConstant? Json.constants
  Json.readNumber Json.readWhole Json.readFraction Json.readExponent Json.digitsValue Json.nestingLimit
  Number.digitLimit Fields.ofPairs Fields.set Fields.entry Value.ofPoints CodePoint.text CodePoint.shown
  CodePoint.isHalf

/-- A list of records is found in prose that has no opening bracket before it and no closing one behind. -/
theorem extract_list_in_prose {before document after : String} {items : List Value}
    (hread : Json.read document = .ok (.list items)) (hne : items ≠ [])
    (hrecords : ∀ v ∈ items, ∃ fields, v = .record fields) (hbefore : '[' ∉ before.toList)
    (hafter : ']' ∉ after.toList) :
    extract (before ++ document ++ after) = some (.list items) := by
  obtain ⟨gap, cs, gap', hgap, hgap', hdocument, hspells⟩ := Json.exists_spells_of_read hread
  obtain ⟨first, hfirst⟩ := hrecords _ (List.head_mem hne)
  obtain ⟨last, hlast⟩ := hrecords _ (List.getLast_mem hne)
  have hstretch : Stretch cs := stretch_of_spells hspells
    (by rw [List.head?_eq_some_head hne, hfirst]) (by rw [List.getLast?_eq_some_getLast hne, hlast])
  have htext : (before ++ document ++ after).toList =
      (before.toList ++ gap) ++ (cs ++ (gap' ++ after.toList)) := by
    simp [hdocument]
  have hspans : Spans cs (before ++ document ++ after).toList := by
    rw [htext]
    refine spans_of_notMem hstretch ?_ ?_
    · simp [hbefore, notMem_spaces hgap (show Json.isSpace '[' = false by decide)]
    · simp [hafter, notMem_spaces hgap' (show Json.isSpace ']' = false by decide)]
  rw [extract, findArray_eq_some_iff.mpr hspans]
  exact parse?_of_spells hspells

/-- Brackets in its texts and braces around it do not hide a list. -/
theorem extract_list_in_prose_brackets :
    extract ("Here: \x7d " ++ "[\x7b\"title\": \"[\x7b\\\"\x7d] ]\", \"attack_flow\": [1]\x7d]" ++
        " \x7bend\x7d [") =
      some (.list [.record [("title", .text "[\x7b\"\x7d] ]"), ("attack_flow", .list [.int 1])]]) := by
  refine extract_list_in_prose ?_ (by simp) ?_ (by decide) (by decide)
  · simp [bind, Except.bind, pure, Except.pure]
  · intro v hv
    rw [List.mem_singleton.mp hv]
    exact ⟨_, rfl⟩

/-- An object is taken whole where no bracket and brace stand before a brace and bracket in it. Otherwise
the text from the first to the last of them is taken instead, and what that reads as is something else,
unless a field of the object was given twice. -/
theorem extract_object_iff_no_stretch {document : String} {fields : Fields}
    (hread : Json.read document = .ok (.record fields)) :
    (extract document = some (.list [.record fields]) ↔
      ∀ found, Spans found document.toList →
        Json.read (String.ofList found) = .ok (.list [.record fields])) ∧
    (∀ found, Spans found document.toList →
      extract document = (Json.read (String.ofList found)).toOption) ∧
    (Json.quoteMarks document.toList = 2 * (Value.record fields).textCount →
      (extract document = some (.list [.record fields]) ↔
        ∀ found, found <:+: document.toList → ¬ Stretch found)) ∧
    (∀ items first last, (Value.list items).Within (.record fields) →
      items.head? = some (.record first) → items.getLast? = some (.record last) →
      ∃ found, Spans found document.toList) := by
  have hwhole : extract document = some (.list [.record fields]) ↔
      ∀ found, Spans found document.toList →
        Json.read (String.ofList found) = .ok (.list [.record fields]) := by
    constructor
    · intro h found hspans
      rw [extract_of_spans hspans] at h
      exact toOption_eq_some_iff.mp h
    · intro h
      cases hfind : findArray document.toList with
      | none => exact extract_of_no_stretch hread (findArray_eq_none_iff.mp hfind)
      | some found =>
        have hspans := findArray_eq_some_iff.mp hfind
        rw [extract_of_spans hspans]
        exact toOption_eq_some_iff.mpr (h found hspans)
  refine ⟨hwhole, fun found => extract_of_spans, fun hquotes => ⟨?_, extract_of_no_stretch hread⟩,
    fun items first last hwithin hhead hlast => ?_⟩
  · -- A stretch that reads as the whole object would need as many quotes as the document has.
    intro h other hpart hother
    obtain ⟨found, hspans⟩ := exists_spans hpart hother
    have hcount := Json.textCount_le_of_read (hwhole.mp h found hspans)
    have hfewer := quoteMarks_lt_of_stretch hread hspans.stretch.1 hspans.stretch.2
    rw [Value.textCount, Value.textCountAll, Value.textCountAll, String.toList_ofList] at hcount
    omega
  · obtain ⟨gap, cs, gap', -, -, hdocument, hspells⟩ := Json.exists_spells_of_read hread
    obtain ⟨ds, levels, hpart, hlist⟩ := hspells.speltIn_of_holds hwithin
    refine exists_spans (hpart.trans ⟨gap, gap', ?_⟩) (stretch_of_spells hlist hhead hlast)
    rw [hdocument, List.append_assoc]

/-- Of an incident that stands alone only the steps of its attack are taken. -/
theorem extract_object_attack_flow :
    extract "\x7b\"id\": \"incident--1\", \"attack_flow\": [\x7b\"step\": 1\x7d]\x7d" =
        some (.list [.record [("step", .int 1)]]) ∧
      extract "\x7b\"id\": \"incident--1\", \"attack_flow\": [\x7b\"step\": 1\x7d]\x7d" ≠
        some (.list [.record [("id", .text "incident--1"),
          ("attack_flow", .list [.record [("step", .int 1)]])]]) := by
  have hread : Json.read "\x7b\"id\": \"incident--1\", \"attack_flow\": [\x7b\"step\": 1\x7d]\x7d" =
      .ok (.record [("id", .text "incident--1"), ("attack_flow", .list [.record [("step", .int 1)]])]) := by
    simp [bind, Except.bind, pure, Except.pure]
  have hfound : Json.read "[\x7b\"step\": 1\x7d]" = .ok (.list [.record [("step", .int 1)]]) := by
    simp [bind, Except.bind, pure, Except.pure]
  have hstretch : Stretch "[\x7b\"step\": 1\x7d]".toList :=
    @Stretch.mk [] "\"step\": 1".toList [] (List.forall_mem_nil _) (List.forall_mem_nil _)
  have hspans : Spans "[\x7b\"step\": 1\x7d]".toList
      "\x7b\"id\": \"incident--1\", \"attack_flow\": [\x7b\"step\": 1\x7d]\x7d".toList :=
    @spans_of_notMem "\x7b\"id\": \"incident--1\", \"attack_flow\": ".toList _ "\x7d".toList hstretch
      (by decide) (by decide)
  obtain ⟨-, htaken, hwhole, -⟩ := extract_object_iff_no_stretch hread
  refine ⟨?_, fun h => ?_⟩
  · rw [htaken _ hspans, String.ofList_toList, hfound]
    rfl
  · exact (hwhole (by decide)).mp h _ hspans.stretch.1 hstretch

end

end ThreatAtlas.Incident
