import ThreatAtlas.Draft.Refine
import ThreatAtlas.Proofs.Pattern.Words
import ThreatAtlas.Proofs.Text.Class
import ThreatAtlas.Proofs.Text.Replace

/-!
# Indicators of reports and of drafts

Reports and drafts look for indicators in ways of their own. Both find the same addresses, links and
vulnerabilities: what a report filters out besides can never be matched. A draft knows only the shortest
hashes.
-/

namespace ThreatAtlas.Indicator

open Pattern (Takes TakesEnds TakesWords)

def valuesOf (kind : EntityKind) (entities : List Entity) : List String :=
  (entities.filter (·.kind == kind)).map Entity.value

def namesOf (form : String) (entities : List DraftEntity) : List String :=
  (entities.filter (·.reasoning == s!"Regex Extracted {form}")).map DraftEntity.name

@[simp] theorem valuesOf_append (kind : EntityKind) (xs ys : List Entity) :
    valuesOf kind (xs ++ ys) = valuesOf kind xs ++ valuesOf kind ys := by
  rw [valuesOf, List.filter_append, List.map_append]
  rfl

@[simp] theorem valuesOf_map (kind kind' : EntityKind) (values : List String) :
    valuesOf kind (values.map fun v => { kind := kind', value := v }) =
      if kind' = kind then values else [] := by
  by_cases h : kind' = kind
  · simp [valuesOf, List.filter_map, Function.comp_def, h]
  · simp [valuesOf, h]

@[simp] theorem namesOf_append (form : String) (xs ys : List DraftEntity) :
    namesOf form (xs ++ ys) = namesOf form xs ++ namesOf form ys := by
  rw [namesOf, List.filter_append, List.map_append]
  rfl

@[simp] theorem namesOf_map (form other : String) (label : DraftLabel) (names : List String) :
    namesOf form (names.map fun name =>
      { name, label, reasoning := s!"Regex Extracted {other}" }) = if other = form then names else [] := by
  by_cases h : other = form
  · simp [namesOf, List.filter_map, Function.comp_def, h]
  · simp [namesOf, toString, h]

variable {rest : List Char} {before : Option Char}

private theorem address_takes {cs : List Char} (h : Takes address before cs rest) :
    ∃ digits c others, cs = digits ++ c :: others ∧ digits ≠ [] ∧ digits.length ≤ 3 ∧
      (∀ d ∈ digits, Text.isDecimal d = true) ∧ Text.isDecimal c = false := by
  obtain ⟨edge, tail, rfl, hedge, htail⟩ := Pattern.takes_seq.mp h
  obtain ⟨rfl, -⟩ := Pattern.takes_boundary.mp hedge
  obtain ⟨digits, tail, rfl, hdigits, htail⟩ := Pattern.takes_seq.mp htail
  obtain ⟨separator, others, rfl, hseparator, -⟩ := Pattern.takes_seq.mp htail
  obtain ⟨hall, hleast, hmost⟩ := Pattern.takes_span.mp hdigits
  have hlong : 1 ≤ separator.length := hseparator.leastLength_le
  obtain ⟨c, separator, rfl⟩ := List.exists_cons_of_length_pos hlong
  refine ⟨digits, c, separator ++ others, by simp, List.length_pos_iff.mp hleast, hmost 3 rfl, hall, ?_⟩
  have hc : dot.mayHold c = true := hseparator.mayHold (by simp)
  simp only [dot, Pattern.firstOf, Pattern.sequence, Pattern.optional, Pattern.char, Pattern.one,
    Pattern.mayHold, Bool.or_eq_true, beq_iff_eq] at hc
  rcases hc with (rfl | rfl | rfl) | rfl | rfl | rfl <;> rfl

private theorem not_startsWithYear_of_takes {m : String} (h : Takes address before m.toList rest) :
    startsWithYear m = false := by
  obtain ⟨digits, c, others, hm, -, hshort, -, hc⟩ := address_takes h
  rw [← Bool.not_eq_true]
  intro hyear
  obtain ⟨taken, rest, hsplit, htaken⟩ := Pattern.matchesStart_takes hyear
  obtain ⟨hall, hfour, -⟩ := Pattern.takes_span.mp htaken
  have hmem : c ∈ taken := by
    have hprefix : digits ++ [c] <+: taken := by
      have hleft : digits ++ [c] <+: m.toList := ⟨others, by simp [hm]⟩
      refine List.prefix_of_prefix_length_le hleft ⟨rest, hsplit.symm⟩ ?_
      simp only [List.length_append, List.length_singleton]
      omega
    exact hprefix.subset (by simp)
  rw [hall c hmem] at hc
  cases hc

private theorem isAddressLike_of_takes {m : String} (h : Takes address before m.toList rest) :
    isAddressLike m = true := by
  obtain ⟨digits, c, others, hm, hne, -, hdigits, -⟩ := address_takes h
  obtain ⟨d, hd⟩ := List.exists_mem_of_ne_nil digits hne
  rw [isAddressLike, List.any_eq_true]
  exact ⟨d, by simp [hm, hd], Text.isDigitLike_of_isDecimal (hdigits d hd)⟩

private theorem filter_address (text : String) :
    (address.findAll text).filter (!startsWithYear ·) = address.findAll text ∧
      (address.findAll text).filter (fun m => !startsWithYear m && isAddressLike m) =
        address.findAll text := by
  have hfound (m : String) (hm : m ∈ address.findAll text) :
      startsWithYear m = false ∧ isAddressLike m = true := by
    obtain ⟨pre, rest, -, -, htakes⟩ := Pattern.mem_findAll hm
    exact ⟨not_startsWithYear_of_takes htakes, isAddressLike_of_takes htakes⟩
  constructor
  · refine List.filter_eq_self.mpr fun m hm => ?_
    rw [(hfound m hm).1]
    rfl
  · refine List.filter_eq_self.mpr fun m hm => ?_
    rw [(hfound m hm).1, (hfound m hm).2]
    rfl

def isHexWord (length : Nat) (word : List Char) : Bool :=
  word.all Text.isHex && word.length == length

private theorem hexWord_takesWords {length : Nat} (hlength : 0 < length) :
    TakesWords (hexWord length) (isHexWord length) :=
  (TakesEnds.span (fun _ => Text.isWord_of_isHex) hlength).takesWords

theorem hash_takesWords :
    TakesWords hash fun word => isHexWord 32 word || (isHexWord 40 word || isHexWord 64 word) :=
  (hexWord_takesWords (by decide)).choice
    ((hexWord_takesWords (by decide)).choice (hexWord_takesWords (by decide)))

private theorem findAll_hash_short (text : String) :
    (hash.findAll text).filter (·.length == 32) = (hexWord 32).findAll text := by
  rw [hash_takesWords.findAll_eq, (hexWord_takesWords (by decide)).findAll_eq, List.filter_map,
    List.filter_filter]
  congr 2
  funext word
  simp only [Function.comp_apply, String.length_ofList, isHexWord]
  cases word.all Text.isHex with
  | false => simp
  | true =>
    by_cases hlen : word.length = 32
    · simp [hlen]
    · simp [hlen]

private theorem cleanName_eq_clean (s : String) : Draft.cleanName s = clean s := by
  have hself (t : String) : Text.replace "http" "http" t = t := by
    rw [Text.replace, Text.replaceChars_self (by decide), String.ofList_toList]
  rw [Draft.cleanName, hself, clean]

theorem valuesOf_extract (text : String) :
    valuesOf .ip (extract text) = address.findAll text ∧
    valuesOf .url (extract text) = link.findAll text ∧
    valuesOf .vulnerability (extract text) = vulnerability.findAll text ∧
    valuesOf .hash (extract text) = (hash.findAll text).filter (!isAllDigits ·) := by
  unfold extract
  simp [(filter_address text).2]

private theorem namesOf_indicators (text : String) :
    namesOf "IP" (Draft.indicators text) = address.findAll text ∧
    namesOf "URL" (Draft.indicators text) = link.findAll text ∧
    namesOf "CVE" (Draft.indicators text) = vulnerability.findAll text ∧
    namesOf "MD5" (Draft.indicators text) = (hexWord 32).findAll text := by
  unfold Draft.indicators
  simp [(filter_address text).1]

/-- Reports and drafts agree on the addresses, links and vulnerabilities of a text, and take all that is
matched. The short hashes of a report are those of a draft that have a letter in them. Names and values
are cleaned alike. -/
theorem extract_agrees_with_indicators (text : String) :
    valuesOf .ip (extract text) = namesOf "IP" (Draft.indicators text) ∧
    valuesOf .ip (extract text) = address.findAll text ∧
    valuesOf .url (extract text) = namesOf "URL" (Draft.indicators text) ∧
    valuesOf .vulnerability (extract text) = namesOf "CVE" (Draft.indicators text) ∧
    (valuesOf .hash (extract text)).filter (·.length == 32) =
      (namesOf "MD5" (Draft.indicators text)).filter (!isAllDigits ·) ∧
    ∀ s, Draft.cleanName s = clean s := by
  obtain ⟨hips, hurls, hvulnerabilities, hhashes⟩ := valuesOf_extract text
  obtain ⟨hips', hurls', hvulnerabilities', hhashes'⟩ := namesOf_indicators text
  refine ⟨hips.trans hips'.symm, hips, hurls.trans hurls'.symm,
    hvulnerabilities.trans hvulnerabilities'.symm, ?_, cleanName_eq_clean⟩
  rw [hhashes, hhashes', ← findAll_hash_short, List.filter_filter, List.filter_filter]
  congr 1
  funext s
  exact Bool.and_comm _ _

end ThreatAtlas.Indicator
