import ThreatAtlas.Indicator.Extract
import ThreatAtlas.Indicator.Validity
import ThreatAtlas.Proofs.Pattern
import ThreatAtlas.Proofs.Text.Replace

/-!
# Cleaning and checking indicators

Cleaning keeps a placeholder a placeholder and a stock word a stock word, so a value that is worth
keeping once it is cleaned was worth keeping before. An indicator that was found in a text is never an
address with ports, cleaned or not.
-/

namespace ThreatAtlas.Indicator

open Text (replaceEach)

def cleaningRules : List (List Char × List Char) :=
  [(['[', '.', ']'], ['.']), (['(', '.', ')'], ['.']), (['[', ':', ']'], [':']),
    (['h', 'x', 'x', 'p'], ['h', 't', 't', 'p'])]

theorem toList_clean (s : String) : (clean s).toList = replaceEach cleaningRules s.toList := by
  simp only [clean, Text.replace, String.toList_ofList]
  rfl

private theorem strip_clean (s : String) : Text.strip (clean s) = clean (Text.strip s) := by
  have hne : ∀ rule ∈ cleaningRules, rule.1 ≠ [] ∧ rule.2 ≠ [] := by decide
  have hall : (cleaningRules.all fun rule => (rule.1 ++ rule.2).all (!Text.isBlank ·)) = true := by
    decide
  have hblank (rule) (hrule : rule ∈ cleaningRules) (c) (hc : c ∈ rule.1 ++ rule.2) :
      Text.isBlank c = false := by
    simpa using List.all_eq_true.mp (List.all_eq_true.mp hall rule hrule) c hc
  apply String.toList_injective
  rw [toList_clean]
  simp only [Text.strip, String.toList_ofList]
  rw [toList_clean, Text.stripChars_replaceEach fun rule h => ⟨(hne rule h).1, (hne rule h).2, hblank rule h⟩]

private theorem length_clean_le (s : String) : (clean s).length ≤ s.length := by
  have hrules : ∀ rule ∈ cleaningRules, rule.2.length ≤ rule.1.length := by decide
  simpa [← String.length_toList, toList_clean] using Text.length_replaceEach_le hrules s.toList

variable {s : String} {cs : List Char}

private theorem clean_block {part : List Char} (hne : part ≠ [])
    (hpart : ∀ rule ∈ cleaningRules, ∀ c ∈ part, c ∉ rule.1) {a b : List Char}
    (hs : s.toList = a ++ part ++ b) :
    (clean s).toList = replaceEach cleaningRules a ++ part ++ replaceEach cleaningRules b := by
  have hold : ∀ rule ∈ cleaningRules, rule.1 ≠ [] := by decide
  rw [toList_clean, hs,
    Text.replaceEach_append_block hne fun rule h => ⟨hold rule h, hpart rule h⟩]

theorem hasBlock_iff {part s : List Char} :
    Text.hasBlock part s = true ↔ ∃ a b, s = a ++ part ++ b := by
  induction s with
  | nil =>
    simp only [Text.hasBlock, List.isEmpty_iff]
    constructor
    · rintro rfl
      exact ⟨[], [], rfl⟩
    · intro hblock
      obtain ⟨a, b, h⟩ := hblock
      have := List.append_eq_nil_iff.mp h.symm
      exact (List.append_eq_nil_iff.mp this.1).2
  | cons c cs ih =>
    simp only [Text.hasBlock, Bool.or_eq_true, List.isPrefixOf_iff_prefix, ih]
    constructor
    · intro hblock
      rcases hblock with ⟨b, h⟩ | ⟨a, b, rfl⟩
      · exact ⟨[], b, h.symm⟩
      · exact ⟨c :: a, b, rfl⟩
    · intro hblock
      obtain ⟨a, b, h⟩ := hblock
      cases a with
      | nil => exact .inl ⟨b, h.symm⟩
      | cons d a =>
        rw [List.cons_append, List.cons_append] at h
        exact .inr ⟨a, b, (List.cons.inj h).2⟩

/-- A text that cleaning does not touch, wherever it stands. -/
private def Untouched (part : String) : Prop :=
  part.toList ≠ [] ∧ ∀ rule ∈ cleaningRules, ∀ c ∈ part.toList, c ∉ rule.1

private theorem contains_clean {part : String} (hpart : Untouched part) (h : Text.contains part s = true) :
    Text.contains part (clean s) = true := by
  obtain ⟨a, b, hs⟩ := hasBlock_iff.mp h
  exact hasBlock_iff.mpr ⟨_, _, clean_block hpart.1 hpart.2 hs⟩

private theorem startsWith_clean {head : String} (hhead : Untouched head) (h : Text.startsWith head s = true) :
    Text.startsWith head (clean s) = true := by
  simp only [Text.startsWith, List.isPrefixOf_iff_prefix] at h ⊢
  obtain ⟨b, hb⟩ := h
  have hs : s.toList = [] ++ head.toList ++ b := hb.symm
  rw [clean_block hhead.1 hhead.2 hs, Text.replaceEach_empty]
  exact ⟨_, rfl⟩

private theorem endsWith_clean {tail : String} (htail : Untouched tail) (h : Text.endsWith tail s = true) :
    Text.endsWith tail (clean s) = true := by
  simp only [Text.endsWith, List.isSuffixOf_iff_suffix] at h ⊢
  obtain ⟨a, ha⟩ := h
  have hs : s.toList = a ++ tail.toList ++ [] := by rw [List.append_nil, ha]
  rw [clean_block htail.1 htail.2 hs, Text.replaceEach_empty, List.append_nil]
  exact ⟨_, rfl⟩

private theorem untouched_marks :
    Untouched "\x7b" ∧ Untouched "\x7d" ∧ Untouched "<" ∧ Untouched ">" ∧
      Untouched "IP Address" ∧ Untouched "Target" := by
  simp [Untouched, cleaningRules]

private theorem isPlaceholder_clean (h : isPlaceholder s = true) : isPlaceholder (clean s) = true := by
  obtain ⟨hopen, hclose, hless, hgreater, haddress, htarget⟩ := untouched_marks
  simp only [isPlaceholder, Bool.or_eq_true, Bool.and_eq_true] at h ⊢
  rcases h with ((⟨hs, he⟩ | ⟨hs, he⟩) | hc) | hc
  · exact .inl (.inl (.inl ⟨startsWith_clean hopen hs, endsWith_clean hclose he⟩))
  · exact .inl (.inl (.inr ⟨startsWith_clean hless hs, endsWith_clean hgreater he⟩))
  · exact .inl (.inr (contains_clean haddress hc))
  · exact .inr (contains_clean htarget hc)

private theorem mem_lowerAfter {c : Char} (hlow : Text.lowerChar c = c) (hsigma : c ≠ '\u03a3')
    (hdotted : c ≠ '\u0130') (hc : c ∈ cs) (before : List Char) : c ∈ Text.lowerAfter before cs := by
  induction cs generalizing before with
  | nil => cases hc
  | cons d cs ih =>
    rw [Text.lowerAfter, List.mem_append]
    rcases List.mem_cons.mp hc with rfl | hc
    · simp [hsigma, hdotted, hlow]
    · exact .inr (ih hc _)

theorem mem_lower {c : Char} (hlow : Text.lowerChar c = c) (hsigma : c ≠ '\u03a3')
    (hdotted : c ≠ '\u0130') (hc : c ∈ s.toList) : c ∈ (Text.lower s).toList := by
  rw [Text.lower, String.toList_ofList]
  exact mem_lowerAfter hlow hsigma hdotted hc []

private theorem clean_of_stockWord (h : Text.lower s ∈ stockWords) : clean s = s := by
  have hwords : ∀ w ∈ stockWords, '[' ∉ w.toList ∧ '(' ∉ w.toList ∧
      ('h' ∉ w.toList ∨ 'x' ∉ w.toList) := by decide
  obtain ⟨hbracket, hparen, hletter⟩ := hwords _ h
  have hbracket' : '[' ∉ s.toList := mt (mem_lower (by decide) (by decide) (by decide)) hbracket
  have hparen' : '(' ∉ s.toList := mt (mem_lower (by decide) (by decide) (by decide)) hparen
  apply String.toList_injective
  rw [toList_clean]
  apply Text.replaceEach_eq_self
  simp only [cleaningRules, List.forall_mem_cons, List.not_mem_nil, false_imp_iff, implies_true,
    and_true]
  refine ⟨⟨'[', by simp, hbracket'⟩, ⟨'(', by simp, hparen'⟩, ⟨'[', by simp, hbracket'⟩, ?_⟩
  rcases hletter with hh | hx
  · exact ⟨'h', by simp, mt (mem_lower (by decide) (by decide) (by decide)) hh⟩
  · exact ⟨'x', by simp, mt (mem_lower (by decide) (by decide) (by decide)) hx⟩

theorem isValid_of_isValid_clean (h : isValid (clean s) = true) : isValid s = true := by
  simp only [isValid, strip_clean, Bool.and_eq_true, decide_eq_true_eq, Bool.not_eq_true',
    List.contains_eq_mem, decide_eq_false_iff_not] at h ⊢
  obtain ⟨⟨hlen, hplace⟩, hstock⟩ := h
  refine ⟨⟨hlen.trans (length_clean_le _), ?_⟩, ?_⟩
  · by_contra hholder
    rw [Bool.not_eq_false] at hholder
    rw [isPlaceholder_clean hholder] at hplace
    cases hplace
  · intro hword
    rw [clean_of_stockWord hword] at hstock
    exact hstock hword

open Pattern (Takes)

private theorem mem_extract {e : Entity} {text : String} (h : e ∈ extract text) :
    ∃ p ∈ [address, link, host, vulnerability, hash, wallet], e.value ∈ p.findAll text := by
  simp only [extract, List.mem_append, List.mem_map, List.mem_filter] at h
  rcases h with ((((⟨m, ⟨hm, -⟩, rfl⟩ | ⟨m, hm, rfl⟩) | ⟨m, ⟨hm, -⟩, rfl⟩) | ⟨m, hm, rfl⟩) |
    ⟨m, ⟨hm, -⟩, rfl⟩) | ⟨m, hm, rfl⟩
  · exact ⟨address, by simp, hm⟩
  · exact ⟨link, by simp, hm⟩
  · exact ⟨host, by simp, hm⟩
  · exact ⟨vulnerability, by simp, hm⟩
  · exact ⟨hash, by simp, hm⟩
  · exact ⟨wallet, by simp, hm⟩

private theorem addressWithPorts_takes {before : Option Char} {rest : List Char}
    (h : Takes addressWithPorts before cs rest) :
    ':' ∈ cs ∧ ∃ d ds, cs = d :: ds ∧ Text.isDecimal d = true := by
  obtain ⟨plain, tail, rfl, hplain, htail⟩ := Pattern.takes_seq.mp h
  obtain ⟨colon, ports, rfl, hcolon, -⟩ := Pattern.takes_seq.mp htail
  obtain ⟨c, rfl, hc⟩ := Pattern.takes_one.mp hcolon
  obtain ⟨digits, others, rfl, hdigits, -⟩ := Pattern.takes_seq.mp hplain
  obtain ⟨hall, hleast, -⟩ := Pattern.takes_span.mp hdigits
  obtain ⟨d, ds, rfl⟩ : ∃ d ds, digits = d :: ds := List.exists_cons_of_length_pos hleast
  constructor
  · have : c = ':' := by simpa using hc
    simp [this]
  · exact ⟨d, _, rfl, hall d (by simp)⟩

private theorem eq_of_toLower_eq_h {d : Char} (h : d.toLower = 'h') : d = 'h' ∨ d = 'H' := by
  by_cases hu : d.isUpper = true
  · have hrange : 65 ≤ d.toNat ∧ d.toNat ≤ 90 := by
      simpa [Char.isUpper, UInt32.le_iff_toNat_le] using hu
    have hvalid : (d.toNat + 32).isValidChar := .inl (by omega)
    rw [Char.toLower_eq_of_isUpper hu] at h
    have hnat := congrArg Char.toNat h
    rw [Char.toNat_ofNat, if_pos hvalid] at hnat
    have h72 : d.toNat = 'H'.toNat := by
      change d.toNat = 72
      change d.toNat + 32 = 104 at hnat
      omega
    exact .inr (Char.toNat_inj.mp h72)
  · rw [Char.toLower_eq_of_not_isUpper hu] at h
    exact .inl h

private theorem link_takes {before : Option Char} {rest : List Char} (h : Takes link before cs rest) :
    ∃ d ds, cs = d :: ds ∧ (d = 'h' ∨ d = 'H') := by
  have word_takes {w : Pattern} {xs rest : List Char}
      (h : Takes (.seq (Pattern.one (Pattern.anyCase 'h')) w) before xs rest) :
      ∃ d ds, xs = d :: ds ∧ (d = 'h' ∨ d = 'H') := by
    obtain ⟨first, others, rfl, hfirst, -⟩ := Pattern.takes_seq.mp h
    obtain ⟨d, rfl, hd⟩ := Pattern.takes_one.mp hfirst
    exact ⟨d, others, rfl, eq_of_toLower_eq_h (by simpa [Pattern.anyCase] using hd)⟩
  obtain ⟨start, others, rfl, hstart, -⟩ := Pattern.takes_seq.mp h
  have hhead : ∃ d ds, start = d :: ds ∧ (d = 'h' ∨ d = 'H') := by
    rcases Pattern.takes_choice.mp hstart with hstart | hstart
    · exact word_takes hstart
    · rcases Pattern.takes_choice.mp hstart with hstart | hstart
      · exact word_takes hstart
      · exact word_takes hstart
  obtain ⟨d, ds, rfl, hd⟩ := hhead
  exact ⟨d, ds ++ others, rfl, hd⟩

/-- No indicator of a text is an address with ports once it is cleaned. -/
theorem splitPorts?_clean_of_mem_extract {e : Entity} {text : String} (h : e ∈ extract text) :
    splitPorts? (clean e.value) = none := by
  unfold splitPorts?
  apply if_neg
  intro hmatch
  obtain ⟨taken, rest, hclean, htaken⟩ := Pattern.matchesStart_takes hmatch
  obtain ⟨hcolon, d, ds, rfl, hdigit⟩ := addressWithPorts_takes htaken
  rw [toList_clean] at hclean
  have hcolon' : ':' ∈ replaceEach cleaningRules e.value.toList := by
    rw [hclean]
    exact List.mem_append_left _ hcolon
  have hfree : ':' ∉ e.value.toList → False := fun hfree =>
    Text.notMem_replaceEach hfree (by decide) hcolon'
  obtain ⟨p, hp, hfound⟩ := mem_extract h
  obtain ⟨pre, rest', -, -, htakes⟩ := Pattern.mem_findAll hfound
  have hnone (hp : p.mayHold ':' = false) : False := by
    apply hfree
    intro hmem
    rw [htakes.mayHold hmem] at hp
    cases hp
  simp only [List.mem_cons, List.not_mem_nil, or_false] at hp
  rcases hp with rfl | rfl | rfl | rfl | rfl | rfl
  · exact hnone (by decide)
  · -- A link may hold colons, but its first letter is no digit and cleaning keeps it.
    obtain ⟨c, cs, hlink, hc⟩ := link_takes htakes
    have hkept : (replaceEach cleaningRules e.value.toList).head? = some c := by
      apply Text.head?_replaceEach (by rw [hlink]; rfl)
      rcases hc with rfl | rfl <;> decide
    rw [hclean] at hkept
    cases hkept
    rcases hc with rfl | rfl <;> cases hdigit
  · exact hnone (by decide)
  · exact hnone (by decide)
  · exact hnone (by decide)
  · exact hnone (by decide)

end ThreatAtlas.Indicator

namespace ThreatAtlas.Entity

theorem cleaned_value {e : Entity} (h : Indicator.splitPorts? (Indicator.clean e.value) = none) :
    e.cleaned.value = Indicator.clean e.value := by
  unfold cleaned
  dsimp only
  rw [h]
  cases e.kind <;> rfl

end ThreatAtlas.Entity
