import ThreatAtlas.Proofs.Indicator.Agreement
import ThreatAtlas.Proofs.Indicator.Cleaning
import ThreatAtlas.Proofs.Pattern.Spelling

/-!
# Links and their schemes

A link may be found with a scheme in any mixture of cases, with a scheme that is spoiled so that nobody
follows it, and with brackets and blanks around its colon. Cleaning mends the spoiled scheme in small letters
only, and the colon only where it stands in brackets with nothing else between them. Such links are whole
afterwards, and all other spoiled ones stay as they were.
-/

namespace ThreatAtlas.Indicator

open Pattern (Takes Spells)
open Text (isBlank replaceEach replaceChars)

/-- The colon of a link, with the brackets and blanks that stand around it. -/
structure LinkColon where
  opens : Bool
  blanks : List Char
  closes : Bool
  blank : ∀ c ∈ blanks, isBlank c = true

def LinkColon.chars (k : LinkColon) : List Char :=
  (if k.opens then ['['] else []) ++ ':' :: k.blanks ++ if k.closes then [']'] else []

/-- A link as it is written. What stands behind the slashes is of no matter here. -/
structure Link where
  scheme : List Char
  spelled : Spells "hxxp" scheme ∨ Spells "http" scheme ∨ Spells "https" scheme
  colon : LinkColon
  slash : Char
  isSlash : slash = '/' ∨ slash = '\\'
  others : List Char

def Link.written (l : Link) : String :=
  String.ofList (l.scheme ++ l.colon.chars ++ [l.slash, l.slash] ++ l.others)

variable {cs rest : List Char} {before : Option Char} {c : Char} {k : LinkColon}

private theorem takes_scheme :
    Takes scheme before cs rest ↔ Spells "hxxp" cs ∨ Spells "http" cs ∨ Spells "https" cs := by
  simp only [scheme, Pattern.firstOf, Pattern.takes_choice, Pattern.takes_word]

private theorem takes_colon : Takes colon before cs rest ↔ ∃ k : LinkColon, cs = k.chars := by
  simp only [colon, Pattern.firstOf, Pattern.sequence, Pattern.takes_choice, Pattern.takes_seq,
    Pattern.takes_optional, Pattern.takes_char, Pattern.takes_span]
  constructor
  · intro h
    rcases h with ⟨_, _, rfl, hopen, _, _, rfl, rfl, blanks, _, rfl, ⟨hblank, -⟩, hclose⟩ | rfl
    · rcases hopen with rfl | rfl <;> rcases hclose with rfl | rfl
      · exact ⟨⟨false, blanks, false, hblank⟩, by simp [LinkColon.chars]⟩
      · exact ⟨⟨false, blanks, true, hblank⟩, by simp [LinkColon.chars]⟩
      · exact ⟨⟨true, blanks, false, hblank⟩, by simp [LinkColon.chars]⟩
      · exact ⟨⟨true, blanks, true, hblank⟩, by simp [LinkColon.chars]⟩
    · exact ⟨⟨false, [], false, by simp⟩, rfl⟩
  · intro h
    obtain ⟨⟨opens, blanks, closes, hblank⟩, rfl⟩ := h
    refine .inl ⟨if opens then ['['] else [], ':' :: blanks ++ if closes then [']'] else [], ?_, ?_,
      [':'], blanks ++ if closes then [']'] else [], rfl, rfl, blanks, if closes then [']'] else [], rfl,
      ⟨hblank, Nat.zero_le _, by simp⟩, ?_⟩
    · simp [LinkColon.chars]
    · cases opens <;> simp
    · cases closes <;> simp

private theorem takes_slashes :
    Takes slashes before cs rest ↔ ∃ slash, (slash = '/' ∨ slash = '\\') ∧ cs = [slash, slash] := by
  have hpair (x : Char) : Takes (.span (· == x) 2 (some 2)) before cs rest ↔ cs = [x, x] := by
    rw [Pattern.takes_span]
    constructor
    · intro h
      obtain ⟨hall, hleast, hmost⟩ := h
      obtain ⟨c, d, rfl⟩ := List.length_eq_two.mp (le_antisymm (hmost 2 rfl) hleast)
      simpa using hall
    · rintro rfl
      simp
  simp only [slashes, Pattern.firstOf, Pattern.takes_choice, hpair]
  simp

private theorem exists_link_of_takes {value : String} (h : Takes link before value.toList rest) :
    ∃ l : Link, value = l.written := by
  obtain ⟨scheme, tail, hvalue, hscheme, htail⟩ := Pattern.takes_seq.mp h
  obtain ⟨_, tail, rfl, hcolon, htail⟩ := Pattern.takes_seq.mp htail
  obtain ⟨_, others, rfl, hslashes, -⟩ := Pattern.takes_seq.mp htail
  obtain ⟨k, rfl⟩ := takes_colon.mp hcolon
  obtain ⟨slash, hslash, rfl⟩ := takes_slashes.mp hslashes
  refine ⟨⟨scheme, takes_scheme.mp hscheme, k, slash, hslash, others⟩, ?_⟩
  apply String.toList_injective
  rw [hvalue, Link.written, String.toList_ofList]
  simp only [List.append_assoc]

def Link.cleanedScheme (l : Link) : List Char :=
  if l.scheme = ['h', 'x', 'x', 'p'] then ['h', 't', 't', 'p'] else l.scheme

def LinkColon.isWhole (k : LinkColon) : Prop :=
  k.blanks = [] ∧ k.opens = k.closes

def LinkColon.cleaned (k : LinkColon) : List Char :=
  if k.opens && k.closes && k.blanks.isEmpty then [':'] else k.chars

theorem Link.isLetterAnyCase_scheme (l : Link) : ∀ c ∈ l.scheme, Pattern.isLetterAnyCase c = true := by
  rcases l.spelled with h | h | h
  · exact h.isLetterAnyCase (by decide)
  · exact h.isLetterAnyCase (by decide)
  · exact h.isLetterAnyCase (by decide)

private theorem Link.notMem_scheme (l : Link) (hc : Pattern.isLetterAnyCase c = false) : c ∉ l.scheme := by
  intro hmem
  rw [l.isLetterAnyCase_scheme c hmem] at hc
  cases hc

private theorem LinkColon.notMem_blanks (k : LinkColon) (hc : isBlank c = false) : c ∉ k.blanks := by
  intro hmem
  rw [k.blank c hmem] at hc
  cases hc

private theorem LinkColon.mem_chars (hc : c ∈ k.chars) : c ∈ ['[', ':', ']'] ∨ c ∈ k.blanks := by
  have hmark {b : Bool} {x : Char} (h : c ∈ if b = true then [x] else []) : c = x := by
    cases b <;> simp_all
  simp only [LinkColon.chars, List.mem_append, List.mem_cons] at hc
  rcases hc with (hopen | rfl | hblank) | hclose
  · simp [hmark hopen]
  · simp
  · exact .inr hblank
  · simp [hmark hclose]

private theorem LinkColon.replaceChars_chars (k : LinkColon) :
    replaceChars ['[', ':', ']'] [':'] k.chars = k.cleaned := by
  have hopening := k.notMem_blanks (c := '[') (by decide)
  have hclosing := k.notMem_blanks (c := ']') (by decide)
  obtain ⟨opens, blanks, closes, hblank⟩ := k
  cases opens with
  | false => exact Text.replaceChars_eq_self (x := '[') (by simp) (by cases closes <;> simp_all [chars])
  | true =>
    cases closes with
    | false => exact Text.replaceChars_eq_self (x := ']') (by simp) (by simp_all [chars])
    | true =>
      cases blanks with
      | nil => simp [chars, cleaned, replaceChars]
      | cons b blanks =>
        have hne : ']' ≠ b := by
          rintro rfl
          simp at hclosing
        have hrest : '[' ∉ ':' :: b :: blanks ++ [']'] := by simp_all
        have hmiss : ¬ ['[', ':', ']'].isPrefixOf ('[' :: (':' :: b :: blanks ++ [']'])) = true := by
          simp [hne]
        change replaceChars ['[', ':', ']'] [':'] ('[' :: (':' :: b :: blanks ++ [']'])) = _
        rw [replaceChars, if_neg hmiss, Text.replaceChars_eq_self (x := '[') (by simp) hrest]
        rfl

private theorem Link.replaceChars_scheme (l : Link) :
    replaceChars ['h', 'x', 'x', 'p'] ['h', 't', 't', 'p'] l.scheme = l.cleanedScheme := by
  have hother {w : String} (hw : (w.toList.all fun letter => !Pattern.anyCase letter 'x') = true)
      (h : Spells w l.scheme) : 'x' ∉ l.scheme := by
    intro hmem
    obtain ⟨letter, hletter, hany⟩ := h.exists_letter hmem
    simpa [hany] using List.all_eq_true.mp hw letter hletter
  have hwhole (hx : 'x' ∉ l.scheme) :
      replaceChars ['h', 'x', 'x', 'p'] ['h', 't', 't', 'p'] l.scheme = l.cleanedScheme := by
    have hne : l.scheme ≠ ['h', 'x', 'x', 'p'] := by
      intro h
      simp [h] at hx
    rw [Text.replaceChars_eq_self (x := 'x') (by simp) hx, cleanedScheme, if_neg hne]
  rcases l.spelled with h | h | h
  · have hlen : l.scheme.length ≤ 4 := h.length_eq.ge
    unfold cleanedScheme
    by_cases hexact : l.scheme = ['h', 'x', 'x', 'p']
    · rw [if_pos hexact, hexact]
      simp [replaceChars]
    · rw [if_neg hexact]
      exact Text.replaceChars_of_length_le hlen hexact
  · exact hwhole (hother (by decide) h)
  · exact hwhole (hother (by decide) h)

private theorem Link.replaceEach_head (l : Link) :
    replaceEach cleaningRules (l.scheme ++ l.colon.chars) = l.cleanedScheme ++ l.colon.cleaned := by
  have hdot : '.' ∉ l.scheme ++ l.colon.chars := by
    rw [List.mem_append, not_or]
    refine ⟨l.notMem_scheme (by decide), ?_⟩
    intro hmem
    rcases LinkColon.mem_chars hmem with hmark | hblank
    · simp at hmark
    · exact l.colon.notMem_blanks (by decide) hblank
  have hscheme : ∀ c ∈ l.scheme, c ∉ ['[', ':', ']'] := by
    intro c hc hmark
    have hletters : ['[', ':', ']'].all (!Pattern.isLetterAnyCase ·) = true := by decide
    have hfree := List.all_eq_true.mp hletters c hmark
    exact l.notMem_scheme (by simpa using hfree) hc
  have hcolon : ∀ c ∈ l.colon.cleaned, c ∉ ['h', 'x', 'x', 'p'] := by
    intro c hc hletter
    have hmem : c ∈ ['[', ':', ']'] ∨ c ∈ l.colon.blanks := by
      by_cases hpair : (l.colon.opens && l.colon.closes && l.colon.blanks.isEmpty) = true
      · rw [LinkColon.cleaned, if_pos hpair, List.mem_singleton] at hc
        simp [hc]
      · rw [LinkColon.cleaned, if_neg hpair] at hc
        exact LinkColon.mem_chars hc
    have hblanks : ['h', 'x', 'x', 'p'].all (!isBlank ·) = true := by decide
    have hfree := List.all_eq_true.mp hblanks c hletter
    rcases hmem with hmark | hblank
    · simp only [List.mem_cons, List.not_mem_nil, or_false] at hmark
      rcases hmark with rfl | rfl | rfl <;> simp at hletter
    · exact l.colon.notMem_blanks (by simpa using hfree) hblank
  simp only [replaceEach, cleaningRules, List.foldl_cons, List.foldl_nil]
  rw [Text.replaceChars_eq_self (x := '.') (by simp) hdot,
    Text.replaceChars_eq_self (x := '.') (by simp) hdot,
    Text.replaceChars_append_left (by simp) hscheme, l.colon.replaceChars_chars,
    Text.replaceChars_append_right (by simp) hcolon, l.replaceChars_scheme]

private theorem Link.toList_clean_written (l : Link) : (clean l.written).toList =
    l.cleanedScheme ++ (l.colon.cleaned ++ l.slash :: l.slash :: replaceEach cleaningRules l.others) := by
  have hrules : ∀ rule ∈ cleaningRules, rule.1 ≠ [] ∧ ∀ c ∈ [l.slash, l.slash], c ∉ rule.1 := by
    rcases l.isSlash with h | h
    · simp [h, cleaningRules]
    · simp [h, cleaningRules]
  rw [toList_clean, written, String.toList_ofList, Text.replaceEach_append_block (by simp) hrules,
    l.replaceEach_head]
  simp

/-- The text begins with the scheme of a link, its colon and its slashes, whatever the case of the letters. -/
def IsWholeLink (s : String) : Prop :=
  ∃ w ∈ ["http", "https"], ∃ mark ∈ ["://", ":\\\\"], ∃ front rest,
    s.toList = front ++ (mark.toList ++ rest) ∧ Spells w front

private theorem LinkColon.cleaned_of_isWhole (h : k.isWhole) : k.cleaned = [':'] := by
  obtain ⟨hblanks, hsame⟩ := h
  cases hopens : k.opens <;> simp_all [cleaned, chars]

theorem LinkColon.isWhole_of_append_eq {slash : Char} (hslash : slash = '/' ∨ slash = '\\') {more : List Char}
    (h : k.cleaned ++ more = ':' :: slash :: rest) : k.isWhole := by
  have hblank : slash ∉ k.blanks := k.notMem_blanks (by rcases hslash with rfl | rfl <;> decide)
  have hbracket : ']' ≠ slash := by rcases hslash with rfl | rfl <;> decide
  by_cases hpair : (k.opens && k.closes && k.blanks.isEmpty) = true
  · simp only [Bool.and_eq_true, List.isEmpty_iff] at hpair
    exact ⟨hpair.2, hpair.1.1.trans hpair.1.2.symm⟩
  · rw [cleaned, if_neg hpair, chars] at h
    have hopens : k.opens = false := by
      by_contra hopens
      rw [Bool.not_eq_false] at hopens
      simp [hopens] at h
    simp only [hopens, Bool.false_eq_true, if_false, List.nil_append, List.cons_append, List.cons.injEq,
      true_and] at h
    have hblanks : k.blanks = [] := by
      cases hb : k.blanks with
      | nil => rfl
      | cons b blanks =>
        simp only [hb, List.cons_append, List.cons.injEq] at h
        simp [hb, h.1] at hblank
    have hcloses : k.closes = false := by
      by_contra hcloses
      rw [Bool.not_eq_false] at hcloses
      simp only [hblanks, hcloses, if_true, List.nil_append, List.cons_append, List.cons.injEq] at h
      exact hbracket h.1
    exact ⟨hblanks, hopens.trans hcloses.symm⟩

private theorem LinkColon.head?_cleaned (k : LinkColon) (more : List Char) :
    ∀ c ∈ (k.cleaned ++ more).head?, Pattern.isLetterAnyCase c = false := by
  obtain ⟨opens, blanks, closes, -⟩ := k
  cases opens <;> cases closes <;> cases blanks <;> simp [cleaned, chars] <;> decide

private theorem Link.spells_cleanedScheme_iff (l : Link) :
    (∃ w ∈ ["http", "https"], Spells w l.cleanedScheme) ↔
      l.scheme = ['h', 'x', 'x', 'p'] ∨ Spells "http" l.scheme ∨ Spells "https" l.scheme := by
  unfold cleanedScheme
  by_cases hexact : l.scheme = ['h', 'x', 'x', 'p']
  · have hhttp : Spells "http" ['h', 't', 't', 'p'] := by simp [Spells, Pattern.anyCase]
    rw [if_pos hexact]
    exact iff_of_true ⟨"http", by simp, hhttp⟩ (.inl hexact)
  · rw [if_neg hexact]
    simp [hexact]

private theorem Link.isWholeLink_clean_iff (l : Link) : IsWholeLink (clean l.written) ↔
    (∃ w ∈ ["http", "https"], Spells w l.cleanedScheme) ∧ l.colon.isWhole := by
  have hscheme : ∀ c ∈ l.cleanedScheme, Pattern.isLetterAnyCase c = true := by
    unfold cleanedScheme
    by_cases hexact : l.scheme = ['h', 'x', 'x', 'p']
    · rw [if_pos hexact]
      exact List.all_eq_true.mp (by decide)
    · rw [if_neg hexact]
      exact l.isLetterAnyCase_scheme
  unfold IsWholeLink
  rw [l.toList_clean_written]
  constructor
  · intro h
    obtain ⟨w, hw, mark, hmark, front, rest, hsplit, hfront⟩ := h
    have hlower : w.toList.all Char.isLower = true := by
      have hboth : ∀ w ∈ ["http", "https"], w.toList.all Char.isLower = true := by decide
      exact hboth w hw
    obtain ⟨slash, hslash, hmark⟩ :
        ∃ slash, (slash = '/' ∨ slash = '\\') ∧ mark.toList = [':', slash, slash] := by
      simp only [List.mem_cons, List.not_mem_nil, or_false] at hmark
      rcases hmark with rfl | rfl
      · exact ⟨'/', .inl rfl, rfl⟩
      · exact ⟨'\\', .inr rfl, rfl⟩
    rw [hmark] at hsplit
    obtain ⟨hsame, hrest⟩ := Text.eq_of_run_append_eq hscheme (l.colon.head?_cleaned _)
      (hfront.isLetterAnyCase hlower) (by simp; decide) hsplit
    exact ⟨⟨w, hw, hsame ▸ hfront⟩, LinkColon.isWhole_of_append_eq hslash hrest⟩
  · intro h
    obtain ⟨⟨w, hw, hspells⟩, hcolon⟩ := h
    rw [LinkColon.cleaned_of_isWhole hcolon]
    rcases l.isSlash with hslash | hslash
    · exact ⟨w, hw, "://", by simp, l.cleanedScheme, _, by rw [hslash]; rfl, hspells⟩
    · exact ⟨w, hw, ":\\\\", by simp, l.cleanedScheme, _, by rw [hslash]; rfl, hspells⟩

/-- A link that is found in a text is a scheme, a colon with brackets and blanks around it, two slashes and
the rest. Cleaned it begins with a whole scheme exactly if its own is whole, or spoiled in small letters, and its
colon stands alone or between two brackets. So it stays spoiled where the spoiled scheme has a capital, where
a blank follows the colon, and where the colon has but one bracket. -/
theorem extract_refangs_link_iff {text value : String} (h : value ∈ valuesOf .url (extract text)) :
    (∃ l : Link, value = l.written) ∧ ∀ l : Link, value = l.written →
      (IsWholeLink (clean value) ↔
        (l.scheme = ['h', 'x', 'x', 'p'] ∨ Spells "http" l.scheme ∨ Spells "https" l.scheme) ∧
          l.colon.blanks = [] ∧ l.colon.opens = l.colon.closes) := by
  rw [(valuesOf_extract text).2.1] at h
  obtain ⟨pre, rest, -, -, htakes⟩ := Pattern.mem_findAll h
  refine ⟨exists_link_of_takes htakes, ?_⟩
  rintro l rfl
  rw [l.isWholeLink_clean_iff, l.spells_cleanedScheme_iff]
  rfl

theorem extract_leaves_links_spoiled :
    ("HXXP://a.com" ∈ valuesOf .url (extract "see HXXP://a.com") ∧ ¬ IsWholeLink (clean "HXXP://a.com")) ∧
      "http[: ]//a.com" ∈ valuesOf .url (extract "see http[: ]//a.com") ∧
        ¬ IsWholeLink (clean "http[: ]//a.com") := by
  have hcapital : "HXXP://a.com" ∈ valuesOf .url (extract "see HXXP://a.com") := by decide +kernel
  have hspaced : "http[: ]//a.com" ∈ valuesOf .url (extract "see http[: ]//a.com") := by decide +kernel
  refine ⟨⟨hcapital, ?_⟩, hspaced, ?_⟩
  · let l : Link := ⟨['H', 'X', 'X', 'P'], .inl (by simp [Spells, Pattern.anyCase]),
      ⟨false, [], false, by simp⟩, '/', .inl rfl, ['a', '.', 'c', 'o', 'm']⟩
    rw [(extract_refangs_link_iff hcapital).2 l (by decide)]
    simp [l, Spells, Pattern.anyCase]
  · let l : Link := ⟨['h', 't', 't', 'p'], .inr (.inl (by simp [Spells, Pattern.anyCase])),
      ⟨true, [' '], true, by simp; decide⟩, '/', .inl rfl, ['a', '.', 'c', 'o', 'm']⟩
    rw [(extract_refangs_link_iff hspaced).2 l (by decide)]
    simp [l]

end ThreatAtlas.Indicator
