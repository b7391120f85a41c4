import ThreatAtlas.Proofs.Indicator.Agreement
import ThreatAtlas.Proofs.Indicator.Cleaning
import ThreatAtlas.Proofs.Pattern.Search

/-!
# Addresses as they are written

An address is four groups of digits with a separator between each two: a dot, alone, in brackets or
parentheses, or with one bracket only. It can be read in one way. Cleaning makes plain dots of all
separators but those with one bracket. A search finds the addresses that stand between characters that
belong to no word, of whatever script.
-/

namespace ThreatAtlas.Indicator

open Pattern (Takes inWord lastOf)
open Text (isDecimal isWord replaceEach)

@[ext] structure DigitGroup where
  digits : List Char
  decimal : ∀ c ∈ digits, isDecimal c = true
  nonempty : digits ≠ []
  short : digits.length ≤ 3

inductive Separator where
  | plain
  | bracketed
  | parenthesized
  | opened
  | closed

namespace Separator

def text : Separator → String
  | plain => "."
  | bracketed => "[.]"
  | parenthesized => "(.)"
  | opened => "[."
  | closed => ".]"

def chars (s : Separator) : List Char :=
  s.text.toList

def cleaned : Separator → List Char
  | opened => ['[', '.']
  | closed => ['.', ']']
  | _ => ['.']

private theorem chars_injective {s t : Separator} (h : s.chars = t.chars) : s = t := by
  cases s <;> cases t <;> first | rfl | simp [chars, text] at h

theorem isDecimal_of_mem_chars {s : Separator} {c : Char} (hc : c ∈ s.chars) : isDecimal c = false := by
  have hall : s.chars.all (!isDecimal ·) = true := by cases s <;> rfl
  simpa using List.all_eq_true.mp hall c hc

private theorem chars_ne_nil (s : Separator) : s.chars ≠ [] := by
  cases s <;> simp [chars, text]

private theorem replaceEach_chars (s : Separator) : replaceEach cleaningRules s.chars = s.cleaned := by
  cases s <;> simp [chars, text, cleaned, replaceEach, cleaningRules, Text.replaceChars]

end Separator

/-- The separators and groups of digits that follow the first group. -/
abbrev OtherGroups := List (Separator × DigitGroup)

def OtherGroups.chars (write : Separator → List Char) (others : OtherGroups) : List Char :=
  others.flatMap fun other => write other.1 ++ other.2.digits

@[ext] structure Address where
  first : DigitGroup
  others : OtherGroups
  four : others.length = 3

namespace Address

def separators (a : Address) : List Separator :=
  a.others.map Prod.fst

def chars (write : Separator → List Char) (a : Address) : List Char :=
  a.first.digits ++ a.others.chars write

def written (a : Address) : String :=
  String.ofList (a.chars Separator.chars)

def dotted (a : Address) : String :=
  String.ofList (a.chars fun _ => ['.'])

end Address

/-! What the pattern takes -/

variable {cs rest : List Char} {before : Option Char} {a : Address} {c : Char}

theorem takes_upToThreeDigits : Takes upToThreeDigits before cs rest ↔ ∃ g : DigitGroup, cs = g.digits := by
  rw [upToThreeDigits, Pattern.takes_span]
  constructor
  · intro h
    obtain ⟨hall, hleast, hmost⟩ := h
    exact ⟨⟨cs, hall, List.length_pos_iff.mp hleast, hmost 3 rfl⟩, rfl⟩
  · intro h
    obtain ⟨g, rfl⟩ := h
    refine ⟨g.decimal, List.length_pos_iff.mpr g.nonempty, ?_⟩
    intro m hm
    cases hm
    exact g.short

private theorem takes_dot : Takes dot before cs rest ↔ ∃ s : Separator, cs = s.chars := by
  simp only [dot, Pattern.firstOf, Pattern.sequence, Pattern.takes_choice, Pattern.takes_seq,
    Pattern.takes_optional, Pattern.takes_char]
  constructor
  · intro h
    rcases h with ⟨_, _, rfl, rfl | rfl, _, _, rfl, rfl, rfl | rfl⟩ | ⟨_, _, rfl, rfl, _, _, rfl, rfl, rfl⟩
    · exact ⟨.plain, rfl⟩
    · exact ⟨.closed, rfl⟩
    · exact ⟨.opened, rfl⟩
    · exact ⟨.bracketed, rfl⟩
    · exact ⟨.parenthesized, rfl⟩
  · intro h
    obtain ⟨s, rfl⟩ := h
    cases s with
    | plain => exact .inl ⟨[], _, rfl, .inl rfl, ['.'], [], rfl, rfl, .inl rfl⟩
    | closed => exact .inl ⟨[], _, rfl, .inl rfl, ['.'], [']'], rfl, rfl, .inr rfl⟩
    | opened => exact .inl ⟨['['], _, rfl, .inr rfl, ['.'], [], rfl, rfl, .inl rfl⟩
    | bracketed => exact .inl ⟨['['], _, rfl, .inr rfl, ['.'], [']'], rfl, rfl, .inr rfl⟩
    | parenthesized => exact .inr ⟨['('], _, rfl, rfl, ['.'], [')'], rfl, rfl, rfl⟩

def groupsThen (p : Pattern) : Nat → Pattern
  | 0 => p
  | n + 1 => .seq dot (.seq upToThreeDigits (groupsThen p n))

private theorem takes_groupsThen {p : Pattern} {n : Nat} :
    Takes (groupsThen p n) before cs rest ↔ ∃ (others : OtherGroups) (ds : List Char),
      others.length = n ∧ cs = others.chars Separator.chars ++ ds ∧
        Takes p (lastOf before (others.chars Separator.chars)) ds rest := by
  induction n generalizing before cs with
  | zero =>
    constructor
    · intro h
      exact ⟨[], cs, rfl, rfl, h⟩
    · intro h
      obtain ⟨others, ds, hnone, rfl, h⟩ := h
      obtain rfl := List.length_eq_zero_iff.mp hnone
      exact h
  | succ n ih =>
    simp only [groupsThen, Pattern.takes_seq, takes_dot, takes_upToThreeDigits, ih]
    constructor
    · intro h
      obtain ⟨_, _, rfl, ⟨s, rfl⟩, _, _, rfl, ⟨g, rfl⟩, others, ds, hlen, rfl, h⟩ := h
      refine ⟨(s, g) :: others, ds, ?_, ?_, ?_⟩
      · rw [List.length_cons, hlen]
      · simp [OtherGroups.chars]
      · simpa [OtherGroups.chars, Pattern.lastOf_append] using h
    · intro h
      obtain ⟨others, ds, hlen, rfl, h⟩ := h
      obtain ⟨⟨s, g⟩, others, rfl⟩ := List.exists_cons_of_length_eq_add_one hlen
      refine ⟨s.chars, _, ?_, ⟨s, rfl⟩, g.digits, _, rfl, ⟨g, rfl⟩, others, ds, by simpa using hlen, rfl, ?_⟩
      · simp [OtherGroups.chars]
      · simpa [OtherGroups.chars, Pattern.lastOf_append] using h

private theorem address_eq : address = .seq .boundary (.seq upToThreeDigits (groupsThen .boundary 3)) := rfl

private theorem DigitGroup.isWord (g : DigitGroup) : ∀ c ∈ g.digits, Text.isWord c = true :=
  fun c hc => Text.isWord_of_isDecimal (g.decimal c hc)

private theorem Address.inWord_lastOf (a : Address) (before : Option Char) :
    inWord (lastOf before (a.chars Separator.chars)) = true := by
  have hothers (others : OtherGroups) (start : Option Char) (hstart : inWord start = true) :
      inWord (lastOf start (others.chars Separator.chars)) = true := by
    induction others generalizing start with
    | nil => exact hstart
    | cons other others ih =>
      rw [OtherGroups.chars, List.flatMap_cons, Pattern.lastOf_append, Pattern.lastOf_append]
      exact ih _ (Pattern.inWord_lastOf other.2.nonempty other.2.isWord _)
  rw [Address.chars, Pattern.lastOf_append]
  exact hothers _ _ (Pattern.inWord_lastOf a.first.nonempty a.first.isWord before)

private theorem takes_address : Takes address before cs rest ↔ ∃ a : Address, cs = a.chars Separator.chars ∧
      inWord before = false ∧ inWord rest.head? = false := by
  rw [address_eq]
  simp only [Pattern.takes_seq, Pattern.takes_boundary, takes_upToThreeDigits, takes_groupsThen]
  constructor
  · intro h
    obtain ⟨_, _, rfl, ⟨rfl, hbefore⟩, _, _, rfl, ⟨g, rfl⟩, others, _, hlen, rfl, rfl, hafter⟩ := h
    have hend := Address.inWord_lastOf ⟨g, others, hlen⟩ before
    rw [Address.chars, Pattern.lastOf_append] at hend
    rw [List.append_assoc, Pattern.inWord_head?_append g.nonempty g.isWord] at hbefore
    rw [Pattern.lastOf_nil, hend] at hafter
    exact ⟨⟨g, others, hlen⟩, by simp [Address.chars], by simpa using hbefore, by simpa using hafter.symm⟩
  · intro h
    obtain ⟨a, rfl, hbefore, hafter⟩ := h
    have hend := a.inWord_lastOf before
    rw [Address.chars, Pattern.lastOf_append] at hend
    refine ⟨[], a.chars Separator.chars, rfl, ⟨rfl, ?_⟩, a.first.digits, a.others.chars Separator.chars, rfl,
      ⟨a.first, rfl⟩, a.others, [], a.four, by simp, rfl, ?_⟩
    · rw [hbefore, Address.chars, List.append_assoc,
        Pattern.inWord_head?_append a.first.nonempty a.first.isWord]
      exact Bool.noConfusion
    · rw [Pattern.lastOf_nil, hend, hafter]
      exact Bool.noConfusion

/-! Reading an address -/

theorem OtherGroups.head?_chars (others : OtherGroups) (hrest : ∀ c ∈ rest.head?, isDecimal c = false) :
    ∀ c ∈ (others.chars Separator.chars ++ rest).head?, isDecimal c = false := by
  cases others with
  | nil => exact hrest
  | cons other others =>
    intro c hc
    obtain ⟨d, ds, hd⟩ := List.exists_cons_of_ne_nil other.1.chars_ne_nil
    have hcd : d = c := by simpa [OtherGroups.chars, hd] using hc
    exact Separator.isDecimal_of_mem_chars (s := other.1) (by simp [hd, hcd])

private theorem OtherGroups.eq_of_append_eq {others others' : OtherGroups} {rest' : List Char}
    (hlen : others.length = others'.length) (hrest : ∀ c ∈ rest.head?, isDecimal c = false)
    (hrest' : ∀ c ∈ rest'.head?, isDecimal c = false)
    (h : others.chars Separator.chars ++ rest = others'.chars Separator.chars ++ rest') :
    others = others' ∧ rest = rest' := by
  induction others generalizing others' with
  | nil =>
    obtain rfl := List.length_eq_zero_iff.mp hlen.symm
    exact ⟨rfl, h⟩
  | cons other others ih =>
    obtain ⟨other', others', rfl⟩ := List.exists_cons_of_length_eq_add_one hlen.symm
    simp only [OtherGroups.chars, List.flatMap_cons, List.append_assoc] at h
    have hdigit (g : DigitGroup) (more : List Char) :
        ∀ c ∈ (g.digits ++ more).head?, (!isDecimal c) = false := by
      intro c hc
      obtain ⟨d, ds, hd⟩ := List.exists_cons_of_ne_nil g.nonempty
      have hcd : d = c := by simpa [hd] using hc
      simpa [hcd] using g.decimal d (by simp [hd])
    have hseparator (s : Separator) : ∀ c ∈ s.chars, (!isDecimal c) = true := by
      intro c hc
      rw [Separator.isDecimal_of_mem_chars hc]
      rfl
    obtain ⟨hsame, h⟩ := Text.eq_of_run_append_eq (hseparator _) (hdigit _ _) (hseparator _) (hdigit _ _) h
    obtain ⟨hdigits, h⟩ := Text.eq_of_run_append_eq other.2.decimal (head?_chars others hrest)
      other'.2.decimal (head?_chars others' hrest') h
    obtain ⟨rfl, hrests⟩ := ih (by simpa using hlen) h
    have hother : other = other' := Prod.ext (Separator.chars_injective hsame) (DigitGroup.ext hdigits)
    exact ⟨by rw [hother], hrests⟩

private theorem Address.eq_of_append_eq {b : Address} {rest' : List Char}
    (hrest : ∀ c ∈ rest.head?, isDecimal c = false) (hrest' : ∀ c ∈ rest'.head?, isDecimal c = false)
    (h : a.chars Separator.chars ++ rest = b.chars Separator.chars ++ rest') : a = b ∧ rest = rest' := by
  simp only [Address.chars, List.append_assoc] at h
  obtain ⟨hfirst, h⟩ := Text.eq_of_run_append_eq a.first.decimal (a.others.head?_chars hrest)
    b.first.decimal (b.others.head?_chars hrest') h
  obtain ⟨hothers, hrests⟩ := OtherGroups.eq_of_append_eq (a.four.trans b.four.symm) hrest hrest' h
  exact ⟨Address.ext (DigitGroup.ext hfirst) hothers, hrests⟩

private theorem Address.written_injective {b : Address} (h : a.written = b.written) : a = b := by
  have hchars : a.chars Separator.chars = b.chars Separator.chars := by
    simpa [Address.written] using congrArg String.toList h
  have hend : ∀ c ∈ ([] : List Char).head?, isDecimal c = false := by simp
  have hsame : a.chars Separator.chars ++ [] = b.chars Separator.chars ++ [] := by rw [hchars]
  exact (Address.eq_of_append_eq hend hend hsame).1

/-! Cleaning an address -/

private theorem not_mem_rule_of_isDecimal (hc : isDecimal c = true) : ∀ rule ∈ cleaningRules, c ∉ rule.1 := by
  have hnone : (cleaningRules.all fun rule => rule.1.all (!isDecimal ·)) = true := by decide
  intro rule hrule hmem
  have hfree := List.all_eq_true.mp (List.all_eq_true.mp hnone rule hrule) c hmem
  simp [hc] at hfree

private theorem replaceEach_append_digits (g : DigitGroup) (a b : List Char) :
    replaceEach cleaningRules (a ++ g.digits ++ b) =
      replaceEach cleaningRules a ++ g.digits ++ replaceEach cleaningRules b := by
  have hold : ∀ rule ∈ cleaningRules, rule.1 ≠ [] := by decide
  apply Text.replaceEach_append_block g.nonempty
  intro rule hrule
  exact ⟨hold rule hrule, fun c hc => not_mem_rule_of_isDecimal (g.decimal c hc) rule hrule⟩

private theorem OtherGroups.replaceEach_chars (others : OtherGroups) :
    replaceEach cleaningRules (others.chars Separator.chars) = others.chars Separator.cleaned := by
  induction others with
  | nil => exact Text.replaceEach_empty _
  | cons other others ih =>
    simp only [OtherGroups.chars, List.flatMap_cons] at ih ⊢
    rw [replaceEach_append_digits, Separator.replaceEach_chars, ih]

private theorem Address.toList_clean_written (a : Address) :
    (clean a.written).toList = a.chars Separator.cleaned := by
  have hsplit := replaceEach_append_digits a.first [] (a.others.chars Separator.chars)
  rw [List.nil_append, Text.replaceEach_empty, List.nil_append, OtherGroups.replaceEach_chars] at hsplit
  rw [toList_clean, Address.written, String.toList_ofList]
  exact hsplit

theorem Address.mem_chars_iff {write : Separator → List Char} (hc : isDecimal c = false) :
    c ∈ a.chars write ↔ ∃ s ∈ a.separators, c ∈ write s := by
  have hgroup (g : DigitGroup) : c ∉ g.digits := by
    intro hmem
    rw [g.decimal c hmem] at hc
    cases hc
  simp [Address.chars, OtherGroups.chars, Address.separators, hgroup]

private theorem Address.chars_congr {write write' : Separator → List Char}
    (h : ∀ s ∈ a.separators, write s = write' s) : a.chars write = a.chars write' := by
  rw [Address.chars, Address.chars, OtherGroups.chars, OtherGroups.chars]
  congr 1
  apply List.flatMap_congr
  intro other hother
  rw [h other.1 (List.mem_map_of_mem hother)]

def Separator.isBroken (s : Separator) : Prop :=
  s.text ∈ ["[.", ".]"]

private theorem Separator.isBroken_iff (s : Separator) : s.isBroken ↔ '[' ∈ s.cleaned ∨ ']' ∈ s.cleaned := by
  cases s <;> simp [isBroken, text, cleaned]

private theorem Separator.not_isBroken_iff (s : Separator) : ¬ s.isBroken ↔ s.text ∈ [".", "[.]", "(.)"] := by
  cases s <;> simp [isBroken, text]

private theorem Separator.cleaned_of_not_isBroken {s : Separator} (h : ¬ s.isBroken) : s.cleaned = ['.'] := by
  cases s <;> simp_all [isBroken, text, cleaned]

/-- Brackets are left exactly where a separator has but one of them. -/
theorem Address.bracket_mem_clean_iff (a : Address) :
    ('[' ∈ (clean a.written).toList ∨ ']' ∈ (clean a.written).toList) ↔ ∃ s ∈ a.separators, s.isBroken := by
  rw [a.toList_clean_written, mem_chars_iff (by decide), mem_chars_iff (by decide), ← exists_or]
  simp only [← and_or_left, ← Separator.isBroken_iff]

theorem Address.bracket_notMem_dotted (a : Address) : '[' ∉ a.dotted.toList ∧ ']' ∉ a.dotted.toList := by
  rw [dotted, String.toList_ofList, mem_chars_iff (by decide), mem_chars_iff (by decide)]
  simp

private theorem Address.clean_written_ne_dotted (h : ∃ s ∈ a.separators, s.isBroken) (b : Address) :
    clean a.written ≠ b.dotted := by
  intro hsame
  obtain ⟨hopen, hclose⟩ := b.bracket_notMem_dotted
  rw [← hsame] at hopen hclose
  rcases a.bracket_mem_clean_iff.mpr h with hmem | hmem
  · exact hopen hmem
  · exact hclose hmem

private theorem Address.clean_written_eq_dotted (h : ∀ s ∈ a.separators, ¬ s.isBroken) :
    clean a.written = a.dotted := by
  apply String.toList_injective
  rw [a.toList_clean_written, dotted, String.toList_ofList]
  exact chars_congr fun s hs => Separator.cleaned_of_not_isBroken (h s hs)

/-- An address that is found in a text is four groups of digits, and can be read in one way only. Cleaned it
is the groups joined by plain dots exactly if each separator is a dot, alone or between two brackets or
parentheses. Where one has a single bracket the cleaned address has a bracket still, and is no address with
plain dots at all. -/
theorem clean_extracted_address {text value : String} (h : value ∈ valuesOf .ip (extract text)) :
    (∃! a : Address, value = a.written) ∧ ∀ a : Address, value = a.written →
      (clean value = a.dotted ↔ ∀ s ∈ a.separators, s.text ∈ [".", "[.]", "(.)"]) ∧
      ((∃ s ∈ a.separators, s.text ∈ ["[.", ".]"]) →
        ('[' ∈ (clean value).toList ∨ ']' ∈ (clean value).toList) ∧
          ∀ b : Address, clean value ≠ b.dotted) := by
  rw [(valuesOf_extract text).1] at h
  obtain ⟨pre, rest, -, -, htakes⟩ := Pattern.mem_findAll h
  obtain ⟨a, ha, -⟩ := takes_address.mp htakes
  have hvalue : value = a.written := by rw [Address.written, ← ha, String.ofList_toList]
  refine ⟨⟨a, hvalue, fun b hb => Address.written_injective (hb.symm.trans hvalue)⟩, ?_⟩
  rintro b rfl
  refine ⟨?_, fun hbroken => ⟨b.bracket_mem_clean_iff.mpr hbroken, Address.clean_written_ne_dotted hbroken⟩⟩
  simp only [← Separator.not_isBroken_iff]
  constructor
  · intro hsame s hs hbroken
    exact Address.clean_written_ne_dotted ⟨s, hs, hbroken⟩ b hsame
  · exact Address.clean_written_eq_dotted

def DigitGroup.single (c : Char) (h : isDecimal c = true) : DigitGroup :=
  ⟨[c], by simpa using h, by simp, by simp⟩

def countingAddress (s t u : Separator) : Address where
  first := .single '1' rfl
  others := [(s, .single '2' rfl), (t, .single '3' rfl), (u, .single '4' rfl)]
  four := rfl

theorem clean_extracted_address_with_half_a_pair :
    "1[.]2(.)3[.4" ∈ valuesOf .ip (extract "C2: 1[.]2(.)3[.4") ∧
      (∃! a : Address, "1[.]2(.)3[.4" = a.written) ∧
      '[' ∈ (clean "1[.]2(.)3[.4").toList ∧ ∀ b : Address, clean "1[.]2(.)3[.4" ≠ b.dotted := by
  have hfound : "1[.]2(.)3[.4" ∈ valuesOf .ip (extract "C2: 1[.]2(.)3[.4") := by decide +kernel
  obtain ⟨hunique, hclean⟩ := clean_extracted_address hfound
  have hwritten : "1[.]2(.)3[.4" = (countingAddress .bracketed .parenthesized .opened).written := by decide
  have hbroken := (hclean _ hwritten).2 ⟨.opened, by simp [countingAddress, Address.separators], by decide⟩
  exact ⟨hfound, hunique, by decide +kernel, hbroken.2⟩

/-! Finding an address -/

theorem isDecimal_of_not_inWord {c : Option Char} (h : inWord c = false) : ∀ d ∈ c, isDecimal d = false := by
  intro d hd
  by_contra hdecimal
  rw [Bool.not_eq_false] at hdecimal
  have hnone := Pattern.inWord_eq_false_iff.mp h d hd
  rw [Text.isWord_of_isDecimal hdecimal] at hnone
  cases hnone

private theorem mayHold_address (c : Char) : address.mayHold c = (isDecimal c || dot.mayHold c) := by
  simp only [address, upToThreeDigits, Pattern.sequence, Pattern.mayHold]
  cases isDecimal c <;> cases dot.mayHold c <;> rfl

/-- An address is found where it stands exactly if no word character is next to it. Before it there must be
nothing that could be a part of another one. -/
theorem Address.mem_locate_iff (a : Address) {before : List Char} (after : List Char)
    (hgap : ∀ c ∈ before.getLast?, dot.mayHold c = false) :
    (before.length, a.written) ∈
        address.locate (String.ofList (before ++ (a.chars Separator.chars ++ after))) ↔
      inWord before.getLast? = false ∧ inWord after.head? = false := by
  have hlast : lastOf none before = before.getLast? := Option.or_none
  constructor
  · intro h
    obtain ⟨pre, rest, hsplit, hplace, htakes⟩ := Pattern.mem_locate h
    rw [String.toList_ofList, written, String.toList_ofList, List.append_assoc] at hsplit
    obtain ⟨rfl, hrest⟩ := List.append_inj hsplit hplace
    obtain rfl := List.append_cancel_left hrest
    obtain ⟨-, -, hbefore, hafter⟩ := takes_address.mp htakes
    exact ⟨by rwa [hlast] at hbefore, hafter⟩
  · intro h
    obtain ⟨hbefore, hafter⟩ := h
    have hapart : ∀ c ∈ before.getLast?, address.mayHold c = false := by
      intro c hc
      rw [mayHold_address, isDecimal_of_not_inWord hbefore c hc, hgap c hc]
      rfl
    have hne : a.chars Separator.chars ≠ [] := List.append_ne_nil_of_left_ne_nil a.first.nonempty _
    have htakes : Takes address (lastOf none before) (a.chars Separator.chars) after :=
      takes_address.mpr ⟨a, rfl, by rwa [hlast], hafter⟩
    apply Pattern.mem_locate_of_unique (by decide) hapart hne htakes
    intro other more hsplit hother
    obtain ⟨b, rfl, -, hmore⟩ := takes_address.mp hother
    rw [(Address.eq_of_append_eq (isDecimal_of_not_inWord hmore) (isDecimal_of_not_inWord hafter) hsplit).1]

/-- A character that is no letter, digit or underscore of ASCII, and no part of a separator. -/
def isBorder (c : Char) : Bool :=
  !(c.isAlphanum || ['_', '.', '[', ']', '(', ')'].contains c)

private theorem mayHold_dot_of_isBorder (h : isBorder c = true) : dot.mayHold c = false := by
  simp only [isBorder, Bool.not_eq_true', Bool.or_eq_false_iff, List.contains_eq_mem, decide_eq_false_iff_not,
    List.mem_cons, List.not_mem_nil, or_false, not_or] at h
  obtain ⟨-, -, hdot, hopen, hclose, hleft, hright⟩ := h
  simp [dot, Pattern.firstOf, Pattern.sequence, Pattern.optional, Pattern.char, Pattern.one,
    Pattern.mayHold, hdot, hopen, hclose, hleft, hright]

private theorem le_toNat_of_isBorder (h : isBorder c = true) (hword : isWord c = true) : 128 ≤ c.toNat := by
  by_contra hascii
  simp only [isBorder, Bool.not_eq_true', Bool.or_eq_false_iff, List.contains_eq_mem, decide_eq_false_iff_not,
    List.mem_cons, not_or] at h
  rw [Text.isWord, if_pos (by omega)] at hword
  simp [h.1, h.2.1] at hword

/-- An address between characters that are no letters, digits, underscores or parts of a separator in ASCII is
missed exactly if one of the two is a letter or digit of another script. So it is missed whenever a Korean
syllable is attached to it. -/
theorem extract_misses_address_iff (before after : String) (a : Address)
    (hbefore : ∀ c ∈ before.toList.getLast?, isBorder c = true)
    (hafter : ∀ c ∈ after.toList.head?, isBorder c = true) :
    valuesOf .ip (extract (before ++ a.written ++ after)) =
      (address.locate (before ++ a.written ++ after)).map Prod.snd ∧
    ((before.length, a.written) ∉ address.locate (before ++ a.written ++ after) ↔
      ∃ c, (c ∈ before.toList.getLast? ∨ c ∈ after.toList.head?) ∧ 128 ≤ c.toNat ∧ isWord c = true) ∧
    ((∃ c, (c ∈ before.toList.getLast? ∨ c ∈ after.toList.head?) ∧ Text.isHangul c = true) →
      (before.length, a.written) ∉ address.locate (before ++ a.written ++ after)) := by
  have hlocate := a.mem_locate_iff after.toList fun c hc => mayHold_dot_of_isBorder (hbefore c hc)
  have htext : String.ofList (before.toList ++ (a.chars Separator.chars ++ after.toList)) =
      before ++ a.written ++ after := by
    apply String.toList_injective
    simp [Address.written]
  rw [htext, String.length_toList, Pattern.inWord_eq_false_iff, Pattern.inWord_eq_false_iff] at hlocate
  have hmissed : (before.length, a.written) ∉ address.locate (before ++ a.written ++ after) ↔
      ∃ c, (c ∈ before.toList.getLast? ∨ c ∈ after.toList.head?) ∧ isWord c = true := by
    rw [hlocate]
    grind
  refine ⟨?_, ?_, ?_⟩
  · rw [(valuesOf_extract _).1, Pattern.map_snd_locate]
  · rw [hmissed]
    apply exists_congr
    intro c
    constructor
    · intro hc
      obtain ⟨hnext, hword⟩ := hc
      exact ⟨hnext, le_toNat_of_isBorder (hnext.elim (hbefore c) (hafter c)) hword, hword⟩
    · intro hc
      exact ⟨hc.1, hc.2.2⟩
  · intro h
    obtain ⟨c, hnext, hhangul⟩ := h
    exact hmissed.mpr ⟨c, hnext, Text.isWord_of_isHangul hhangul⟩

theorem extract_misses_address_before_particle :
    valuesOf .ip (extract "서버 1.2.3.4에서") = [] ∧
      (3, "1.2.3.4") ∉ address.locate "서버 1.2.3.4에서" ∧ (3, "1.2.3.4") ∈ address.locate "서버 1.2.3.4 에서" := by
  have hwritten : (countingAddress .plain .plain .plain).written = "1.2.3.4" := by decide
  have hbefore : ∀ c ∈ "서버 ".toList.getLast?, isBorder c = true := by simp; decide
  have hparticle := extract_misses_address_iff "서버 " "에서" (countingAddress .plain .plain .plain) hbefore
    (by simp; decide)
  have hblank := extract_misses_address_iff "서버 " " 에서" (countingAddress .plain .plain .plain) hbefore
    (by simp; decide)
  rw [hwritten] at hparticle hblank
  refine ⟨by decide +kernel, ?_, ?_⟩
  · exact hparticle.2.2 ⟨'에', by decide, by decide⟩
  · by_contra hmissed
    obtain ⟨c, hc, hfar, -⟩ := hblank.2.1.mp hmissed
    have hspace : ' ' = c := by simpa using hc
    rw [← hspace] at hfar
    exact absurd hfar (by decide)

end ThreatAtlas.Indicator
