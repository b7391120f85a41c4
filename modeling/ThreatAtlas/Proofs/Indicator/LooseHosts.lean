import ThreatAtlas.Proofs.Indicator.Hosts
import ThreatAtlas.Proofs.Pattern.Search

/-!
# Hosts in drafts

The form of a host takes a dot behind every label and then the dot, perhaps in brackets, that the last label
stands behind. So it takes no host as hosts are written. It takes those of which the last dot is doubled,
and it finds each of them.
-/

namespace ThreatAtlas.Indicator

open Pattern (Takes isLetterAnyCase inWord lastOf)
open Text (isWord splitChars)

def isLabel (label : List Char) : Bool :=
  !label.isEmpty && label.all isHostChar

private theorem isLabel_iff {label : List Char} :
    isLabel label = true ↔ label ≠ [] ∧ ∀ c ∈ label, isHostChar c = true := by
  simp [isLabel]

/-- A host: the labels before its last one, the brackets about its last dot, and its last label. -/
structure LooseHost where
  earlier : List (List Char)
  label : List Char
  opened : Bool
  closed : Bool
  top : List Char
  labelled : ∀ l ∈ earlier ++ [label], isLabel l = true
  letters : ∀ c ∈ top, isLetterAnyCase c = true
  long : 2 ≤ top.length

def dotted (labels : List (List Char)) : List Char :=
  labels.flatMap (· ++ ['.'])

namespace LooseHost

variable (h : LooseHost)

def opening : List Char :=
  if h.opened then ['['] else []

def ending : List Char :=
  (if h.closed then [']'] else []) ++ h.top

def written : List Char :=
  dotted h.earlier ++ (h.label ++ (h.opening ++ '.' :: h.ending))

def doubled : List Char :=
  dotted (h.earlier ++ [h.label]) ++ (h.opening ++ '.' :: h.ending)

private theorem dot_notMem_of_isLabel {label : List Char} (hlabel : isLabel label = true) : '.' ∉ label := by
  intro hdot
  exact absurd ((isLabel_iff.mp hlabel).2 _ hdot) (by decide)

private theorem eq_of_mem_opening {c : Char} (hc : c ∈ h.opening) : c = '[' := by
  unfold opening at hc
  split at hc
  · exact List.mem_singleton.mp hc
  · cases hc

private theorem dot_notMem_opening : '.' ∉ h.opening := by
  intro hdot
  exact absurd (h.eq_of_mem_opening hdot) (by decide)

private theorem dot_notMem_ending : '.' ∉ h.ending := by
  intro hdot
  rcases List.mem_append.mp hdot with hclosing | htop
  · split at hclosing
    · exact absurd hclosing (by decide)
    · cases hclosing
  · exact absurd (h.letters _ htop) (by decide)

private theorem opening_ne_append {label : List Char} (hlabel : isLabel label = true) (b : List Char) :
    h.opening ≠ label ++ b := by
  intro heq
  obtain ⟨hne, hall⟩ := isLabel_iff.mp hlabel
  obtain ⟨c, cs, rfl⟩ := List.exists_cons_of_ne_nil hne
  have hhost : isHostChar c = true := hall c (by simp)
  rw [h.eq_of_mem_opening (show c ∈ h.opening by simp [heq])] at hhost
  exact absurd hhost (by decide)

private theorem splitChars_dotted {labels : List (List Char)} (hlabels : ∀ l ∈ labels, isLabel l = true)
    (b : List Char) : splitChars '.' (dotted labels ++ b) = labels ++ splitChars '.' b := by
  induction labels with
  | nil => rfl
  | cons l labels ih =>
    have hl : '.' ∉ l := dot_notMem_of_isLabel (hlabels l (by simp))
    have hrest : ∀ m ∈ labels, isLabel m = true := fun m hm => hlabels m (by simp [hm])
    calc splitChars '.' (dotted (l :: labels) ++ b)
        = splitChars '.' (l ++ '.' :: (dotted labels ++ b)) := by simp [dotted]
      _ = l :: (labels ++ splitChars '.' b) := by rw [Text.splitChars_append_cons hl, ih hrest]

private theorem splitChars_doubled_append (more : List Char) :
    splitChars '.' (h.doubled ++ more) =
      (h.earlier ++ [h.label]) ++ h.opening :: splitChars '.' (h.ending ++ more) := by
  rw [doubled, List.append_assoc, splitChars_dotted h.labelled, List.append_assoc h.opening,
    List.cons_append, Text.splitChars_append_cons h.dot_notMem_opening]

private theorem splitChars_doubled :
    splitChars '.' h.doubled = (h.earlier ++ [h.label]) ++ [h.opening, h.ending] := by
  have hpieces := h.splitChars_doubled_append []
  rwa [List.append_nil, List.append_nil, Text.splitChars_of_notMem h.dot_notMem_ending] at hpieces

private theorem splitChars_written :
    splitChars '.' h.written = h.earlier ++ [h.label ++ h.opening, h.ending] := by
  have hlabel : '.' ∉ h.label ++ h.opening := by
    rw [List.mem_append, not_or]
    exact ⟨dot_notMem_of_isLabel (h.labelled _ (by simp)), h.dot_notMem_opening⟩
  rw [written, splitChars_dotted (fun l hl => h.labelled l (by simp [hl])), ← List.append_assoc h.label,
    Text.splitChars_append_cons hlabel, Text.splitChars_of_notMem h.dot_notMem_ending]

private theorem written_ne_doubled (other : LooseHost) : h.written ≠ other.doubled := by
  intro heq
  have hpieces := congrArg (splitChars '.') heq
  rw [splitChars_written, splitChars_doubled] at hpieces
  obtain ⟨-, hends⟩ := List.append_inj' hpieces rfl
  rw [List.cons.injEq] at hends
  exact other.opening_ne_append (h.labelled _ (by simp)) h.opening hends.1.symm

private theorem dropWhile_isLabel (rest : List (List Char)) :
    ((h.earlier ++ [h.label]) ++ h.opening :: rest).dropWhile isLabel = h.opening :: rest := by
  have hopening : ¬ isLabel h.opening = true := by
    intro hlabel
    exact h.opening_ne_append hlabel [] (List.append_nil _).symm
  rw [List.dropWhile_append_of_pos h.labelled, List.dropWhile_cons_of_neg hopening]

theorem ending_append_eq {other : LooseHost} {more : List Char} (heq : other.doubled ++ more = h.doubled) :
    other.ending ++ more = h.ending := by
  have hpieces := congrArg (splitChars '.') heq
  rw [splitChars_doubled_append, splitChars_doubled] at hpieces
  have hdropped := congrArg (List.dropWhile isLabel) hpieces
  rw [dropWhile_isLabel, dropWhile_isLabel, List.cons.injEq] at hdropped
  exact Text.eq_of_splitChars_eq_singleton hdropped.2

theorem isLetter_of_mem_tail_ending {c : Char} (hc : c ∈ h.ending.tail) : isLetterAnyCase c = true := by
  refine h.letters c ?_
  unfold ending at hc
  split at hc
  · exact hc
  · exact List.mem_of_mem_tail hc

private theorem ending_ne_nil : h.ending ≠ [] := by
  intro hnil
  have htop : h.top = [] := (List.append_eq_nil_iff.mp hnil).2
  have hlong := h.long
  rw [htop] at hlong
  exact absurd hlong (by decide)

private theorem isLetter_of_mem_more {other : LooseHost} {more : List Char}
    (heq : other.doubled ++ more = h.doubled) : ∀ c ∈ more, isLetterAnyCase c = true := by
  intro c hc
  refine h.isLetter_of_mem_tail_ending ?_
  rw [← h.ending_append_eq heq, List.tail_append_of_ne_nil other.ending_ne_nil]
  exact List.mem_append_right _ hc

private theorem head?_doubled : ∃ c, h.doubled.head? = some c ∧ isHostChar c = true := by
  have hne : h.earlier ++ [h.label] ≠ [] := List.append_ne_nil_of_right_ne_nil _ (List.cons_ne_nil _ _)
  obtain ⟨l, labels, hl⟩ := List.exists_cons_of_ne_nil hne
  obtain ⟨hcs, hall⟩ := isLabel_iff.mp (h.labelled l (by simp [hl]))
  obtain ⟨c, cs, rfl⟩ := List.exists_cons_of_ne_nil hcs
  exact ⟨c, by simp [doubled, hl, dotted], hall c (by simp)⟩

end LooseHost

variable {cs rest : List Char} {before : Option Char}

private theorem takes_label : Takes (.seq (.span isHostChar 1 none) (.char '.')) before cs rest ↔
      ∃ l, isLabel l = true ∧ cs = l ++ ['.'] := by
  simp only [Pattern.takes_seq, Pattern.takes_span, Pattern.takes_char, isLabel_iff]
  constructor
  · rintro ⟨l, _, rfl, ⟨hall, hlen, -⟩, rfl⟩
    exact ⟨l, ⟨List.ne_nil_of_length_pos hlen, hall⟩, rfl⟩
  · rintro ⟨l, ⟨hne, hall⟩, rfl⟩
    exact ⟨l, ['.'], rfl, ⟨hall, List.length_pos_iff.mpr hne, by simp⟩, rfl⟩

private theorem takes_labels :
    Takes labels before cs rest ↔ ∃ earlier label, (∀ l ∈ earlier ++ [label], isLabel l = true) ∧
      cs = dotted (earlier ++ [label]) := by
  constructor
  · intro htakes
    generalize hp : labels = p at htakes
    induction htakes with
    | once taken _ =>
      obtain rfl := (Pattern.many.inj hp).symm
      obtain ⟨l, hl, rfl⟩ := takes_label.mp taken
      exact ⟨[], l, by simpa using hl, by simp [dotted]⟩
    | more first _ _ ih =>
      obtain rfl := (Pattern.many.inj hp).symm
      obtain ⟨l, hl, rfl⟩ := takes_label.mp first
      obtain ⟨earlier, label, hlabels, rfl⟩ := ih hp
      exact ⟨l :: earlier, label, by simpa [hl] using hlabels, rfl⟩
    | span | boundary | finish | seq | left | right => cases hp
  · rintro ⟨earlier, label, hlabels, rfl⟩
    induction earlier generalizing before with
    | nil => exact .once (takes_label.mpr ⟨label, hlabels label (by simp), by simp [dotted]⟩)
    | cons l earlier ih =>
      have hl : isLabel l = true := hlabels l (by simp)
      exact .more (takes_label.mpr ⟨l, hl, rfl⟩) (ih fun m hm => hlabels m (List.mem_cons_of_mem l hm))

private theorem takes_bracketedDot : Takes bracketedDot before cs rest ↔ ∃ opened closed : Bool,
      cs = (if opened then ['['] else []) ++ '.' :: (if closed then [']'] else []) := by
  simp only [bracketedDot, Pattern.sequence, Pattern.takes_seq, Pattern.takes_char, Pattern.takes_optional]
  constructor
  · rintro ⟨opening, _, rfl, hopening, _, closing, rfl, rfl, hclosing⟩
    rcases hopening with rfl | rfl <;> rcases hclosing with rfl | rfl
    · exact ⟨false, false, rfl⟩
    · exact ⟨false, true, rfl⟩
    · exact ⟨true, false, rfl⟩
    · exact ⟨true, true, rfl⟩
  · rintro ⟨opened, closed, rfl⟩
    refine ⟨_, _, rfl, ?_, ['.'], if closed then [']'] else [], rfl, rfl, ?_⟩
    · cases opened <;> simp
    · cases closed <;> simp

private theorem isWord_of_isHostChar_ascii :
    ∀ n < 128, isHostChar (Char.ofNat n) = true → Char.ofNat n ≠ '-' → isWord (Char.ofNat n) = true := by
  decide

theorem isWord_of_isHostChar {c : Char} (hhost : isHostChar c = true) (hne : c ≠ '-') : isWord c = true := by
  rcases isHostChar_cases hhost with hascii | hother
  · have hword := isWord_of_isHostChar_ascii c.toNat hascii
    rw [Char.ofNat_toNat] at hword
    exact hword hhost hne
  · have hall : (['\u017f', '\u212a', '\u0130', '\u0131'].all isWord) = true := by
      decide +kernel
    exact List.all_eq_true.mp hall c hother

theorem isWord_of_isLetterAnyCase {c : Char} (hletter : isLetterAnyCase c = true) : isWord c = true := by
  have hne : c ≠ '-' := by
    rintro rfl
    exact absurd hletter (by decide)
  exact isWord_of_isHostChar (by simp [isHostChar, hletter]) hne

private theorem takes_looseHost : Takes looseHost before cs rest ↔ ∃ h : LooseHost, cs = h.doubled ∧
      inWord before ≠ inWord (cs ++ rest).head? ∧ inWord rest.head? = false := by
  have hword {top : List Char} (hletters : ∀ c ∈ top, isLetterAnyCase c = true) (hlong : 2 ≤ top.length)
      (before : Option Char) : inWord (lastOf before top) = true :=
    Pattern.inWord_lastOf (List.ne_nil_of_length_pos (by omega))
      (fun c hc => isWord_of_isLetterAnyCase (hletters c hc)) before
  simp only [looseHost, Pattern.sequence, Pattern.takes_seq, takes_labels, Pattern.takes_boundary,
    takes_bracketedDot, Pattern.takes_span]
  constructor
  · rintro ⟨_, _, rfl, ⟨rfl, hfirst⟩, _, _, rfl, ⟨earlier, label, hlabels, rfl⟩, _, _, rfl,
      ⟨opened, closed, rfl⟩, top, _, rfl, ⟨hletters, hlong, -⟩, rfl, hlast⟩
    rw [hword hletters hlong] at hlast
    refine ⟨⟨earlier, label, opened, closed, top, hlabels, hletters, hlong⟩, ?_, hfirst, ?_⟩
    · simp [LooseHost.doubled, LooseHost.opening, LooseHost.ending]
    · simpa using hlast.symm
  · rintro ⟨h, rfl, hfirst, hlast⟩
    refine ⟨[], h.doubled, rfl, ⟨rfl, hfirst⟩, _, _, rfl, ⟨h.earlier, h.label, h.labelled, rfl⟩,
      h.opening ++ '.' :: (if h.closed then [']'] else []), h.top, by simp [LooseHost.ending],
      ⟨h.opened, h.closed, rfl⟩, h.top, [], by simp, ⟨h.letters, h.long, by simp⟩, rfl, ?_⟩
    rw [hword h.letters h.long]
    simp [hlast]

private theorem namesOf_domain_indicators (text : String) :
    namesOf "Domain" (Draft.indicators text) =
      (looseHost.findAll text).filter (!namesAny Draft.excludedHosts ·) := by
  unfold Draft.indicators
  simp

private theorem exists_doubled_of_mem_findAll {text name : String} (hname : name ∈ looseHost.findAll text) :
    ∃ h : LooseHost, name = String.ofList h.doubled := by
  obtain ⟨_, _, -, -, htakes⟩ := Pattern.mem_findAll hname
  obtain ⟨h, hdoubled, -⟩ := takes_looseHost.mp htakes
  exact ⟨h, by rw [← hdoubled, String.ofList_toList]⟩

private theorem eq_doubled_of_takes (h : LooseHost) {other more after : List Char}
    (hafter : ∀ c ∈ after.head?, c = ' ') (heq : other ++ more = h.doubled ++ after)
    (htakes : Takes looseHost before other more) : other = h.doubled := by
  have hblank : ' ' ∉ other := by
    intro hmem
    exact absurd (htakes.mayHold hmem) (by decide)
  obtain ⟨k, rfl, -, hlast⟩ := takes_looseHost.mp htakes
  rcases List.append_eq_append_iff.mp heq with ⟨beyond, hdoubled, rfl⟩ | ⟨beyond, hdoubled, rfl⟩
  · -- What is left of the host would go on with a letter, where its word must have ended.
    rcases eq_or_ne beyond [] with rfl | hne
    · rw [hdoubled, List.append_nil]
    · have hletters := h.isLetter_of_mem_more hdoubled.symm
      have hword := Pattern.inWord_head?_append hne
        (fun c hc => isWord_of_isLetterAnyCase (hletters c hc)) after
      rw [hlast] at hword
      cases hword
  · cases beyond with
    | nil => rw [hdoubled, List.append_nil]
    | cons c beyond =>
      obtain rfl := hafter c rfl
      exact absurd (by simp [hdoubled]) hblank

theorem doubled_mem_findAll (h : LooseHost) {before after : List Char} (hfirst : h.doubled.head? ≠ some '-')
    (hbefore : ∀ c ∈ before.getLast?, c = ' ') (hafter : ∀ c ∈ after.head?, c = ' ') :
    String.ofList h.doubled ∈ looseHost.findAll (String.ofList (before ++ (h.doubled ++ after))) := by
  obtain ⟨c, hc, hhost⟩ := h.head?_doubled
  have hne : h.doubled ≠ [] := by
    intro hnil
    rw [hnil] at hc
    cases hc
  have hblank {c : Option Char} (hc : ∀ d ∈ c, d = ' ') : inWord c = false := by
    rw [Pattern.inWord_eq_false_iff]
    intro d hd
    rw [hc d hd]
    decide
  have hword : inWord (h.doubled ++ after).head? = true := by
    rw [List.head?_append_of_ne_nil _ hne, hc]
    exact isWord_of_isHostChar hhost (fun heq => hfirst (heq ▸ hc))
  have htakes : Takes looseHost (lastOf none before) h.doubled after := by
    refine takes_looseHost.mpr ⟨h, rfl, ?_, hblank hafter⟩
    rw [lastOf, Option.or_none, hblank hbefore, hword]
    decide
  have hgap : ∀ d ∈ before.getLast?, looseHost.mayHold d = false := by
    intro d hd
    rw [hbefore d hd]
    decide
  have hfound := Pattern.mem_locate_of_unique (by decide) hgap hne htakes
    (fun _ _ heq hother => eq_doubled_of_takes h hafter heq hother)
  rw [← Pattern.map_snd_locate]
  exact List.mem_map_of_mem hfound

/-- A draft has only hosts of which the last dot is doubled. It has each of them that stands between blanks
and names nobody who is left out, and no host as hosts are written. -/
theorem drafted_host_is_doubled (text : String) :
    (∀ name ∈ namesOf "Domain" (Draft.indicators text), ∃ h : LooseHost, name = String.ofList h.doubled) ∧
    (∀ h : LooseHost, String.ofList h.written ∉ namesOf "Domain" (Draft.indicators text)) ∧
    ∀ (h : LooseHost) (before after : List Char), text = String.ofList (before ++ (h.doubled ++ after)) →
      h.doubled.head? ≠ some '-' → (∀ c ∈ before.getLast?, c = ' ') → (∀ c ∈ after.head?, c = ' ') →
      namesAny Draft.excludedHosts (String.ofList h.doubled) = false →
      String.ofList h.doubled ∈ namesOf "Domain" (Draft.indicators text) := by
  rw [namesOf_domain_indicators]
  refine ⟨?_, ?_, ?_⟩
  · intro name hname
    exact exists_doubled_of_mem_findAll (List.mem_of_mem_filter hname)
  · intro h hname
    obtain ⟨k, hk⟩ := exists_doubled_of_mem_findAll (List.mem_of_mem_filter hname)
    exact h.written_ne_doubled k (String.ofList_injective hk)
  · rintro h before after rfl hfirst hbefore hafter hfree
    exact List.mem_filter.mpr ⟨doubled_mem_findAll h hfirst hbefore hafter, by rw [hfree]; rfl⟩

theorem drafted_host_has_bracketed_dot :
    "evil.com" ∉ namesOf "Domain" (Draft.indicators "see evil.com now") ∧
    "aaaa[.]cyou" ∉ namesOf "Domain" (Draft.indicators "see aaaa[.]cyou now") ∧
    "cdn.evil.[.]com" ∈ namesOf "Domain" (Draft.indicators "see cdn.evil.[.]com now") := by
  refine ⟨?_, ?_, ?_⟩
  · exact (drafted_host_is_doubled _).2.1 ⟨[], "evil".toList, false, false, "com".toList,
      List.all_eq_true.mp (by decide), List.all_eq_true.mp (by decide), by decide⟩
  · exact (drafted_host_is_doubled _).2.1 ⟨[], "aaaa".toList, true, true, "cyou".toList,
      List.all_eq_true.mp (by decide), List.all_eq_true.mp (by decide), by decide⟩
  · exact (drafted_host_is_doubled _).2.2 ⟨["cdn".toList], "evil".toList, true, true, "com".toList,
      List.all_eq_true.mp (by decide), List.all_eq_true.mp (by decide), by decide⟩ "see ".toList " now".toList
      rfl (by decide) (by simp) (by simp) (by decide +kernel)

end ThreatAtlas.Indicator
