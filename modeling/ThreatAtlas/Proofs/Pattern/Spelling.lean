import ThreatAtlas.Proofs.Pattern

/-!
# Words in any mixture of cases

A pattern for a word takes the texts that spell it, letter by letter, when case is ignored. Besides the two
cases of each letter these may hold a few letters from outside ASCII.
-/

namespace ThreatAtlas.Pattern

/-- The characters spell the word, in any mixture of cases. -/
def Spells (word : String) (cs : List Char) : Prop :=
  List.Forall₂ (fun letter c => anyCase letter c = true) word.toList cs

private theorem takes_letters {letters : List Char} {before : Option Char} {cs rest : List Char} :
    Takes (sequence (letters.map fun letter => one (anyCase letter))) before cs rest ↔
      List.Forall₂ (fun letter c => anyCase letter c = true) letters cs := by
  induction letters generalizing before cs with
  | nil =>
    rw [List.forall₂_nil_left_iff]
    simp only [List.map_nil, sequence, takes_span]
    constructor
    · intro h
      exact List.eq_nil_iff_forall_not_mem.mpr fun c hc => Bool.false_ne_true (h.1 c hc)
    · rintro rfl
      simp
  | cons letter letters ih =>
    cases letters with
    | nil =>
      simp only [List.map_cons, List.map_nil, sequence, takes_one, List.forall₂_cons_left_iff,
        List.forall₂_nil_left_iff]
      constructor
      · rintro ⟨c, rfl, hc⟩
        exact ⟨c, [], hc, rfl, rfl⟩
      · rintro ⟨c, _, hc, rfl, rfl⟩
        exact ⟨c, rfl, hc⟩
    | cons next letters =>
      rw [List.map_cons, List.map_cons, sequence, takes_seq, List.forall₂_cons_left_iff]
      · simp only [takes_one]
        constructor
        · rintro ⟨_, ys, rfl, ⟨c, rfl, hc⟩, hys⟩
          exact ⟨c, ys, hc, ih.mp hys, rfl⟩
        · rintro ⟨c, ys, hc, hys, rfl⟩
          exact ⟨[c], ys, rfl, ⟨c, rfl, hc⟩, ih.mpr hys⟩
      · simp

theorem takes_word {w : String} {before : Option Char} {cs rest : List Char} :
    Takes (word w) before cs rest ↔ Spells w cs :=
  takes_letters

theorem Spells.exists_letter {w : String} {cs : List Char} (h : Spells w cs) {c : Char} (hc : c ∈ cs) :
    ∃ letter ∈ w.toList, anyCase letter c = true := by
  unfold Spells at h
  generalize w.toList = letters at h ⊢
  induction h with
  | nil => cases hc
  | @cons letter d letters cs hletter _ ih =>
    rcases List.mem_cons.mp hc with rfl | hc
    · exact ⟨letter, by simp, hletter⟩
    · obtain ⟨other, hother, hany⟩ := ih hc
      exact ⟨other, by simp [hother], hany⟩

theorem isLetterAnyCase_of_anyCase {letter c : Char} (hletter : letter.isLower = true)
    (h : anyCase letter c = true) : isLetterAnyCase c = true := by
  simp only [anyCase, Bool.or_eq_true, beq_iff_eq, Bool.and_eq_true] at h
  simp only [isLetterAnyCase, Bool.or_eq_true, beq_iff_eq]
  rcases h with ((hlower | ⟨-, hlong⟩) | ⟨-, hkelvin⟩) | ⟨-, hdotted | hdotless⟩
  · have halpha : c.isAlpha = true := by
      rw [Char.isAlpha, Bool.or_eq_true]
      by_cases hupper : c.isUpper = true
      · exact .inl hupper
      · rw [Char.toLower_eq_of_not_isUpper hupper] at hlower
        exact .inr (hlower ▸ hletter)
    simp [halpha]
  · simp [hlong]
  · simp [hkelvin]
  · simp [hdotted]
  · simp [hdotless]

theorem Spells.isLetterAnyCase {w : String} (hw : w.toList.all Char.isLower = true) {cs : List Char}
    (h : Spells w cs) : ∀ c ∈ cs, Pattern.isLetterAnyCase c = true := by
  intro c hc
  obtain ⟨letter, hletter, hany⟩ := h.exists_letter hc
  exact isLetterAnyCase_of_anyCase (List.all_eq_true.mp hw letter hletter) hany

theorem mayHold_sequence (ps : List Pattern) (c : Char) :
    (sequence ps).mayHold c = ps.any (·.mayHold c) := by
  induction ps with
  | nil => rfl
  | cons p ps ih =>
    cases ps with
    | nil => simp [sequence]
    | cons q ps =>
      rw [List.any_cons, ← ih]
      rfl

theorem mayHold_firstOf (ps : List Pattern) (c : Char) :
    (firstOf ps).mayHold c = ps.any (·.mayHold c) := by
  induction ps with
  | nil => rfl
  | cons p ps ih =>
    cases ps with
    | nil => simp [firstOf]
    | cons q ps =>
      rw [List.any_cons, ← ih]
      rfl

theorem mayHold_word (w : String) (c : Char) : (word w).mayHold c = w.toList.any (anyCase · c) := by
  rw [word, mayHold_sequence, List.any_map]
  rfl

end ThreatAtlas.Pattern
