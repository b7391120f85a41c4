import ThreatAtlas.Proofs.Indicator.Agreement

/-!
# Hashes and wallets

The hashes and wallets that are reported of a text are words of it, and all words of their forms are
reported, in the order in which they stand. A wallet has a letter that no hash has, so no place of the text
is reported as both.
-/

namespace ThreatAtlas.Indicator

open Pattern (TakesEnds TakesWords)

/-- Hexadecimal digits, as many as a digest has, with a letter among them. -/
def isHash (word : List Char) : Bool :=
  (isHexWord 32 word || isHexWord 40 word || isHexWord 64 word) && !word.all Char.isDigit

def isWallet (word : List Char) : Bool :=
  word.take 2 == ['0', 'x'] && isHexWord 40 (word.drop 2)

private theorem digitBounds_of_ascii : ∀ n < 128,
    (Text.rank Text.digitBounds.size (Text.digitBounds.getD · 0) n % 2 == 1) =
      (decide (48 ≤ n) && decide (n ≤ 57)) := by
  decide +kernel

theorem isDigitLike_of_isHex {c : Char} (h : Text.isHex c = true) : Text.isDigitLike c = c.isDigit := by
  have hascii : c.toNat < 128 := by
    simp only [Text.isHex, Char.isDigit, Bool.or_eq_true, Bool.and_eq_true, decide_eq_true_eq,
      Char.le_def, UInt32.le_iff_toNat_le] at h
    change c.val.toNat < 128
    rcases h with (h | h) | h
    · exact lt_of_le_of_lt h.2 (by decide)
    · exact lt_of_le_of_lt h.2 (by decide)
    · exact lt_of_le_of_lt h.2 (by decide)
  rw [Text.isDigitLike, Text.inRanges, digitBounds_of_ascii c.toNat hascii]
  simp only [Char.isDigit, UInt32.le_iff_toNat_le]
  rfl

private theorem isAllDigits_of_isHexWord {length : Nat} (hlength : 0 < length) {word : List Char}
    (h : isHexWord length word = true) : isAllDigits (String.ofList word) = word.all Char.isDigit := by
  rw [isHexWord, Bool.and_eq_true, List.all_eq_true, beq_iff_eq] at h
  obtain ⟨hhex, hlen⟩ := h
  have hne : word ≠ [] := List.length_pos_iff.mp (hlen ▸ hlength)
  have hdigits : word.all Text.isDigitLike = word.all Char.isDigit := by
    rw [Bool.eq_iff_iff, List.all_eq_true, List.all_eq_true]
    exact forall₂_congr fun c hc => by rw [isDigitLike_of_isHex (hhex c hc)]
  simp [isAllDigits, hne, hdigits]

private theorem isHash_eq (word : List Char) :
    isHash word = ((isHexWord 32 word || (isHexWord 40 word || isHexWord 64 word)) &&
      !isAllDigits (String.ofList word)) := by
  rw [isHash, Bool.or_assoc]
  cases hform : isHexWord 32 word || (isHexWord 40 word || isHexWord 64 word) with
  | false => rfl
  | true =>
    simp only [Bool.or_eq_true] at hform
    have hdigits : isAllDigits (String.ofList word) = word.all Char.isDigit := by
      rcases hform with h | h | h
      · exact isAllDigits_of_isHexWord (by decide) h
      · exact isAllDigits_of_isHexWord (by decide) h
      · exact isAllDigits_of_isHexWord (by decide) h
    rw [hdigits]

private theorem wallet_takesWords : TakesWords wallet isWallet := by
  have hends : TakesEnds (.seq (.span Text.isHex 40 (some 40)) .boundary) (isHexWord 40) :=
    TakesEnds.span (fun _ => Text.isWord_of_isHex) (by decide)
  have hwords := ((hends.char (show Text.isWord 'x' = true by decide)).char
    (show Text.isWord '0' = true by decide)).takesWords
  have haccepts : isWallet = fun word : List Char => word.head? == some '0' &&
      (word.tail.head? == some 'x' && isHexWord 40 word.tail.tail) := by
    funext word
    cases word with
    | nil => rfl
    | cons c word =>
      cases word with
      | nil => simp [isWallet, isHexWord]
      | cons d digits => simp [isWallet, Bool.and_assoc]
  rw [haccepts]
  exact hwords

theorem not_isHash_of_isWallet {word : List Char} (h : isWallet word = true) : isHash word = false := by
  rw [isWallet, Bool.and_eq_true, beq_iff_eq] at h
  have hx : 'x' ∈ word := by
    apply List.mem_of_mem_take
    rw [h.1]
    simp
  have hall : word.all Text.isHex = false := by
    rw [List.all_eq_false]
    exact ⟨'x', hx, by decide⟩
  simp [isHash, isHexWord, hall]

def hashesOf (text : String) : List (Nat × String) :=
  (hash.locate text).filter fun found => !isAllDigits found.2

def walletsOf (text : String) : List (Nat × String) :=
  wallet.locate text

private theorem valuesOf_hash_extract (text : String) :
    valuesOf .hash (extract text) = (hashesOf text).map Prod.snd := by
  rw [(valuesOf_extract text).2.2.2, ← Pattern.map_snd_locate, List.filter_map]
  rfl

private theorem valuesOf_cryptocurrency_extract (text : String) :
    valuesOf .cryptocurrency (extract text) = (walletsOf text).map Prod.snd := by
  rw [walletsOf, Pattern.map_snd_locate]
  unfold extract
  simp

def wordsOf (form : List Char → Bool) (text : String) : List (Nat × String) :=
  ((Text.runs 0 text.toList).filter fun run => form run.2).map fun run => (run.1, String.ofList run.2)

private theorem hashesOf_eq (text : String) : hashesOf text = wordsOf isHash text := by
  rw [hashesOf, hash_takesWords.locate_eq, List.filter_map, List.filter_filter, wordsOf]
  congr 2
  funext run
  rw [isHash_eq, Bool.and_comm]
  rfl

private theorem walletsOf_eq (text : String) : walletsOf text = wordsOf isWallet text :=
  wallet_takesWords.locate_eq text

private theorem wordsOf_apart {form other : List Char → Bool}
    (hforms : ∀ word, other word = true → form word = false) {text : String} {a b : Nat × String}
    (ha : a ∈ wordsOf form text) (hb : b ∈ wordsOf other text) :
    a.1 + a.2.length < b.1 ∨ b.1 + b.2.length < a.1 := by
  obtain ⟨run, hrun, rfl⟩ := List.mem_map.mp ha
  obtain ⟨run', hrun', rfl⟩ := List.mem_map.mp hb
  obtain ⟨hmem, hform⟩ := List.mem_filter.mp hrun
  obtain ⟨hmem', hother⟩ := List.mem_filter.mp hrun'
  have hne : run ≠ run' := by
    intro hsame
    rw [hsame, hforms _ hother] at hform
    cases hform
  simpa using Text.runs_apart hmem hmem' hne

/-- The hashes of a text are its words of hexadecimal digits, of the lengths of digests, that are no decimal
numbers; its wallets are its words of the mark and forty such digits. All of them are reported, in the order
in which they stand, and nothing else is. Words are the longest runs of word characters, so no part of one
is reported, and no place of the text belongs to a hash and to a wallet. -/
theorem extract_hashes_and_wallets (text : String) :
    (∀ start word, (start, word) ∈ Text.runs 0 text.toList ↔ Text.IsRun text.toList start word) ∧
    ((Text.runs 0 text.toList).Pairwise fun a b => a.1 + a.2.length < b.1) ∧
    valuesOf .hash (extract text) = (hashesOf text).map Prod.snd ∧ hashesOf text = wordsOf isHash text ∧
    valuesOf .cryptocurrency (extract text) = (walletsOf text).map Prod.snd ∧
      walletsOf text = wordsOf isWallet text ∧
    ∀ a ∈ hashesOf text, ∀ b ∈ walletsOf text, a.1 + a.2.length < b.1 ∨ b.1 + b.2.length < a.1 := by
  refine ⟨?_, Text.pairwise_runs 0 text.toList, valuesOf_hash_extract text, hashesOf_eq text,
    valuesOf_cryptocurrency_extract text, walletsOf_eq text, ?_⟩
  · intro start word
    simp [Text.mem_runs_iff]
  · intro a ha b hb
    rw [hashesOf_eq] at ha
    rw [walletsOf_eq] at hb
    exact wordsOf_apart (fun _ => not_isHash_of_isWallet) ha hb

end ThreatAtlas.Indicator
