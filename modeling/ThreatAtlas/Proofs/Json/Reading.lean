import ThreatAtlas.Proofs.Json.Grammar
import ThreatAtlas.Proofs.Json.RoundTrip

/-!
# What the reader gives

A value that was read keeps to what the reader asks for: its records name each field once, because of a
repeated name the last value counts, its integers are not too long and its lists and records not too deep.
So a document that is written of it can be read, if it could be written to its end.
-/

namespace ThreatAtlas.Json

/-- What is written of the value can be read, with this many levels of nesting left. -/
structure Readable (v : Value) (levels : Nat) : Prop where
  tidy : v.Tidy
  fits : v.Fits levels

variable {levels : Nat} {v : Value}

theorem readable_list {items : List Value} :
    Readable (.list items) (levels + 1) ↔ ∀ v ∈ items, Readable v levels := by
  constructor
  · intro h v hv
    exact ⟨Value.tidy_list.mp h.tidy v hv, Value.fits_list.mp h.fits v hv⟩
  · intro h
    exact ⟨Value.tidy_list.mpr fun v hv => (h v hv).tidy,
      Value.fits_list.mpr fun v hv => (h v hv).fits⟩

theorem Readable.perm {items items' : List Value} (h : Readable (.list items) levels)
    (hperm : items'.Perm items) : Readable (.list items') levels := by
  cases levels with
  | zero => exact absurd h.fits.1 (Nat.lt_irrefl 0)
  | succ levels =>
    rw [readable_list] at h ⊢
    exact fun v hv => h v (hperm.subset hv)

private theorem digitsValue_lt {ds : List Char} (h : ∀ c ∈ ds, c.isDigit = true) :
    digitsValue ds < 10 ^ ds.length := by
  have hfold (n : Nat) : ds.foldl (fun n c => 10 * n + (c.toNat - 48)) n < (n + 1) * 10 ^ ds.length := by
    induction ds generalizing n with
    | nil => simp
    | cons c ds ih =>
      obtain ⟨hc, hds⟩ := List.forall_mem_cons.mp h
      have hdigit : c.toNat - 48 ≤ 9 := by
        simp only [Char.isDigit, Bool.and_eq_true, decide_eq_true_eq] at hc
        have : c.val ≤ 57 := hc.2
        have : c.toNat ≤ 57 := this
        omega
      calc ds.foldl (fun n c => 10 * n + (c.toNat - 48)) (10 * n + (c.toNat - 48))
          < (10 * n + (c.toNat - 48) + 1) * 10 ^ ds.length := ih hds _
        _ ≤ (10 * (n + 1)) * 10 ^ ds.length := Nat.mul_le_mul_right _ (by omega)
        _ = (n + 1) * 10 ^ (c :: ds).length := by
          rw [List.length_cons, Nat.pow_succ]
          ring
  simpa [digitsValue] using hfold 0

private theorem SpellsNumber.readable {cs : List Char} (h : SpellsNumber cs v) (levels : Nat) :
    Readable v levels := by
  cases h with
  | real _ _ _ _ _ => exact ⟨trivial, trivial⟩
  | @int negative whole isWhole short =>
    have hlength : 0 < whole.length := List.length_pos_iff.mpr isWhole.ne_nil
    have habs : (if negative then -(digitsValue whole : Int) else digitsValue whole).natAbs =
        digitsValue whole := by
      split <;> omega
    refine ⟨trivial, ?_⟩
    rw [Value.Fits, habs]
    exact (Nat.toDigits_length 10 _ _ hlength (digitsValue_lt isWhole.digits)).trans short

theorem readable_of_mem_constants {constant : String × Value} (h : constant ∈ constants) (levels : Nat) :
    Readable constant.2 levels := by
  have hconstants : ∀ constant ∈ constants, Readable constant.2 levels := by
    simp only [constants, List.forall_mem_cons]
    exact ⟨⟨trivial, trivial⟩, ⟨trivial, trivial⟩, ⟨trivial, trivial⟩, ⟨trivial, trivial⟩,
      ⟨trivial, trivial⟩, ⟨trivial, trivial⟩, List.forall_mem_nil _⟩
  exact hconstants constant h

theorem Readable.set {fields : Fields} (h : Readable (.record fields) (levels + 1)) (name : String)
    (hv : Readable v levels) : Readable (.record (fields.set name v)) (levels + 1) := by
  refine ⟨h.tidy.set name hv.tidy, Value.fits_record.mpr fun field hfield => ?_⟩
  rcases Csv.value_of_mem_set hfield with hvalue | hold
  · rw [hvalue]
    exact hv.fits
  · exact Value.fits_record.mp h.fits field hold

theorem readable_ofPairs {pairs : List (String × Value)} (h : ∀ pair ∈ pairs, Readable pair.2 levels) :
    Readable (.record (Fields.ofPairs pairs)) (levels + 1) := by
  have hfold (fields : Fields) (hfields : Readable (.record fields) (levels + 1)) :
      Readable (.record (pairs.foldl (fun fields pair => Fields.set fields pair.1 pair.2) fields))
        (levels + 1) := by
    induction pairs generalizing fields with
    | nil => exact hfields
    | cons pair pairs ih =>
      obtain ⟨hpair, hpairs⟩ := List.forall_mem_cons.mp h
      exact ih hpairs _ (hfields.set pair.1 hpair)
  exact hfold [] ⟨Value.tidy_record.mpr ⟨.nil, List.forall_mem_nil _⟩,
    Value.fits_record.mpr (List.forall_mem_nil _)⟩

theorem readable_ofPoints (points : List CodePoint) (levels : Nat) : Readable (.ofPoints points) levels := by
  unfold Value.ofPoints
  split <;> exact ⟨trivial, trivial⟩

private theorem Readable.entry (h : Readable v levels) (name : List CodePoint) :
    Readable (Fields.entry name v).2 levels := by
  unfold Fields.entry
  dsimp only
  split
  · exact ⟨⟨trivial, h.tidy⟩, h.fits⟩
  · exact h

def Part.Readable (levels : Nat) : Part → Prop
  | .value v => Json.Readable v levels
  | .member field => Json.Readable field.2 levels
  | .items vs => ∀ v ∈ vs, Json.Readable v levels
  | .members pairs => ∀ pair ∈ pairs, Json.Readable pair.2 levels

private theorem Spells.readable {cs : List Char} {part : Part} (h : Spells levels cs part) :
    part.Readable levels := by
  induction h with
  | text _ => exact readable_ofPoints _ _
  | word known => exact readable_of_mem_constants known _
  | number spelt => exact spelt.readable _
  | emptyList _ => exact readable_list.mpr (List.forall_mem_nil _)
  | list _ _ ih => exact readable_list.mpr ih
  | emptyRecord _ => exact readable_ofPairs (List.forall_mem_nil _)
  | record _ _ ih => exact readable_ofPairs ih
  | member _ _ _ _ ih => exact ih.entry _
  | lastItem _ _ ih | lastMember _ _ ih => exact List.forall_mem_singleton.mpr ih
  | nextItem _ _ _ _ ih ihs | nextMember _ _ _ _ ih ihs => exact List.forall_mem_cons.mpr ⟨ih, ihs⟩

theorem readable_of_read {s : String} (h : read s = .ok v) : Readable v nestingLimit := by
  obtain ⟨_, _, _, -, -, -, hspells⟩ := exists_spells_of_read h
  exact hspells.readable

end ThreatAtlas.Json
