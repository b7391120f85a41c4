import ThreatAtlas.Proofs.Json.Parts

/-!
# The grammar of the reader

`Spells` says which characters stand for which value, without a cursor and without fuel: quoted texts,
words, numbers, and lists and records with blanks between their parts. The reader reads a text as a value
exactly if the text is a spelling of the value with blanks around it.
-/

namespace ThreatAtlas.Json

/-- The characters spell the part, with this many levels of nesting left. -/
inductive Spells : Nat → List Char → Part → Prop where
  | text {levels : Nat} {body : List Char} {points : List CodePoint} (inside : SpellsText body points) :
      Spells levels ('"' :: (body ++ ['"'])) (.value (.ofPoints points))
  | word {levels : Nat} {word : String} {v : Value} (known : (word, v) ∈ constants) :
      Spells levels word.toList (.value v)
  | number {levels : Nat} {cs : List Char} {v : Value} (spelt : SpellsNumber cs v) :
      Spells levels cs (.value v)
  | emptyList {levels : Nat} {gap : List Char} (blank : Spaces gap) :
      Spells (levels + 1) ('[' :: (gap ++ [']'])) (.value (.list []))
  | list {levels : Nat} {gap cs : List Char} {vs : List Value} (blank : Spaces gap)
      (inside : Spells levels cs (.items vs)) :
      Spells (levels + 1) ('[' :: (gap ++ (cs ++ [']']))) (.value (.list vs))
  | emptyRecord {levels : Nat} {gap : List Char} (blank : Spaces gap) :
      Spells (levels + 1) ('{' :: (gap ++ ['}'])) (.value (.record []))
  | record {levels : Nat} {gap cs : List Char} {pairs : List (String × Value)} (blank : Spaces gap)
      (inside : Spells levels cs (.members pairs)) :
      Spells (levels + 1) ('{' :: (gap ++ (cs ++ ['}']))) (.value (.record (Fields.ofPairs pairs)))
  | member {levels : Nat} {body gap gap' cs : List Char} {name : List CodePoint} {v : Value}
      (named : SpellsText body name) (blank : Spaces gap) (blank' : Spaces gap')
      (inside : Spells levels cs (.value v)) :
      Spells levels ('"' :: (body ++ '"' :: (gap ++ ':' :: (gap' ++ cs)))) (.member (Fields.entry name v))
  | lastItem {levels : Nat} {cs gap : List Char} {v : Value} (item : Spells levels cs (.value v))
      (blank : Spaces gap) : Spells levels (cs ++ gap) (.items [v])
  | nextItem {levels : Nat} {cs gap gap' ds : List Char} {v : Value} {vs : List Value}
      (item : Spells levels cs (.value v)) (blank : Spaces gap) (blank' : Spaces gap')
      (others : Spells levels ds (.items vs)) :
      Spells levels (cs ++ (gap ++ ',' :: (gap' ++ ds))) (.items (v :: vs))
  | lastMember {levels : Nat} {cs gap : List Char} {field : String × Value}
      (item : Spells levels cs (.member field)) (blank : Spaces gap) :
      Spells levels (cs ++ gap) (.members [field])
  | nextMember {levels : Nat} {cs gap gap' ds : List Char} {field : String × Value}
      {pairs : List (String × Value)} (item : Spells levels cs (.member field)) (blank : Spaces gap)
      (blank' : Spaces gap') (others : Spells levels ds (.members pairs)) :
      Spells levels (cs ++ (gap ++ ',' :: (gap' ++ ds))) (.members (field :: pairs))

private theorem exists_spaces (cur : Cursor) : ∃ gap, Spaces gap ∧ cur.rest = gap ++ cur.skipSpace.rest := by
  refine ⟨cur.rest.takeWhile isSpace, fun c hc => List.mem_takeWhile_imp hc, ?_⟩
  exact (List.prefix_iff_eq_append.mp (List.takeWhile_prefix _)).symm

private theorem rest_drop_one {cur : Cursor} {c : Char} {rest : List Char} (h : cur.rest = c :: rest) :
    cur.rest = c :: (cur.drop 1).rest := by
  rw [Cursor.drop, h]
  rfl

variable {v : Value} {fuel levels : Nat} {cs : List Char} {s : String}

private theorem mem_constants_of_readConstant {cur next : Cursor} (h : readConstant? cur = some (v, next)) :
    ∃ word, (word, v) ∈ constants ∧ cur.rest = word.toList ++ next.rest := by
  obtain ⟨⟨word, w⟩, hword, h⟩ := List.exists_of_findSome?_eq_some h
  dsimp only at h
  split at h
  case isTrue hprefix =>
    cases h
    refine ⟨word, hword, ?_⟩
    rw [Cursor.drop, ← String.length_toList]
    exact (List.prefix_iff_eq_append.mp (List.isPrefixOf_iff_prefix.mp hprefix)).symm
  case isFalse => cases h

def SoundValues (fuel : Nat) : Prop :=
  ∀ levels cur v next, readValue fuel levels cur = .ok (v, next) →
    ∃ cs, cur.rest = cs ++ next.rest ∧ Spells levels cs (.value v)

def SoundItems (fuel : Nat) : Prop :=
  ∀ levels done cur v next, readItems fuel levels done cur = .ok (v, next) →
    ∃ cs vs, cur.rest = cs ++ ']' :: next.rest ∧ Spells levels cs (.items vs) ∧
      v = .list (done.reverse ++ vs)

def SoundMembers (fuel : Nat) : Prop :=
  ∀ levels done cur v next, readMembers fuel levels done cur = .ok (v, next) →
    ∃ cs pairs, cur.rest = cs ++ '}' :: next.rest ∧ Spells levels cs (.members pairs) ∧
      v = .record (Fields.ofPairs (done.reverse ++ pairs))

private theorem soundValues_succ (hitems : SoundItems fuel) (hmembers : SoundMembers fuel) :
    SoundValues (fuel + 1) := by
  intro levels cur v next h
  unfold readValue at h
  split at h
  case h_1 more hquote =>
    obtain ⟨⟨s, after⟩, hread, h⟩ := bind_eq_ok.mp h
    cases h
    obtain ⟨body, cs, hbody, hspells, rfl⟩ := spells_of_readText hread
    refine ⟨_, ?_, .text hspells⟩
    rw [rest_drop_one hquote, hbody]
    simp
  case h_2 more hopen =>
    cases levels with
    | zero => cases h
    | succ levels =>
      obtain ⟨gap, hgap, hrest⟩ := exists_spaces (cur.drop 1)
      rw [rest_drop_one hopen, hrest]
      dsimp only at h
      split at h
      case h_1 tail hclose =>
        cases h
        refine ⟨_, ?_, .emptyList hgap⟩
        rw [rest_drop_one hclose]
        simp
      case h_2 =>
        obtain ⟨cs, vs, hcs, hspells, rfl⟩ := hitems levels [] _ v next h
        refine ⟨_, ?_, .list hgap hspells⟩
        rw [hcs]
        simp
  case h_3 more hopen =>
    cases levels with
    | zero => cases h
    | succ levels =>
      obtain ⟨gap, hgap, hrest⟩ := exists_spaces (cur.drop 1)
      rw [rest_drop_one hopen, hrest]
      dsimp only at h
      split at h
      case h_1 tail hclose =>
        cases h
        refine ⟨_, ?_, .emptyRecord hgap⟩
        rw [rest_drop_one hclose]
        simp
      case h_2 =>
        obtain ⟨cs, pairs, hcs, hspells, rfl⟩ := hmembers levels [] _ v next h
        refine ⟨_, ?_, .record hgap hspells⟩
        rw [hcs]
        simp
  case h_4 =>
    split at h
    case h_1 hconstant =>
      cases h
      obtain ⟨word, hword, hrest⟩ := mem_constants_of_readConstant hconstant
      exact ⟨_, hrest, .word hword⟩
    case h_2 =>
      obtain ⟨number, hnumber, h⟩ := bind_eq_ok.mp h
      cases number with
      | some r =>
        cases h
        obtain ⟨cs, hcs, hspells⟩ := spells_of_readNumber hnumber
        exact ⟨cs, hcs, .number hspells⟩
      | none => cases h

theorem soundItems_succ (hvalues : SoundValues fuel) (hitems : SoundItems fuel) : SoundItems (fuel + 1) := by
  intro levels done cur v next h
  rw [readItems] at h
  obtain ⟨⟨w, after⟩, hread, h⟩ := bind_eq_ok.mp h
  obtain ⟨cs, hcs, hspells⟩ := hvalues levels cur w after hread
  obtain ⟨gap, hgap, hafter⟩ := exists_spaces after
  rw [hcs, hafter]
  dsimp only at h
  split at h
  case h_1 tail hclose =>
    cases h
    refine ⟨_, _, ?_, .lastItem hspells hgap, by rw [List.reverse_cons]⟩
    rw [rest_drop_one hclose]
    simp
  case h_2 tail hcomma =>
    obtain ⟨gap', hgap', hrest⟩ := exists_spaces (after.skipSpace.drop 1)
    obtain ⟨ds, vs, hds, hothers, rfl⟩ := hitems levels (w :: done) _ v next h
    refine ⟨_, _, ?_, .nextItem hspells hgap hgap' hothers, by simp⟩
    rw [rest_drop_one hcomma, hrest, hds]
    simp
  case h_3 => cases h

private theorem soundMembers_succ (hvalues : SoundValues fuel) (hmembers : SoundMembers fuel) :
    SoundMembers (fuel + 1) := by
  intro levels done cur v next h
  rw [readMembers] at h
  split at h
  case h_2 => cases h
  case h_1 more hquote =>
    obtain ⟨⟨name, named⟩, hname, h⟩ := bind_eq_ok.mp h
    obtain ⟨body, ns, hbody, hns, rfl⟩ := spells_of_readText hname
    obtain ⟨gap, hgap, hnamed⟩ := exists_spaces named
    dsimp only at h
    split at h
    case h_2 => cases h
    case h_1 tail hcolon =>
      obtain ⟨gap', hgap', hvalue⟩ := exists_spaces (named.skipSpace.drop 1)
      obtain ⟨⟨w, after⟩, hread, h⟩ := bind_eq_ok.mp h
      obtain ⟨cs, hcs, hspells⟩ := hvalues levels _ w after hread
      obtain ⟨gap'', hgap'', hafter⟩ := exists_spaces after
      have hmember := Spells.member hns hgap hgap' hspells
      rw [rest_drop_one hquote, hbody, hnamed, rest_drop_one hcolon, hvalue, hcs, hafter]
      dsimp only at h
      split at h
      case h_1 tail hclose =>
        cases h
        refine ⟨_, _, ?_, .lastMember hmember hgap'', by simp⟩
        rw [rest_drop_one hclose]
        simp
      case h_2 tail hcomma =>
        obtain ⟨gap₃, hgap₃, hrest⟩ := exists_spaces (after.skipSpace.drop 1)
        obtain ⟨ds, pairs, hds, hothers, rfl⟩ := hmembers levels _ _ v next h
        refine ⟨_, _, ?_, .nextMember hmember hgap'' hgap₃ hothers, by simp⟩
        rw [rest_drop_one hcomma, hrest, hds]
        simp
      case h_3 => cases h

private theorem sound_all (fuel : Nat) : SoundValues fuel ∧ SoundItems fuel ∧ SoundMembers fuel := by
  -- The three readers call each other with less fuel, so they are sound together or not at all.
  induction fuel with
  | zero =>
    refine ⟨?_, ?_, ?_⟩
    · intro levels cur v next h
      cases h
    · intro levels done cur v next h
      cases h
    · intro levels done cur v next h
      cases h
  | succ fuel ih =>
    obtain ⟨hvalues, hitems, hmembers⟩ := ih
    exact ⟨soundValues_succ hitems hmembers, soundItems_succ hvalues hitems,
      soundMembers_succ hvalues hmembers⟩

private theorem SpellsNumber.readsAs (h : SpellsNumber cs v) : ReadsAs levels True cs (.value v) := by
  cases h with
  | int negative isWhole short => exact (readsAs_int negative isWhole).mono fun _ => short
  | real negative isWhole digits exponent isReal =>
    exact readsAs_real negative isWhole digits exponent isReal

private theorem Spells.readsAs {part : Part} (h : Spells levels cs part) : ReadsAs levels True cs part := by
  -- On the spelling, not on the fuel: two for each character is always enough.
  induction h with
  | text inside => exact readsAs_text inside
  | word known => exact readsAs_word known
  | number spelt => exact spelt.readsAs
  | emptyList blank => exact readsAs_emptyList blank
  | list blank _ ih => exact readsAs_list blank ih
  | emptyRecord blank => exact readsAs_emptyRecord blank
  | record blank _ ih => exact readsAs_record blank ih
  | member named blank blank' _ ih => exact readsAs_member named blank blank' ih
  | lastItem _ blank ih => exact readsAs_lastItem ih blank
  | nextItem _ blank blank' _ ih ihs => exact readsAs_nextItem ih blank blank' ihs
  | lastMember _ blank ih => exact readsAs_lastMember ih blank
  | nextMember _ blank blank' _ ih ihs => exact readsAs_nextMember ih blank blank' ihs

theorem Spells.begins {part : Part} (h : Spells levels cs part) : ∃ c rest, cs = c :: rest ∧ part.Begins c :=
  h.readsAs.begins

theorem exists_spells_of_read (h : read s = .ok v) :
    ∃ before cs after, Spaces before ∧ Spaces after ∧ s.toList = before ++ (cs ++ after) ∧
      Spells nestingLimit cs (.value v) := by
  unfold read at h
  dsimp only at h
  split at h
  · cases h
  · obtain ⟨⟨w, cur⟩, hread, h⟩ := bind_eq_ok.mp h
    dsimp only at h
    split at h
    case isTrue hend =>
      cases h
      obtain ⟨before, hbefore, hstart⟩ := exists_spaces ⟨s.toList, 0⟩
      obtain ⟨cs, hcs, hspells⟩ := (sound_all _).1 nestingLimit _ v cur hread
      obtain ⟨after, hafter, hrest⟩ := exists_spaces cur
      rw [List.isEmpty_iff.mp hend, List.append_nil] at hrest
      exact ⟨before, cs, after, hbefore, hafter, by rw [← hrest, ← hcs]; exact hstart, hspells⟩
    case isFalse => cases h

theorem read_of_spells {before after : List Char} (hbefore : Spaces before) (hafter : Spaces after)
    (hs : s.toList = before ++ (cs ++ after)) (hspells : Spells nestingLimit cs (.value v)) :
    read s = .ok v := by
  rcases hspells.readsAs.read hbefore hafter hs with hread | ⟨e, -, -, hnot⟩
  · exact hread
  · exact absurd trivial hnot

end ThreatAtlas.Json
