import ThreatAtlas.Proofs.Json.RoundTrip

/-!
# Writing piece by piece

A document goes into a file piece by piece. All of it gets there exactly if each of its texts can be
encoded; then the pieces together are the document.
-/

namespace ThreatAtlas.Json

variable {step level : Nat} {before sep : String} {ps qs : List Piece} {s t : String} {v : Value}

/-- All pieces can be written, and together they are the text. -/
def Writes (ps : List Piece) (text : String) : Prop :=
  fault? ps = none ∧ begun ps = text

private theorem writes_nil : Writes [] "" :=
  ⟨rfl, rfl⟩

private theorem writes_singleton (s : String) : Writes [.ok s] s :=
  ⟨rfl, String.append_empty⟩

private theorem Writes.cons (h : Writes ps t) (s : String) : Writes (.ok s :: ps) (s ++ t) :=
  ⟨h.1, congrArg (s ++ ·) h.2⟩

private theorem Writes.append (hps : Writes ps s) (hqs : Writes qs t) : Writes (ps ++ qs) (s ++ t) := by
  induction ps generalizing s with
  | nil =>
    obtain ⟨-, rfl⟩ := hps
    rwa [List.nil_append, show begun [] = "" from rfl, String.empty_append]
  | cons piece ps ih =>
    cases piece with
    | error why => cases hps.1
    | ok text =>
      obtain ⟨hnone, rfl⟩ := hps
      rw [begun, String.append_assoc]
      exact (ih ⟨hnone, rfl⟩).cons text

private theorem fault?_append_eq_none : fault? (ps ++ qs) = none ↔ fault? ps = none ∧ fault? qs = none := by
  induction ps with
  | nil => exact (and_iff_right rfl).symm
  | cons piece ps ih =>
    cases piece with
    | ok text => exact ih
    | error why => simp [fault?]

/-- The texts one after the other, the first behind `before` and the others each behind `sep`. -/
def joined (before sep : String) : List String → String
  | [] => ""
  | t :: ts => before ++ t ++ joined sep sep ts

private theorem joined_cons (t : String) (ts : List String) :
    joined before sep (t :: ts) = before ++ sep.intercalate (t :: ts) := by
  induction ts generalizing before t with
  | nil => simp [joined]
  | cons u us ih => rw [joined, ih, String.intercalate_cons_cons, String.append_assoc, String.append_assoc]

private theorem writeAt_list_cons (v : Value) (items : List Value) :
    writeAt (some step) level (.list (v :: items)) =
      joined ("[" ++ lineBreak step (level + 1)) ("," ++ lineBreak step (level + 1))
        (writeAll (some step) (level + 1) (v :: items)) ++ (lineBreak step level ++ "]") := by
  simp [writeAt, writeAll, joined_cons, bracket, String.append_assoc]

private theorem writeAt_record_cons (field : String × Value) (fields : List (String × Value)) :
    writeAt (some step) level (.record (field :: fields)) =
      joined ("\x7b" ++ lineBreak step (level + 1)) ("," ++ lineBreak step (level + 1))
        (writeFields (some step) (level + 1) (field :: fields)) ++ (lineBreak step level ++ "\x7d") := by
  simp [writeAt, writeFields, joined_cons, bracket, String.append_assoc]

theorem namePiece_of_isPaired (h : v.IsPaired) (name : String) : namePiece name v = .ok (quote name) := by
  cases v with
  | under _ _ => exact h.elim
  | _ => rfl

private theorem isPaired_of_whole (h : v.Whole) : v.IsPaired := by
  cases v with
  | list _ | record _ | under _ _ => exact h.1
  | _ => exact h

mutual

private theorem writes_piecesAt (step level : Nat) (before : String) (v : Value) (h : v.Whole) :
    Writes (piecesAt step level before v) (before ++ writeAt (some step) level v) := by
  cases v with
  | unpaired u => exact h.elim
  | under name v => exact h.1.elim
  | list items =>
    cases items with
    | nil => exact writes_singleton _
    | cons v rest =>
      have hitems := writes_piecesAll step (level + 1) ("[" ++ lineBreak step (level + 1)) (v :: rest)
        (Value.whole_list.mp h)
      rw [writeAt_list_cons]
      exact (hitems.append (writes_singleton _)).cons before
  | record fields =>
    cases fields with
    | nil => exact writes_singleton _
    | cons field rest =>
      have hfields := writes_piecesFields step (level + 1) ("\x7b" ++ lineBreak step (level + 1))
        (field :: rest) (Value.whole_record.mp h)
      rw [writeAt_record_cons]
      exact (hfields.append (writes_singleton _)).cons before
  | _ => exact writes_singleton _

private theorem writes_piecesAll (step level : Nat) (before : String) (items : List Value)
    (h : ∀ v ∈ items, v.Whole) : Writes (piecesAll step level before items)
      (joined before ("," ++ lineBreak step level) (writeAll (some step) level items)) := by
  cases items with
  | nil => exact writes_nil
  | cons v rest =>
    obtain ⟨hv, hrest⟩ := List.forall_mem_cons.mp h
    exact (writes_piecesAt step level before v hv).append (writes_piecesAll step level _ rest hrest)

private theorem writes_piecesFields (step level : Nat) (before : String) (fields : List (String × Value))
    (h : ∀ field ∈ fields, field.2.Whole) : Writes (piecesFields step level before fields)
      (joined before ("," ++ lineBreak step level) (writeFields (some step) level fields)) := by
  cases fields with
  | nil => exact writes_nil
  | cons field rest =>
    obtain ⟨name, v⟩ := field
    obtain ⟨hv, hrest⟩ := List.forall_mem_cons.mp h
    have hvalue := writes_piecesAt step level "" v hv
    have hothers := writes_piecesFields step level ("," ++ lineBreak step level) rest hrest
    rw [piecesFields, namePiece_of_isPaired (isPaired_of_whole hv)]
    have hmember := ((hvalue.cons ": ").cons (quote name)).cons before
    simpa [writeFields, joined, String.append_assoc] using hmember.append hothers

end

mutual

private theorem whole_of_fault? (step level : Nat) (before : String) (v : Value)
    (h : fault? (piecesAt step level before v) = none) : v.Whole := by
  cases v with
  | unpaired u => cases h
  | under name v => cases h
  | list items =>
    cases items with
    | nil => exact Value.whole_list.mpr (List.forall_mem_nil _)
    | cons v rest =>
      have hitems := (fault?_append_eq_none.mp h).1
      exact Value.whole_list.mpr (forall_whole_of_fault? step (level + 1)
        ("[" ++ lineBreak step (level + 1)) (v :: rest) hitems)
  | record fields =>
    cases fields with
    | nil => exact Value.whole_record.mpr (List.forall_mem_nil _)
    | cons field rest =>
      have hfields := (fault?_append_eq_none.mp h).1
      exact Value.whole_record.mpr (forall_field_whole_of_fault? step (level + 1)
        ("\x7b" ++ lineBreak step (level + 1)) (field :: rest) hfields)
  | _ => trivial

private theorem forall_whole_of_fault? (step level : Nat) (before : String) (items : List Value)
    (h : fault? (piecesAll step level before items) = none) : ∀ v ∈ items, v.Whole := by
  cases items with
  | nil => exact List.forall_mem_nil _
  | cons v rest =>
    obtain ⟨hv, hrest⟩ := fault?_append_eq_none.mp h
    exact List.forall_mem_cons.mpr
      ⟨whole_of_fault? step level before v hv, forall_whole_of_fault? step level _ rest hrest⟩

theorem forall_field_whole_of_fault? (step level : Nat) (before : String) (fields : List (String × Value))
    (h : fault? (piecesFields step level before fields) = none) : ∀ field ∈ fields, field.2.Whole := by
  cases fields with
  | nil => exact List.forall_mem_nil _
  | cons field rest =>
    obtain ⟨name, v⟩ := field
    obtain ⟨hfield, hrest⟩ := fault?_append_eq_none.mp h
    refine List.forall_mem_cons.mpr ⟨?_, forall_field_whole_of_fault? step level _ rest hrest⟩
    refine whole_of_fault? step level "" v ?_
    cases hname : namePiece name v with
    | ok text =>
      rw [hname] at hfield
      exact hfield
    | error why =>
      rw [hname] at hfield
      cases hfield

end

theorem fault?_pieces_eq_none : fault? (pieces step v) = none ↔ v.Whole :=
  ⟨whole_of_fault? step 0 "" v, fun h => (writes_piecesAt step 0 "" v h).1⟩

/-- A document whose texts can all be encoded is written to its end. -/
theorem begun_pieces (h : v.Whole) : begun (pieces step v) = writeIndented step v := by
  rw [pieces, (writes_piecesAt step 0 "" v h).2, String.empty_append, writeIndented]

/-- Writing the document of `v` into a file ends in `e`, and `left` is what gets there. -/
def BreaksOff (step : Nat) (v : Value) (e : Failure) (left : String) : Prop :=
  ∃ why, fault? (pieces step v) = some why ∧ e = .unencodable why ∧ left = begun (pieces step v)

end ThreatAtlas.Json
