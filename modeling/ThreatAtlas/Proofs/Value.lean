import Mathlib
import ThreatAtlas.Value.Access

/-!
# Equality of values

Texts are equal to themselves only, while numbers may be equal across their kinds. A field that is set is
found again, and the others are found as before.
-/

namespace ThreatAtlas

theorem Fields.lookup_set_self (fields : Fields) (name : String) (v : Value) :
    (fields.set name v).lookup name = some v := by
  induction fields with
  | nil => simp [Fields.set]
  | cons field rest ih =>
    obtain ⟨other, w⟩ := field
    rw [Fields.set]
    by_cases h : other = name
    · simp [h]
    · have hne : (name == other) = false := by simpa using fun heq => h heq.symm
      simp [h, List.lookup_cons, hne, ih]

theorem Fields.lookup_set_of_ne (fields : Fields) {name other : String} (v : Value)
    (h : other ≠ name) : (fields.set name v).lookup other = fields.lookup other := by
  induction fields with
  | nil => simp [Fields.set, List.lookup_cons, beq_false_of_ne h]
  | cons field rest ih =>
    obtain ⟨first, w⟩ := field
    rw [Fields.set]
    by_cases hfirst : first = name
    · simp [hfirst, List.lookup_cons, beq_false_of_ne h]
    · simp [hfirst, List.lookup_cons, ih]

namespace Value

theorem beq_eq_same (v w : Value) : (v == w) = v.same w := rfl

variable {v w : Value} {s : String}

@[simp] theorem text_beq_iff : (Value.text s == v) = true ↔ v = .text s := by
  rw [beq_eq_same]
  cases v with
  | text t =>
    rw [same, sameScalar, beq_iff_eq, text.injEq, eq_comm]
    all_goals nofun
  | _ => simp [same, sameScalar, asInt?]

@[simp] theorem beq_text_iff : (v == Value.text s) = true ↔ v = .text s := by
  rw [beq_eq_same]
  cases v with
  | text t =>
    rw [same, sameScalar, beq_iff_eq, text.injEq]
    all_goals nofun
  | _ => simp [same, sameScalar, asInt?]

theorem not_any_isHalf_char (cs : List Char) : ¬ (cs.map CodePoint.char).any CodePoint.isHalf = true := by
  simp [CodePoint.isHalf]

theorem text_char (s : String) : CodePoint.text (s.toList.map .char) = s := by
  have hshown : CodePoint.shown ∘ CodePoint.char = id := rfl
  rw [CodePoint.text, List.map_map, hshown, List.map_id, String.ofList_toList]

theorem ofPoints_char (s : String) : ofPoints (s.toList.map .char) = .text s := by
  rw [ofPoints, dif_neg (not_any_isHalf_char _), text_char]

theorem ofPoints_points (u : Unpaired) : ofPoints u.points = .unpaired u := by
  rw [ofPoints, dif_pos u.half]

theorem display_ofPoints (points : List CodePoint) : (ofPoints points).display = CodePoint.text points := by
  unfold ofPoints
  split <;> rfl

/-- The code points of a text, if the value is one. -/
def points? : Value → Option (List CodePoint)
  | .text s => some (s.toList.map .char)
  | .unpaired u => some u.points
  | _ => none

theorem points?_eq_some_iff {points : List CodePoint} : v.points? = some points ↔ v = ofPoints points := by
  constructor
  · intro h
    cases v with
    | text s =>
      cases h
      exact (ofPoints_char s).symm
    | unpaired u =>
      cases h
      exact (ofPoints_points u).symm
    | _ => cases h
  · rintro rfl
    unfold ofPoints
    split
    case isTrue => rfl
    case isFalse hchars =>
      have hmap : (points.map CodePoint.shown).map CodePoint.char = points := by
        rw [List.map_map, List.map_congr_left (g := id), List.map_id]
        intro p hp
        cases p with
        | char c => rfl
        | half unit => exact absurd (List.any_eq_true.mpr ⟨_, hp, rfl⟩) hchars
      rw [points?, CodePoint.text, String.toList_ofList, hmap]

theorem kind_ofPoints (points : List CodePoint) : (ofPoints points).kind = .text := by
  unfold ofPoints
  split <;> rfl

@[simp] theorem beq_unpaired_iff {u : Unpaired} : (v == Value.unpaired u) = true ↔ v = .unpaired u := by
  rw [beq_eq_same]
  cases v with
  | unpaired t =>
    rw [same, sameScalar, beq_iff_eq, unpaired.injEq]
    all_goals nofun
  | _ => simp [same, sameScalar, asInt?]

@[simp] theorem beq_ofPoints_iff {points : List CodePoint} :
    (v == ofPoints points) = true ↔ v = ofPoints points := by
  unfold ofPoints
  split
  · exact beq_unpaired_iff
  · exact beq_text_iff

theorem eq_of_hashable (h : v.hashable = .ok w) : v = w := by
  cases v with
  | list _ | record _ | under _ _ => cases h
  | _ =>
    cases h
    rfl

theorem hashable_of_hashable (h : v.hashable = .ok w) : w.hashable = .ok w := by
  rwa [eq_of_hashable h] at h

theorem asText_eq_ok {operation : String} (h : v.asText operation = .ok s) : v = .text s := by
  cases v with
  | text t =>
    cases h
    rfl
  | _ => cases h

theorem item_eq_ok_iff {fs : Fields} {name : String} :
    (record fs).item name = .ok v ↔ fs.lookup name = some v := by
  unfold item
  dsimp only
  cases fs.lookup name <;> simp

theorem orElse_empty_text (s : String) : (Value.text s).orElse (.text "") = .text s := by
  unfold orElse truthy
  by_cases h : s = ""
  · simp [h]
  · simp [h]

mutual
/-- Whether two values are one and the same, down to the order of fields and the kinds of numbers. -/
def identical : Value → Value → Bool
  | .null, .null => true
  | .bool a, .bool b => a == b
  | .int m, .int n => m == n
  | .real x, .real y => decide (x = y)
  | .text s, .text t => s == t
  | .list xs, .list ys => identicalAll xs ys
  | .record fs, .record gs => identicalFields fs gs
  | _, _ => false

def identicalAll : List Value → List Value → Bool
  | [], [] => true
  | x :: xs, y :: ys => identical x y && identicalAll xs ys
  | _, _ => false

def identicalFields : List (String × Value) → List (String × Value) → Bool
  | [], [] => true
  | (m, x) :: xs, (n, y) :: ys => m == n && identical x y && identicalFields xs ys
  | _, _ => false
end

mutual
theorem eq_of_identical {v w : Value} (h : v.identical w = true) : v = w := by
  cases v with
  | list xs =>
    cases w with
    | list ys =>
      rw [identical] at h
      rw [eq_of_identicalAll h]
    | _ => simp [identical] at h
  | record xs =>
    cases w with
    | record ys =>
      rw [identical] at h
      rw [eq_of_identicalFields h]
    | _ => simp [identical] at h
  | _ => cases w <;> simp_all [identical]

theorem eq_of_identicalAll {xs ys : List Value} (h : identicalAll xs ys = true) : xs = ys := by
  cases xs with
  | nil => cases ys <;> simp_all [identicalAll]
  | cons x xs =>
    cases ys with
    | nil => simp [identicalAll] at h
    | cons y ys =>
      rw [identicalAll, Bool.and_eq_true] at h
      rw [eq_of_identical h.1, eq_of_identicalAll h.2]

theorem eq_of_identicalFields {xs ys : List (String × Value)} (h : identicalFields xs ys = true) :
    xs = ys := by
  cases xs with
  | nil => cases ys <;> simp_all [identicalFields]
  | cons x xs =>
    cases ys with
    | nil => simp [identicalFields] at h
    | cons y ys =>
      obtain ⟨m, x⟩ := x
      obtain ⟨n, y⟩ := y
      rw [identicalFields, Bool.and_eq_true, Bool.and_eq_true, beq_iff_eq] at h
      rw [h.1.1, eq_of_identical h.1.2, eq_of_identicalFields h.2]
end

/-- A name as the graph gives it: a text, or nothing. -/
def IsName : Value → Prop
  | .null => True
  | .text _ => True
  | _ => False

instance : DecidablePred IsName
  | .null => .isTrue trivial
  | .text _ => .isTrue trivial
  | .bool _ => .isFalse id
  | .int _ => .isFalse id
  | .real _ => .isFalse id
  | .unpaired _ => .isFalse id
  | .list _ => .isFalse id
  | .record _ => .isFalse id
  | .under _ _ => .isFalse id

theorem IsName.beq_iff (hw : w.IsName) : (v == w) = true ↔ v = w := by
  cases w with
  | text s => exact beq_text_iff
  | null =>
    rw [beq_eq_same]
    cases v <;> simp [same, sameScalar, asInt?]
  | _ => exact hw.elim

theorem IsName.hashable (hv : v.IsName) : v.hashable = .ok v := by
  cases v with
  | null | text s => rfl
  | _ => exact hv.elim

end Value

theorem Fields.entry_char (name : String) (v : Value) :
    Fields.entry (name.toList.map .char) v = (name, v) := by
  rw [Fields.entry, dif_neg (Value.not_any_isHalf_char _), Value.text_char]

end ThreatAtlas
