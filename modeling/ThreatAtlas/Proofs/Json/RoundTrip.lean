import ThreatAtlas.Proofs.Csv
import ThreatAtlas.Proofs.Json.Parts

/-!
# Reading back a document

What is written of a value reads back as that value with its real numbers blurred, as long as records name
each of their fields once and all texts can be encoded. The reader can only refuse it for the size of an
integer or for the depth of the lists and records in it; it never takes it for a text that is not JSON.
-/

namespace ThreatAtlas

namespace Value

mutual

/-- The value with zero for every real number in it. -/
def blur : Value → Value
  | .real _ => .real 0
  | .list items => .list (blurAll items)
  | .record fields => .record (blurFields fields)
  | .under name v => .under name (blur v)
  | v => v

def blurAll : List Value → List Value
  | [] => []
  | v :: rest => blur v :: blurAll rest

def blurFields : List (String × Value) → List (String × Value)
  | [] => []
  | (name, v) :: rest => (name, blur v) :: blurFields rest

end

mutual

/-- The property holds of the value and of everything in it. -/
def Every (P : Value → Prop) : Value → Prop
  | .list items => P (.list items) ∧ EveryItem P items
  | .record fields => P (.record fields) ∧ EveryField P fields
  | .under name v => P (.under name v) ∧ Every P v
  | v => P v

def EveryItem (P : Value → Prop) : List Value → Prop
  | [] => True
  | v :: rest => Every P v ∧ EveryItem P rest

def EveryField (P : Value → Prop) : List (String × Value) → Prop
  | [] => True
  | (_, v) :: rest => Every P v ∧ EveryField P rest

end

def NamesOnce : Value → Prop
  | .record fields => (fields.map Prod.fst).Nodup
  | _ => True

def IsPaired : Value → Prop
  | .unpaired _ => False
  | .under _ _ => False
  | _ => True

/-- Every record in the value names each of its fields once. -/
def Tidy (v : Value) : Prop :=
  v.Every NamesOnce

/-- Every text in the value can be encoded, the names of fields among them. -/
def Whole (v : Value) : Prop :=
  v.Every IsPaired

/-- The value can be written so that all of it is read again. -/
structure Proper (v : Value) : Prop where
  tidy : v.Tidy
  whole : v.Whole

mutual

/-- The value is read where this many lists and records may still stand inside each other. -/
def Fits : Value → Nat → Prop
  | .int n, _ => (Nat.toDigits 10 n.natAbs).length ≤ Number.digitLimit
  | .list items, levels => 0 < levels ∧ FitsAll items (levels - 1)
  | .record fields, levels => 0 < levels ∧ FitsFields fields (levels - 1)
  | .under _ v, levels => Fits v levels
  | _, _ => True

def FitsAll : List Value → Nat → Prop
  | [], _ => True
  | v :: rest, levels => Fits v levels ∧ FitsAll rest levels

def FitsFields : List (String × Value) → Nat → Prop
  | [], _ => True
  | (_, v) :: rest, levels => Fits v levels ∧ FitsFields rest levels

end

private theorem blurAll_eq_map (items : List Value) : blurAll items = items.map blur := by
  induction items with
  | nil => rfl
  | cons v rest ih => rw [blurAll, ih, List.map_cons]

private theorem blurFields_eq_map (fields : List (String × Value)) :
    blurFields fields = fields.map fun field => (field.1, field.2.blur) := by
  induction fields with
  | nil => rfl
  | cons field rest ih => rw [blurFields, ih, List.map_cons]

variable {items : List Value} {fields : List (String × Value)} {levels : Nat} {v : Value}

private theorem everyItem_iff {P : Value → Prop} : EveryItem P items ↔ ∀ v ∈ items, v.Every P := by
  induction items with
  | nil => simp [EveryItem]
  | cons v rest ih => simp [EveryItem, ih]

theorem everyField_iff {P : Value → Prop} : EveryField P fields ↔ ∀ field ∈ fields, field.2.Every P := by
  induction fields with
  | nil => simp [EveryField]
  | cons field rest ih => simp [EveryField, ih]

theorem tidy_list : (Value.list items).Tidy ↔ ∀ v ∈ items, v.Tidy :=
  (and_iff_right trivial).trans everyItem_iff

theorem tidy_record :
    (Value.record fields).Tidy ↔ (fields.map Prod.fst).Nodup ∧ ∀ field ∈ fields, field.2.Tidy :=
  and_congr_right fun _ => everyField_iff

theorem whole_list : (Value.list items).Whole ↔ ∀ v ∈ items, v.Whole :=
  (and_iff_right trivial).trans everyItem_iff

theorem whole_record : (Value.record fields).Whole ↔ ∀ field ∈ fields, field.2.Whole :=
  (and_iff_right trivial).trans everyField_iff

theorem proper_list : (Value.list items).Proper ↔ ∀ v ∈ items, v.Proper := by
  constructor
  · intro h v hv
    exact ⟨tidy_list.mp h.tidy v hv, whole_list.mp h.whole v hv⟩
  · intro h
    exact ⟨tidy_list.mpr fun v hv => (h v hv).tidy, whole_list.mpr fun v hv => (h v hv).whole⟩

private theorem fitsAll_iff : FitsAll items levels ↔ ∀ v ∈ items, v.Fits levels := by
  induction items with
  | nil => simp [FitsAll]
  | cons v rest ih => simp [FitsAll, ih]

private theorem fitsFields_iff : FitsFields fields levels ↔ ∀ field ∈ fields, field.2.Fits levels := by
  induction fields with
  | nil => simp [FitsFields]
  | cons field rest ih => simp [FitsFields, ih]

theorem fits_list : (Value.list items).Fits (levels + 1) ↔ ∀ v ∈ items, v.Fits levels := by
  rw [Fits, fitsAll_iff, Nat.add_sub_cancel]
  exact and_iff_right levels.succ_pos

theorem fits_record : (Value.record fields).Fits (levels + 1) ↔ ∀ field ∈ fields, field.2.Fits levels := by
  rw [Fits, fitsFields_iff, Nat.add_sub_cancel]
  exact and_iff_right levels.succ_pos

mutual

theorem every_blur {P : Value → Prop} (hP : ∀ v, P v.blur ↔ P v) (v : Value) :
    v.blur.Every P ↔ v.Every P := by
  cases v with
  | list items => exact and_congr (hP (.list items)) (everyItem_blurAll hP items)
  | record fields => exact and_congr (hP (.record fields)) (everyField_blurFields hP fields)
  | under name v => exact and_congr (hP (.under name v)) (every_blur hP v)
  | _ => exact hP _

private theorem everyItem_blurAll {P : Value → Prop} (hP : ∀ v, P v.blur ↔ P v) (items : List Value) :
    EveryItem P (blurAll items) ↔ EveryItem P items := by
  cases items with
  | nil => exact Iff.rfl
  | cons v rest => exact and_congr (every_blur hP v) (everyItem_blurAll hP rest)

private theorem everyField_blurFields {P : Value → Prop} (hP : ∀ v, P v.blur ↔ P v)
    (fields : List (String × Value)) : EveryField P (blurFields fields) ↔ EveryField P fields := by
  cases fields with
  | nil => exact Iff.rfl
  | cons field rest =>
    obtain ⟨name, v⟩ := field
    exact and_congr (every_blur hP v) (everyField_blurFields hP rest)

end

private theorem namesOnce_blur (v : Value) : v.blur.NamesOnce ↔ v.NamesOnce := by
  cases v with
  | record fields =>
    rw [blur, NamesOnce, NamesOnce, blurFields_eq_map, List.map_map]
    exact Iff.rfl
  | _ => exact Iff.rfl

private theorem isPaired_blur (v : Value) : v.blur.IsPaired ↔ v.IsPaired := by
  cases v <;> exact Iff.rfl

theorem Proper.of_blur_eq {w : Value} (h : v.Proper) (hblur : w.blur = v.blur) : w.Proper := by
  constructor
  · rw [Tidy, ← every_blur namesOnce_blur, hblur, every_blur namesOnce_blur]
    exact h.tidy
  · rw [Whole, ← every_blur isPaired_blur, hblur, every_blur isPaired_blur]
    exact h.whole

private theorem kind_blur (v : Value) : v.blur.kind = v.kind := by
  cases v with
  | under name v => exact kind_blur v
  | _ => rfl

theorem item_blur (v : Value) (name : String) : v.blur.item name = (v.item name).map blur := by
  cases v with
  | record fields =>
    rw [blur, blurFields_eq_map]
    unfold item
    dsimp only
    have hlookup : (fields.map fun field => (field.1, field.2.blur)).lookup name =
        (fields.lookup name).map blur := by
      induction fields with
      | nil => rfl
      | cons field rest ih =>
        rw [List.map_cons, List.lookup_cons, List.lookup_cons, ih]
        cases name == field.1 <;> rfl
    rw [hlookup]
    cases fields.lookup name <;> rfl
  | under _ v => exact congrArg (fun kind => fail (.notIndexable kind)) (kind_blur v)
  | _ => rfl

private theorem eq_text_of_blur {s : String} (h : v.blur = .text s) : v = .text s := by
  cases v with
  | text t => exact h
  | _ => simp [blur] at h

theorem eq_list_of_blur (h : v.blur = (Value.list items).blur) :
    ∃ items', v = .list items' ∧ items'.map blur = items.map blur := by
  cases v with
  | list items' =>
    rw [blur, blur, list.injEq, blurAll_eq_map, blurAll_eq_map] at h
    exact ⟨items', rfl, h⟩
  | _ => simp [blur] at h

theorem item_of_blur_eq {w : Value} (hblur : w.blur = v.blur) {name s : String}
    (h : v.item name = .ok (.text s)) : w.item name = .ok (.text s) := by
  have hitem : (w.item name).map blur = .ok (.text s) := by
    rw [← item_blur, hblur, item_blur, h]
    rfl
  cases hw : w.item name with
  | ok u =>
    rw [hw] at hitem
    rw [eq_text_of_blur (Except.ok.inj hitem)]
  | error e =>
    rw [hw] at hitem
    cases hitem

private theorem map_fst_set (fields : Fields) (name : String) (v : Value) :
    (fields.set name v).map Prod.fst =
      if name ∈ fields.map Prod.fst then fields.map Prod.fst else fields.map Prod.fst ++ [name] := by
  induction fields with
  | nil => rfl
  | cons field rest ih =>
    obtain ⟨other, w⟩ := field
    rw [Fields.set]
    by_cases h : other = name
    · simp [h]
    · have hne : ¬ name = other := fun heq => h heq.symm
      simp only [beq_iff_eq, h, if_false, List.map_cons, ih, List.mem_cons, hne, false_or]
      split <;> rfl

theorem Tidy.set {fields : Fields} (h : (Value.record fields).Tidy) (name : String) (hv : v.Tidy) :
    (Value.record (fields.set name v)).Tidy := by
  rw [tidy_record] at h ⊢
  constructor
  · rw [map_fst_set]
    split
    case isTrue => exact h.1
    case isFalse hnew =>
      exact h.1.append (List.nodup_singleton name) (List.disjoint_singleton.mpr hnew)
  · intro field hfield
    rcases Csv.value_of_mem_set hfield with hvalue | hold
    · rwa [hvalue]
    · exact h.2 field hold

theorem Whole.set {fields : Fields} (h : (Value.record fields).Whole) (name : String) (hv : v.Whole) :
    (Value.record (fields.set name v)).Whole := by
  rw [whole_record] at h ⊢
  intro field hfield
  rcases Csv.value_of_mem_set hfield with hvalue | hold
  · rwa [hvalue]
  · exact h field hold

end Value

namespace Json

/-! ### Blanks -/

/-- What is written between items: blanks and line feeds. -/
def IsGap (gap : List Char) : Prop :=
  ∀ c ∈ gap, c = ' ' ∨ c = '\n'

variable {gap : List Char} {levels level : Nat} {step : Option Nat}

private theorem IsGap.spaces (h : IsGap gap) : Spaces gap := by
  intro c hc
  rcases h c hc with rfl | rfl <;> rfl

private theorem isGap_nil : IsGap [] :=
  List.forall_mem_nil _

private theorem isGap_blank : IsGap [' '] := by
  simp [IsGap]

private theorem isGap_lineBreak (step level : Nat) : IsGap (lineBreak step level).toList := by
  intro c hc
  rw [lineBreak, String.toList_append] at hc
  rcases List.mem_append.mp hc with hc | hc
  · exact .inr (by simpa using hc)
  · rw [String.toList_ofList] at hc
    exact .inl (List.eq_of_mem_replicate hc)

private theorem intercalate_cons_eq (sep t : List Char) (ts : List (List Char)) :
    sep.intercalate (t :: ts) = t ++ ts.flatMap (sep ++ ·) := by
  induction ts generalizing t with
  | nil => simp [List.intercalate]
  | cons u us ih =>
    rw [List.intercalate_cons_cons, ih, List.flatMap_cons, List.append_assoc, List.append_assoc]

def following (gap : List Char) (texts : List String) : List Char :=
  texts.flatMap fun t => ',' :: (gap ++ t.toList)

private theorem toList_bracket (step : Option Nat) (level : Nat) (left right text : String)
    (texts : List String) :
    ∃ before gap after, IsGap before ∧ IsGap gap ∧
      IsGap after ∧
      (bracket step level left right (text :: texts)).toList =
        left.toList ++ (before ++ (text.toList ++ (following gap texts ++ (after ++ right.toList)))) := by
  have hjoin : ∀ sep : String, (sep.intercalate (text :: texts)).toList =
      text.toList ++ (texts.map String.toList).flatMap (sep.toList ++ ·) := by
    intro sep
    rw [String.toList_intercalate, List.map_cons, intercalate_cons_eq]
  cases step with
  | none =>
    refine ⟨[], [' '], [], isGap_nil, isGap_blank, isGap_nil, ?_⟩
    simp [bracket, hjoin, following, List.flatMap_map]
  | some k =>
    refine ⟨(lineBreak k (level + 1)).toList, (lineBreak k (level + 1)).toList,
      (lineBreak k level).toList, isGap_lineBreak _ _, isGap_lineBreak _ _, isGap_lineBreak _ _, ?_⟩
    simp [bracket, hjoin, following, List.flatMap_map]

private theorem begins_bracket (step : Option Nat) (level : Nat) (left : Char) (right : String)
    (texts : List String) :
    ∃ cs, (bracket step level (String.ofList [left]) right texts).toList = left :: cs := by
  cases texts with
  | nil => exact ⟨right.toList, by simp [bracket]⟩
  | cons text texts =>
    obtain ⟨before, gap, after, -, -, -, htext⟩ :=
      toList_bracket step level (String.ofList [left]) right text texts
    exact ⟨_, by rw [htext, String.toList_ofList]; rfl⟩

/-! ### Texts and numbers -/

private theorem readsAs_quote (levels : Nat) (fits : Prop) (s : String) :
    ReadsAs levels fits (quote s).toList (.value (.text s)) := by
  have hread : ReadsAs levels fits _ _ := readsAs_text (spellsText_escape s.toList)
  rwa [← toList_quote, Value.ofPoints_char] at hread

private theorem readsAs_toString_int (levels : Nat) (n : Int) :
    ReadsAs levels ((Value.int n).Fits levels) (toString n).toList (.value (.int n)) := by
  have hread : ReadsAs levels _ _ _ := readsAs_int (n < 0) (isWhole_toDigits n.natAbs)
  rwa [signed_digitsValue, ← toList_toString_int] at hread

private theorem readsAs_writeReal (levels : Nat) (fits : Prop) (x : Float) :
    ∃ y, ReadsAs levels fits (writeReal x).toList (.value (.real y)) := by
  unfold writeReal
  cases hx : Number.exact x with
  | nan => exact ⟨_, @readsAs_word levels fits _ "NaN" (.tail _ <| .tail _ <| .tail _ <| .head _)⟩
  | infinite negative =>
    cases negative with
    | true =>
      exact ⟨_, @readsAs_word levels fits _ "-Infinity"
        (.tail _ <| .tail _ <| .tail _ <| .tail _ <| .tail _ <| .head _)⟩
    | false =>
      exact ⟨_, @readsAs_word levels fits _ "Infinity"
        (.tail _ <| .tail _ <| .tail _ <| .tail _ <| .head _)⟩
  | finite negative m e =>
    obtain ⟨whole, frac, es, htext, hwhole, hfrac, hes, hreal⟩ := write_eq hx
    obtain ⟨_, hspells⟩ := hes.spells
    dsimp only
    rw [htext]
    exact ⟨_, readsAs_real negative hwhole hfrac hspells hreal⟩

/-! ### Lists and records -/

def memberText (step : Option Nat) (level : Nat) (field : String × Value) : String :=
  quote field.1 ++ ": " ++ writeAt step level field.2

private theorem writeAll_eq_map (step : Option Nat) (level : Nat) (items : List Value) :
    writeAll step level items = items.map (writeAt step level) := by
  induction items with
  | nil => rfl
  | cons v rest ih => rw [writeAll, ih, List.map_cons]

private theorem writeFields_eq_map (step : Option Nat) (level : Nat) (fields : List (String × Value)) :
    writeFields step level fields = fields.map (memberText step level) := by
  induction fields with
  | nil => rfl
  | cons field rest ih => rw [writeFields, ih, List.map_cons, memberText]

/-- Texts one after the other are read as their parts, if the reader knows how to go on from one to the
next. What `f` tells of a part is kept. -/
theorem readsAs_following (one : α → Part) (many : List α → Part) {f : α → γ} {fits : α → Prop}
    {text : α → String} {after : List Char}
    (hlast : ∀ {fits cs a}, ReadsAs levels fits cs (one a) → ReadsAs levels fits (cs ++ after) (many [a]))
    (hnext : ∀ {fits cs ds a as}, ReadsAs levels fits cs (one a) → ReadsAs levels fits ds (many as) →
      ReadsAs levels fits (cs ++ ',' :: (gap ++ ds)) (many (a :: as))) {a : α} {as : List α}
    (h : ∀ x ∈ a :: as, ∃ b, f b = f x ∧ ReadsAs levels (fits x) (text x).toList (one b)) :
    ∃ bs, bs.map f = (a :: as).map f ∧ ReadsAs levels (∀ x ∈ a :: as, fits x)
      ((text a).toList ++ (following gap (as.map text) ++ after)) (many bs) := by
  obtain ⟨b, hb, hread⟩ := h a (by simp)
  replace hread := hread.mono fun hall : ∀ x ∈ a :: as, fits x => hall a (by simp)
  induction as generalizing a b with
  | nil => exact ⟨[b], by simp [hb], by simpa [following] using hlast hread⟩
  | cons a' as ih =>
    obtain ⟨b', hb', hread'⟩ := h a' (by simp)
    obtain ⟨bs, hbs, hreads⟩ := ih (fun x hx => h x (by simp_all)) b' hb'
      (hread'.mono fun hall : ∀ x ∈ a' :: as, fits x => hall a' (by simp))
    refine ⟨b :: bs, by rw [List.map_cons, List.map_cons, hb, hbs], ?_⟩
    have hboth := hnext hread (hreads.mono fun hall x hx => hall x (by simp_all))
    simpa [following] using hboth

private theorem readsAs_writeList {items : List Value}
    (h : ∀ levels, ∀ v ∈ items, ∃ w, w.blur = v.blur ∧
      ReadsAs levels (v.Fits levels) (writeAt step (level + 1) v).toList (.value w)) :
    ∃ w, w.blur = (Value.list items).blur ∧
      ReadsAs levels ((Value.list items).Fits levels) (writeAt step level (.list items)).toList
        (.value w) := by
  rw [writeAt, writeAll_eq_map]
  cases levels with
  | zero =>
    obtain ⟨cs, hcs⟩ := begins_bracket step level '[' "]" (items.map (writeAt step (level + 1)))
    rw [show "[" = String.ofList ['['] from rfl, hcs]
    exact ⟨_, rfl, readsAs_tooDeep (.inl rfl) (fun hfits => hfits.1.false) _⟩
  | succ levels =>
    cases items with
    | nil => exact ⟨_, rfl, by simpa [bracket] using readsAs_emptyList spaces_nil⟩
    | cons v vs =>
      obtain ⟨before, gap, after, hbefore, hgap, hafter, htext⟩ := toList_bracket step level "[" "]"
        (writeAt step (level + 1) v) (vs.map (writeAt step (level + 1)))
      obtain ⟨ws, hws, hread⟩ := readsAs_following .value .items
        (fun hitem => readsAs_lastItem hitem hafter.spaces)
        (fun hitem hothers => readsAs_nextItem hitem spaces_nil hgap.spaces hothers) (h levels)
      refine ⟨.list ws, ?_, ?_⟩
      · rw [Value.blur, Value.blur, Value.blurAll_eq_map, Value.blurAll_eq_map, hws]
      · rw [List.map_cons, htext]
        simpa using (readsAs_list hbefore.spaces hread).mono Value.fits_list.mp

private theorem map_fst_of_blurFields {fields pairs : List (String × Value)}
    (h : Value.blurFields pairs = Value.blurFields fields) : pairs.map Prod.fst = fields.map Prod.fst := by
  have hnames := congrArg (List.map Prod.fst) h
  rwa [Value.blurFields_eq_map, Value.blurFields_eq_map, List.map_map, List.map_map] at hnames

private theorem readsAs_memberText {fits : Prop} {v w : Value}
    (h : ReadsAs levels fits (writeAt step level v).toList (.value w)) (name : String) :
    ReadsAs levels fits (memberText step level (name, v)).toList (.member (name, w)) := by
  have hmember := readsAs_member (spellsText_escape name.toList) spaces_nil isGap_blank.spaces h
  rw [Fields.entry_char] at hmember
  simpa [memberText, toList_quote] using hmember

private theorem readsAs_writeRecord {fields : List (String × Value)} (hnodup : (fields.map Prod.fst).Nodup)
    (h : ∀ levels, ∀ field ∈ fields, ∃ w, w.blur = field.2.blur ∧
      ReadsAs levels (field.2.Fits levels) (writeAt step (level + 1) field.2).toList (.value w)) :
    ∃ w, w.blur = (Value.record fields).blur ∧
      ReadsAs levels ((Value.record fields).Fits levels) (writeAt step level (.record fields)).toList
        (.value w) := by
  rw [writeAt, writeFields_eq_map]
  cases levels with
  | zero =>
    obtain ⟨cs, hcs⟩ :=
      begins_bracket step level '\x7b' "\x7d" (fields.map (memberText step (level + 1)))
    rw [show "\x7b" = String.ofList ['\x7b'] from rfl, hcs]
    exact ⟨_, rfl, readsAs_tooDeep (.inr rfl) (fun hfits => hfits.1.false) _⟩
  | succ levels =>
    cases fields with
    | nil => exact ⟨_, rfl, by simpa [bracket] using readsAs_emptyRecord spaces_nil⟩
    | cons field fields =>
      obtain ⟨before, gap, after, hbefore, hgap, hafter, htext⟩ := toList_bracket step level "\x7b" "\x7d"
        (memberText step (level + 1) field) (fields.map (memberText step (level + 1)))
      have hmembers : ∀ x ∈ field :: fields, ∃ pair : String × Value,
          (pair.1, pair.2.blur) = (x.1, x.2.blur) ∧
          ReadsAs levels (x.2.Fits levels) (memberText step (level + 1) x).toList (.member pair) := by
        intro x hx
        obtain ⟨w, hblur, hread⟩ := h levels x hx
        exact ⟨(x.1, w), by rw [hblur], readsAs_memberText hread x.1⟩
      obtain ⟨pairs, hpairs, hread⟩ := readsAs_following .member .members
        (fun hmember => readsAs_lastMember hmember hafter.spaces)
        (fun hmember hothers => readsAs_nextMember hmember spaces_nil hgap.spaces hothers) hmembers
      rw [← Value.blurFields_eq_map, ← Value.blurFields_eq_map] at hpairs
      have hnames : (pairs.map Prod.fst).Nodup := by rwa [map_fst_of_blurFields hpairs]
      refine ⟨.record (Fields.ofPairs pairs), ?_, ?_⟩
      · rw [Csv.ofPairs_of_nodup hnames, Value.blur, Value.blur, hpairs]
      · rw [List.map_cons, htext]
        simpa using (readsAs_record hbefore.spaces hread).mono Value.fits_record.mp

mutual

theorem readsAs_writeAt (step : Option Nat) (level : Nat) (v : Value) (hproper : v.Proper) (levels : Nat) :
    ∃ w, w.blur = v.blur ∧ ReadsAs levels (v.Fits levels) (writeAt step level v).toList (.value w) := by
  cases v with
  | null => exact ⟨_, rfl, readsAs_word (.head _)⟩
  | bool b =>
    cases b with
    | true => exact ⟨_, rfl, readsAs_word (.tail _ <| .head _)⟩
    | false => exact ⟨_, rfl, readsAs_word (.tail _ <| .tail _ <| .head _)⟩
  | int n => exact ⟨_, rfl, readsAs_toString_int levels n⟩
  | real x =>
    obtain ⟨y, hread⟩ := readsAs_writeReal levels ((Value.real x).Fits levels) x
    exact ⟨.real y, rfl, hread⟩
  | text s => exact ⟨_, rfl, readsAs_quote levels _ s⟩
  | unpaired u => exact hproper.whole.elim
  | list items =>
    exact readsAs_writeList (readsAs_writeAll step (level + 1) items (Value.proper_list.mp hproper))
  | record fields =>
    obtain ⟨hnames, htidy⟩ := Value.tidy_record.mp hproper.tidy
    have hwhole := Value.whole_record.mp hproper.whole
    exact readsAs_writeRecord hnames (readsAs_writeFields step (level + 1) fields
      fun field hfield => ⟨htidy field hfield, hwhole field hfield⟩)
  | under name v => exact hproper.whole.1.elim

private theorem readsAs_writeAll (step : Option Nat) (level : Nat) (items : List Value)
    (hproper : ∀ v ∈ items, v.Proper) (levels : Nat) : ∀ v ∈ items, ∃ w, w.blur = v.blur ∧
      ReadsAs levels (v.Fits levels) (writeAt step level v).toList (.value w) := by
  cases items with
  | nil => exact List.forall_mem_nil _
  | cons v rest =>
    obtain ⟨hv, hrest⟩ := List.forall_mem_cons.mp hproper
    exact List.forall_mem_cons.mpr ⟨readsAs_writeAt step level v hv levels,
      readsAs_writeAll step level rest hrest levels⟩

private theorem readsAs_writeFields (step : Option Nat) (level : Nat) (fields : List (String × Value))
    (hproper : ∀ field ∈ fields, field.2.Proper) (levels : Nat) :
    ∀ field ∈ fields, ∃ w, w.blur = field.2.blur ∧
      ReadsAs levels (field.2.Fits levels) (writeAt step level field.2).toList (.value w) := by
  cases fields with
  | nil => exact List.forall_mem_nil _
  | cons field rest =>
    obtain ⟨name, v⟩ := field
    obtain ⟨hv, hrest⟩ := List.forall_mem_cons.mp hproper
    exact List.forall_mem_cons.mpr ⟨readsAs_writeAt step level v hv levels,
      readsAs_writeFields step level rest hrest levels⟩

end

/-- A written document reads back, with its real numbers blurred, or is refused if it does not keep to the
limits of size. -/
theorem read_writeIndented {v : Value} (hproper : v.Proper) (step : Nat) :
    (∃ w, read (writeIndented step v) = .ok w ∧ w.blur = v.blur) ∨
      ∃ e, read (writeIndented step v) = .error e ∧ e.OfLimit ∧ ¬ v.Fits nestingLimit := by
  obtain ⟨w, hblur, hread⟩ := readsAs_writeAt (some step) 0 v hproper nestingLimit
  rcases hread.read (s := writeIndented step v) spaces_nil spaces_nil (List.append_nil _).symm with
    hok | hrefused
  · exact .inl ⟨w, hok, hblur⟩
  · exact .inr hrefused

/-! ### No character that ends a line -/

private theorem IsGap.return_notMem (h : IsGap gap) : '\r' ∉ gap := by
  intro hmem
  rcases h _ hmem with h | h <;> exact absurd h (by decide)

private theorem return_notMem_bracket (step : Option Nat) (level : Nat) {left right : String}
    (hleft : '\r' ∉ left.toList) (hright : '\r' ∉ right.toList) {texts : List String}
    (htexts : ∀ text ∈ texts, '\r' ∉ text.toList) :
    '\r' ∉ (bracket step level left right texts).toList := by
  cases texts with
  | nil => simp [bracket, hleft, hright]
  | cons text texts =>
    obtain ⟨before, gap, after, hbefore, hgap, hafter, htext⟩ :=
      toList_bracket step level left right text texts
    have hfollowing : '\r' ∉ following gap texts := by
      intro hmem
      obtain ⟨t, ht, hmem⟩ := List.mem_flatMap.mp hmem
      have hgap := hgap.return_notMem
      have ht := htexts t (List.mem_cons_of_mem _ ht)
      simp_all
    have hfirst := htexts text (by simp)
    rw [htext]
    simp [hleft, hright, hbefore.return_notMem, hafter.return_notMem, hfollowing, hfirst]

private theorem return_notMem_writeReal (x : Float) : '\r' ∉ (writeReal x).toList := by
  unfold writeReal
  cases hx : Number.exact x with
  | nan => simp
  | infinite negative => cases negative <;> simp
  | finite negative m e => exact return_notMem_write hx

mutual

private theorem return_notMem_writeAt (step : Option Nat) (level : Nat) (v : Value) :
    '\r' ∉ (writeAt step level v).toList := by
  cases v with
  | null => simp [writeAt]
  | bool b => cases b <;> simp [writeAt]
  | int n => exact return_notMem_int n
  | real x => exact return_notMem_writeReal x
  | text s => exact return_notMem_quote s
  | unpaired u => exact return_notMem_quote u.shown
  | list items =>
    exact return_notMem_bracket step level (by simp) (by simp)
      (return_notMem_writeAll step (level + 1) items)
  | record fields =>
    exact return_notMem_bracket step level (by simp) (by simp)
      (return_notMem_writeFields step (level + 1) fields)
  | under name v => exact return_notMem_writeAt step level v

private theorem return_notMem_writeAll (step : Option Nat) (level : Nat) (items : List Value) :
    ∀ text ∈ writeAll step level items, '\r' ∉ text.toList := by
  cases items with
  | nil => exact List.forall_mem_nil _
  | cons v rest =>
    rw [writeAll, List.forall_mem_cons]
    exact ⟨return_notMem_writeAt step level v, return_notMem_writeAll step level rest⟩

private theorem return_notMem_writeFields (step : Option Nat) (level : Nat) (fields : List (String × Value)) :
    ∀ text ∈ writeFields step level fields, '\r' ∉ text.toList := by
  cases fields with
  | nil => exact List.forall_mem_nil _
  | cons field rest =>
    obtain ⟨name, v⟩ := field
    have hname := return_notMem_quote name
    have hv := return_notMem_writeAt step level v
    rw [writeFields, List.forall_mem_cons]
    exact ⟨by simp [hname, hv], return_notMem_writeFields step level rest⟩

end

/-- No line end of a written document is changed when it is read from a file. -/
theorem unifyLineEnds_writeIndented (step : Nat) (v : Value) :
    Text.unifyLineEnds (writeIndented step v).toList = (writeIndented step v).toList := by
  have h := Text.unifyLineEnds_append (return_notMem_writeAt (some step) 0 v) []
  rwa [List.append_nil, Text.unifyLineEnds, List.append_nil] at h

end Json

end ThreatAtlas
