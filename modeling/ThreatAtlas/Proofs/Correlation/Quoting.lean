import ThreatAtlas.Correlation.Run
import ThreatAtlas.Proofs.Failure
import ThreatAtlas.Proofs.Text.Replace
import ThreatAtlas.Proofs.Value

/-!
# Clues as literals of a query

The value of a clue stands between single quotes in the queries for it. The query language reads such
a literal with escapes that begin with a backslash, while only the quotes of a value are escaped. So
a value is read as itself exactly if none of its backslashes begins an escape.
-/

namespace ThreatAtlas.Correlation

/-- The characters that a backslash and one more character stand for. -/
def escaped? : Char → Option Char
  | '\\' => some '\\'
  | '\'' => some '\''
  | '"' => some '"'
  | 'b' => some '\x08'
  | 'f' => some '\x0c'
  | 'n' => some '\n'
  | 'r' => some '\r'
  | 't' => some '\t'
  | _ => none

def beginsEscape (c : Char) : Bool :=
  c = 'u' || (escaped? c).isSome

inductive Spot where
  | plain
  | backslash
  /-- At a digit of a character's code, with so many digits behind it and this number before it. -/
  | code (more value : Nat)

/-- Reads a single-quoted literal from behind its opening quote: what it stands for, and the text
behind its closing quote. A backslash that begins no escape is refused, or it `stays` what it is. -/
def readLiteral (stays : Bool) : Spot → List Char → Option (List Char × List Char)
  | _, [] => none
  | .plain, c :: rest =>
    if c = '\'' then some ([], rest)
    else if c = '\\' then readLiteral stays .backslash rest
    else (readLiteral stays .plain rest).map (Prod.map (c :: ·) id)
  | .backslash, c :: rest =>
    if c = 'u' then readLiteral stays (.code 3 0) rest
    else
      match escaped? c with
      | some d => (readLiteral stays .plain rest).map (Prod.map (d :: ·) id)
      | none =>
        if stays then (readLiteral stays .plain rest).map (Prod.map ('\\' :: c :: ·) id) else none
  | .code more value, c :: rest =>
    match Json.hexValue? c, more with
    | none, _ => none
    | some digit, 0 =>
      (readLiteral stays .plain rest).map (Prod.map (Char.ofNat (16 * value + digit) :: ·) id)
    | some digit, more + 1 => readLiteral stays (.code more (16 * value + digit)) rest

variable {stays : Bool} {spot : Spot} {text value rest v : List Char}

private theorem readLiteral_quote : readLiteral stays .plain ('\'' :: rest) = some ([], rest) :=
  rfl

private theorem readLiteral_open :
    readLiteral stays .plain ('\\' :: rest) = readLiteral stays .backslash rest :=
  rfl

variable {c : Char}

theorem readLiteral_plain (hquote : c ≠ '\'') (hopen : c ≠ '\\') : readLiteral stays .plain (c :: rest) =
      (readLiteral stays .plain rest).map (Prod.map (c :: ·) id) :=
  (if_neg hquote).trans (if_neg hopen)

private theorem readLiteral_code :
    readLiteral stays .backslash ('u' :: rest) = readLiteral stays (.code 3 0) rest :=
  rfl

private theorem readLiteral_backslash (hcode : c ≠ 'u') : readLiteral stays .backslash (c :: rest) =
      match escaped? c with
      | some d => (readLiteral stays .plain rest).map (Prod.map (d :: ·) id)
      | none =>
        if stays then (readLiteral stays .plain rest).map (Prod.map ('\\' :: c :: ·) id) else none :=
  if_neg hcode

theorem readLiteral_escape {d : Char} (h : escaped? c = some d) : readLiteral stays .backslash (c :: rest) =
      (readLiteral stays .plain rest).map (Prod.map (d :: ·) id) := by
  have hcode : c ≠ 'u' := by
    rintro rfl
    cases h
  rw [readLiteral_backslash hcode, h]

private theorem readLiteral_stay (h : beginsEscape c = false) : readLiteral stays .backslash (c :: rest) =
      if stays then (readLiteral stays .plain rest).map (Prod.map ('\\' :: c :: ·) id) else none := by
  rw [beginsEscape, Bool.or_eq_false_iff, decide_eq_false_iff_not, Option.isSome_eq_false_iff,
    Option.isNone_iff_eq_none] at h
  rw [readLiteral_backslash h.1, h.2]

private theorem readLiteral_code_of_not_digit {more n : Nat} (h : Json.hexValue? c = none) :
    readLiteral stays (.code more n) (c :: rest) = none := by
  unfold readLiteral
  rw [h]

/-- A backslash that is still open may add itself to what is read. -/
def Spot.pending : Spot → Nat
  | .backslash => 1
  | _ => 0

/-- A quote ends the literal, or the reader goes on behind the character from some spot, and makes at
most one character of it, an open backslash counted. -/
theorem readLiteral_cons_cases (h : readLiteral stays spot (c :: text) = some (value, rest)) :
    c = '\'' ∧ rest = text ∨
      ∃ spot' w, readLiteral stays spot' text = some (w, rest) ∧
        value.length + spot'.pending ≤ w.length + 1 + spot.pending := by
  cases spot with
  | plain =>
    rw [readLiteral] at h
    split at h
    case isTrue hquote =>
      cases h
      exact .inl ⟨hquote, rfl⟩
    case isFalse =>
      split at h
      · exact .inr ⟨_, _, h, by simp [Spot.pending]⟩
      · obtain ⟨w, hw, rfl⟩ := map_eq_some_read.mp h
        exact .inr ⟨_, _, hw, by simp [Spot.pending]⟩
  | backslash =>
    rw [readLiteral] at h
    split at h
    · exact .inr ⟨_, _, h, by simp only [Spot.pending]; omega⟩
    · split at h
      · obtain ⟨w, hw, rfl⟩ := map_eq_some_read.mp h
        exact .inr ⟨_, _, hw, by simp [Spot.pending]⟩
      · split at h
        · obtain ⟨w, hw, rfl⟩ := map_eq_some_read.mp h
          exact .inr ⟨_, _, hw, by simp [Spot.pending]⟩
        · cases h
  | code more n =>
    unfold readLiteral at h
    split at h
    · cases h
    · obtain ⟨w, hw, rfl⟩ := map_eq_some_read.mp h
      exact .inr ⟨_, _, hw, by simp [Spot.pending]⟩
    · exact .inr ⟨_, _, h, by simp [Spot.pending]⟩

private theorem length_rest_lt (h : readLiteral stays spot text = some (value, rest)) :
    rest.length < text.length := by
  induction text generalizing spot value with
  | nil => cases spot <;> cases h
  | cons c text ih =>
    rw [List.length_cons]
    rcases readLiteral_cons_cases h with ⟨-, rfl⟩ | ⟨spot', w, hw, -⟩
    · omega
    · exact Nat.lt_succ_of_lt (ih hw)

def guarded (c : Char) : List Char :=
  if c = '\'' then ['\\', '\''] else [c]

private theorem toList_quotable (v : String) : (quotable v).toList = v.toList.flatMap guarded := by
  rw [quotable, Text.replace, String.toList_ofList]
  exact Text.replaceChars_singleton '\'' ['\\', '\''] v.toList

/-- Every backslash of the value stays what it is: it stands before a character with which it begins
no escape. -/
def Unescaping (stays : Bool) (v : List Char) : Prop :=
  ∀ before after, v = before ++ '\\' :: after →
    stays = true ∧ ∃ c more, after = c :: more ∧ beginsEscape c = false

private theorem unescaping_nil : Unescaping stays [] := by
  intro before after h
  simp at h

private theorem unescaping_cons (hc : c ≠ '\\') : Unescaping stays (c :: v) ↔ Unescaping stays v := by
  constructor
  · intro h before after hv
    exact h (c :: before) after (by rw [hv, List.cons_append])
  · intro h before after hv
    cases before with
    | nil => exact absurd (List.cons.inj hv).1 hc
    | cons b before => exact h before after (List.cons.inj hv).2

private theorem not_unescaping_backslash : ¬ Unescaping stays ['\\'] := by
  intro h
  obtain ⟨-, c, more, hc, -⟩ := h [] [] rfl
  cases hc

private theorem unescaping_backslash : Unescaping stays ('\\' :: c :: v) ↔
      stays = true ∧ beginsEscape c = false ∧ Unescaping stays v := by
  constructor
  · intro h
    obtain ⟨hstays, d, more, hd, hplain⟩ := h [] (c :: v) rfl
    obtain ⟨rfl, rfl⟩ := List.cons.inj hd
    refine ⟨hstays, hplain, fun before after hv => ?_⟩
    exact h ('\\' :: c :: before) after (by rw [hv]; rfl)
  · rintro ⟨hstays, hplain, h⟩ before after hv
    cases before with
    | nil => exact ⟨hstays, c, v, (List.cons.inj hv).2.symm, hplain⟩
    | cons b before =>
      have hc : c ≠ '\\' := by
        rintro rfl
        exact absurd hplain (by decide)
      have hrest : Unescaping stays (c :: v) := (unescaping_cons hc).mpr h
      exact hrest before after (List.cons.inj hv).2

private theorem length_value_le
    (h : readLiteral stays spot (v.flatMap guarded ++ '\'' :: rest) = some (value, rest)) :
    value.length ≤ v.length + spot.pending := by
  induction v generalizing spot value with
  | nil =>
    rw [List.flatMap_nil, List.nil_append] at h
    cases spot with
    | plain =>
      rw [readLiteral_quote] at h
      cases h
      simp
    | backslash =>
      -- the closing quote is taken for an escaped one, and the literal would have to end before itself
      rw [readLiteral_escape rfl] at h
      obtain ⟨w, hw, -⟩ := map_eq_some_read.mp h
      exact absurd (length_rest_lt hw) (lt_irrefl _)
    | code more n =>
      rw [readLiteral_code_of_not_digit rfl] at h
      cases h
  | cons c v ih =>
    rw [List.flatMap_cons, List.append_assoc] at h
    rw [List.length_cons]
    by_cases hquote : c = '\''
    · rw [guarded, if_pos hquote, List.cons_append, List.cons_append, List.nil_append] at h
      cases spot with
      | plain =>
        rw [readLiteral_open, readLiteral_escape rfl] at h
        obtain ⟨w, hw, rfl⟩ := map_eq_some_read.mp h
        have hle := ih hw
        simp only [Spot.pending, List.length_cons] at hle ⊢
        omega
      | backslash =>
        rw [readLiteral_escape rfl, readLiteral_quote] at h
        have hlen := congrArg (·.2.length) (Option.some.inj h)
        simp only [Prod.map_apply, id_eq, List.length_append, List.length_cons] at hlen
        omega
      | code more n =>
        rw [readLiteral_code_of_not_digit rfl] at h
        cases h
    · rw [guarded, if_neg hquote, List.cons_append, List.nil_append] at h
      obtain ⟨hc, -⟩ | ⟨spot', w, hw, hle⟩ := readLiteral_cons_cases h
      · exact absurd hc hquote
      · have hshorter := ih hw
        omega

private theorem readLiteral_guarded_cons (hc : c ≠ '\\') (text : List Char) :
    readLiteral stays .plain ((c :: v).flatMap guarded ++ text) =
      (readLiteral stays .plain (v.flatMap guarded ++ text)).map (Prod.map (c :: ·) id) := by
  rw [List.flatMap_cons, List.append_assoc, guarded]
  split
  case isTrue hquote =>
    rw [hquote, List.cons_append, readLiteral_open]
    exact readLiteral_escape rfl
  case isFalse hquote => exact readLiteral_plain hquote hc

private theorem readLiteral_guarded_escape (hc : beginsEscape c = true) :
    readLiteral stays .plain (('\\' :: c :: v).flatMap guarded ++ '\'' :: rest) ≠
      some ('\\' :: c :: v, rest) := by
  intro h
  rw [List.flatMap_cons, List.flatMap_cons, List.append_assoc, List.append_assoc,
    show guarded '\\' = ['\\'] from rfl, List.cons_append, List.nil_append, readLiteral_open] at h
  by_cases hquote : c = '\''
  · subst hquote
    rw [show guarded '\'' = ['\\', '\''] from rfl, List.cons_append, List.cons_append,
      readLiteral_escape rfl, readLiteral_quote] at h
    simp at h
  · rw [guarded, if_neg hquote, List.cons_append, List.nil_append] at h
    by_cases hcode : c = 'u'
    · subst hcode
      rw [readLiteral_code] at h
      have hle := length_value_le h
      simp [Spot.pending] at hle
    · obtain ⟨d, hd⟩ : ∃ d, escaped? c = some d := by
        simpa [beginsEscape, hcode, Option.isSome_iff_exists] using hc
      rw [readLiteral_escape hd] at h
      obtain ⟨w, hw, hvalue⟩ := map_eq_some_read.mp h
      have hle := length_value_le hw
      rw [← (List.cons.inj hvalue).2] at hle
      simp [Spot.pending] at hle

/-- A value is read as itself, up to the quote that was put behind it, exactly if none of its
backslashes begins an escape. -/
theorem readLiteral_guarded_iff :
    readLiteral stays .plain (v.flatMap guarded ++ '\'' :: rest) = some (v, rest) ↔
      Unescaping stays v := by
  have hcons {c : Char} {v : List Char} (hc : c ≠ '\\')
      (ih : readLiteral stays .plain (v.flatMap guarded ++ '\'' :: rest) = some (v, rest) ↔
        Unescaping stays v) :
      readLiteral stays .plain ((c :: v).flatMap guarded ++ '\'' :: rest) = some (c :: v, rest) ↔
        Unescaping stays (c :: v) := by
    rw [readLiteral_guarded_cons hc, unescaping_cons hc, map_eq_some_read, ← ih]
    simp
  induction v using List.twoStepInduction with
  | nil => simp [readLiteral_quote, unescaping_nil]
  | singleton c =>
    by_cases hc : c = '\\'
    · subst hc
      refine iff_of_false ?_ not_unescaping_backslash
      intro h
      rw [show ['\\'].flatMap guarded = ['\\'] from rfl, List.cons_append, readLiteral_open,
        List.nil_append, readLiteral_escape rfl] at h
      obtain ⟨w, -, hvalue⟩ := map_eq_some_read.mp h
      exact absurd (List.cons.inj hvalue).1 (by decide)
    · exact hcons hc (by simp [readLiteral_quote, unescaping_nil])
  | cons_cons c d v ih ih' =>
    by_cases hc : c = '\\'
    · subst hc
      rw [unescaping_backslash]
      cases hd : beginsEscape d with
      | true => exact iff_of_false (readLiteral_guarded_escape hd) (by simp)
      | false =>
        have hquote : d ≠ '\'' := by
          rintro rfl
          cases hd
        rw [List.flatMap_cons, List.flatMap_cons, List.append_assoc, List.append_assoc,
          show guarded '\\' = ['\\'] from rfl, List.cons_append, List.nil_append, readLiteral_open,
          guarded, if_neg hquote, List.cons_append, List.nil_append, readLiteral_stay hd]
        cases stays with
        | false => simp
        | true => simpa [map_eq_some_read] using ih
    · exact hcons hc (ih' d)

/-- The text leaves a reader outside of literals: its quotes come in pairs, and none is escaped. -/
def Paired (cs : List Char) : Prop :=
  '\\' ∉ cs ∧ cs.count '\'' % 2 = 0

instance (cs : List Char) : Decidable (Paired cs) :=
  inferInstanceAs (Decidable (_ ∧ _))

private theorem Paired.append {a b : List Char} (ha : Paired a) (hb : Paired b) : Paired (a ++ b) := by
  obtain ⟨ha, hca⟩ := ha
  obtain ⟨hb, hcb⟩ := hb
  refine ⟨by simp [ha, hb], ?_⟩
  rw [List.count_append]
  omega

private theorem paired_intercalate {sep : List Char} {parts : List (List Char)} (hsep : Paired sep)
    (hparts : ∀ p ∈ parts, Paired p) : Paired (sep.intercalate parts) := by
  induction parts with
  | nil => simp [Paired]
  | cons p parts ih =>
    have hp := hparts p (by simp)
    have hrest := ih fun q hq => hparts q (by simp [hq])
    cases parts with
    | nil => simpa using hp
    | cons q parts =>
      rw [List.intercalate_cons_cons]
      exact (hp.append hsep).append hrest

private theorem paired_searchable {node : String} (hnode : Paired node.toList) :
    Paired (searchable node).toList := by
  rw [searchable, String.toList_intercalate]
  refine paired_intercalate (by decide) ?_
  intro part hpart
  simp only [List.map_map, List.mem_map] at hpart
  obtain ⟨name, hname, rfl⟩ := hpart
  have hnames : ∀ name ∈ searchedProperties, Paired name.toList := by decide
  have hquoted : Paired (")['" ++ name ++ "'], '')").toList := by
    obtain ⟨hplain, hcount⟩ := hnames name hname
    refine ⟨by simp [hplain], ?_⟩
    simp only [String.toList_append, List.count_append]
    have hleft : ")['".toList.count '\'' = 1 := by decide
    have hright : "'], '')".toList.count '\'' = 3 := by decide
    omega
  have hfirst : Paired "coalesce(properties(".toList := by decide
  simpa [String.toList_append, toString] using (hfirst.append hnode).append hquoted

/-- A query is built around a literal: what it is built from goes between two single quotes, of which
the first one opens a literal. -/
structure Frame (build : String → String) where
  before : List Char
  after : List Char
  toList_build : ∀ literal, (build literal).toList =
    before ++ '\'' :: (literal.toList ++ '\'' :: after)
  paired : Paired before

namespace Frame

variable {build : String → String}

/-- Where `literal` was put, a reader of the query finds just the text `value` and goes on behind
the quote that was put after it. -/
def Reads (frame : Frame build) (stays : Bool) (literal value : String) : Prop :=
  readLiteral stays .plain (literal.toList ++ '\'' :: frame.after) = some (value.toList, frame.after)

private theorem reads_quotable_iff (frame : Frame build) (v : String) :
    frame.Reads stays (quotable v) v ↔ Unescaping stays v.toList := by
  rw [Reads, toList_quotable, readLiteral_guarded_iff]

def ofTexts (before opening closing : String)
    (hbuild : ∀ literal, build literal = before ++ (opening ++ "'") ++ literal ++ closing)
    (hpaired : Paired (before ++ opening).toList) (hclosing : closing.toList.head? = some '\'') :
    Frame build where
  before := (before ++ opening).toList
  after := closing.toList.tail
  toList_build literal := by
    have hclosing : closing.toList = '\'' :: closing.toList.tail := by
      rw [List.cons_head?_tail hclosing]
    rw [hbuild, ← hclosing]
    simp [String.toList_append]
  paired := hpaired

end Frame

private theorem head?_toList_of_eq {s : String} {cs : List Char} (h : s = String.ofList (c :: cs)) :
    s.toList.head? = some c := by
  rw [h, String.toList_ofList, List.head?_cons]

private theorem paired_comparison {opening operator node : String} (hopening : Paired opening.toList)
    (hoperator : Paired operator.toList) (hnode : Paired node.toList) :
    Paired (opening ++ searchable node ++ operator).toList := by
  rw [String.toList_append, String.toList_append]
  exact (hopening.append (paired_searchable hnode)).append hoperator

set_option maxRecDepth 4000 in
def equalFrame : Frame equalNodes :=
  .ofTexts _ ") = toLower(" _ (fun _ => rfl)
    (paired_comparison (by decide) (by decide) (by decide)) (head?_toList_of_eq rfl)

set_option maxRecDepth 4000 in
def containingFrame : Frame containingNodes :=
  .ofTexts _ ") CONTAINS toLower(" _ (fun _ => rfl)
    (paired_comparison (by decide) (by decide) (by decide)) (head?_toList_of_eq rfl)

set_option maxRecDepth 4000 in
def nearbyFrame (reach : String) (withIncidents : Bool) :
    Frame (nearbyGroups · reach withIncidents) :=
  .ofTexts _ ") CONTAINS toLower(" _ (fun _ => rfl)
    (paired_comparison (by decide) (by decide) (by decide)) (by simp [String.toList_append])

/-- The queries for a clue hold its value as a literal, between the two queries for nodes and the one
for groups near them only those through an index. -/
theorem clueQueries_eq {index artifact : Value} {loose : Int} {o : Options} {v : String}
    {queries : List String} (hvalue : artifact.get "value" = .ok (.text v))
    (hqueries : clueQueries index loose o artifact = .ok queries) :
    ∃ reach indexed, queries = [equalNodes (quotable v), containingNodes (quotable v)] ++ indexed ++
      [nearbyGroups (quotable v) reach o.includeIncidents.truthy] := by
  unfold clueQueries at hqueries
  rw [hvalue] at hqueries
  obtain ⟨_, ⟨⟩, hqueries⟩ := bind_eq_ok.mp hqueries
  obtain ⟨steps, -, hqueries⟩ := bind_eq_ok.mp hqueries
  rw [Value.orElse_empty_text] at hqueries
  exact ⟨steps.display, _, (pure_eq_ok.mp hqueries).symm⟩

/-- In the queries for a clue that search nodes and groups near them, the literal of its value is read
as that value, up to the quote that was written behind it, exactly if every backslash of the value
stands before a character with which it begins no escape, and the query language lets it stay there. -/
theorem clueQueries_read_iff {index artifact : Value} {loose : Int} {o : Options} {v : String}
    {queries : List String} (hvalue : artifact.get "value" = .ok (.text v))
    (hqueries : clueQueries index loose o artifact = .ok queries) :
    ∃ reach indexed, queries = [equalNodes (quotable v), containingNodes (quotable v)] ++ indexed ++
        [nearbyGroups (quotable v) reach o.includeIncidents.truthy] ∧
      ∀ build ∈ [equalNodes, containingNodes, (nearbyGroups · reach o.includeIncidents.truthy)],
        ∃ frame : Frame build, ∀ stays,
          frame.Reads stays (quotable v) v ↔ Unescaping stays v.toList := by
  obtain ⟨reach, indexed, hqueries⟩ := clueQueries_eq hvalue hqueries
  refine ⟨reach, indexed, hqueries, ?_⟩
  intro build hbuild
  have hframe : Nonempty (Frame build) := by
    simp only [List.mem_cons, List.not_mem_nil, or_false] at hbuild
    rcases hbuild with rfl | rfl | rfl
    · exact ⟨equalFrame⟩
    · exact ⟨containingFrame⟩
    · exact ⟨nearbyFrame reach o.includeIncidents.truthy⟩
  obtain ⟨frame⟩ := hframe
  exact ⟨frame, fun stays => frame.reads_quotable_iff v⟩

/-- The path of a directory is searched for with a tab in it. -/
theorem clueQueries_misread_path :
    ∃ queries, clueQueries .null 30 {} (.record [("value", .text "C:\\temp")]) = .ok queries ∧
      ∃ frame : Frame equalNodes, equalNodes (quotable "C:\\temp") ∈ queries ∧
        ∀ stays, ¬ frame.Reads stays (quotable "C:\\temp") "C:\\temp" := by
  refine ⟨_, rfl, ?_⟩
  obtain ⟨reach, indexed, hqueries, hframes⟩ := @clueQueries_read_iff .null
    (.record [("value", .text "C:\\temp")]) 30 {} "C:\\temp" _ rfl rfl
  obtain ⟨frame, hreads⟩ := hframes equalNodes (by simp)
  refine ⟨frame, by rw [hqueries]; simp, fun stays hread => ?_⟩
  obtain ⟨-, c, more, hmore, hplain⟩ := (hreads stays).mp hread ['C', ':'] "temp".toList rfl
  cases hmore
  cases hplain

end ThreatAtlas.Correlation
