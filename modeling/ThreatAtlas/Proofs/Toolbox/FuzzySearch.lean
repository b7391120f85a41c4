import ThreatAtlas.Proofs.Text.Case
import ThreatAtlas.Proofs.Text.Class
import ThreatAtlas.Proofs.Toolbox.FailedQueries

/-!
# Finding an entity by its own name

The fuzzy search sends a keyword of which only letters and digits are left. The graph compares it with
names from which defanged dots, hyphens and blanks are taken away, and nothing else. So an entity is found
by its own name exactly if nothing else stands between the letters and digits of the name.
-/

namespace ThreatAtlas.Toolbox

open Job (Sends)

def isKeywordChar (c : Char) : Bool :=
  ('a' ≤ c && c ≤ 'z') || c.isDigit

def keywordChars (c : Char) : List Char :=
  (Text.lowerChars c).filter isKeywordChar

private theorem filter_lowerAfter (before cs : List Char) :
    (Text.lowerAfter before cs).filter isKeywordChar = cs.flatMap keywordChars := by
  induction cs generalizing before with
  | nil => rfl
  | cons c cs ih =>
    rw [Text.lowerAfter, List.filter_append, ih, List.flatMap_cons]
    congr 1
    by_cases hsigma : c = 'Σ'
    · have hnone : keywordChars 'Σ' = [] := by decide +kernel
      rw [hsigma, hnone, if_pos (beq_self_eq_true _)]
      cases Text.endsWord before cs <;> rfl
    · rw [keywordChars, Text.lowerChars]
      simp [hsigma]

private theorem filter_lower (s : String) :
    (Text.lower s).toList.filter isKeywordChar = s.toList.flatMap keywordChars := by
  rw [Text.lower, String.toList_ofList, filter_lowerAfter]

private theorem keywordChars_of_isBlank {c : Char} (h : Text.isBlank c = true) : keywordChars c = [] := by
  have hranges : ((Text.rangesOf Text.blankBounds.toList).all fun range =>
      (List.range' range.1 (range.2 - range.1)).all fun n =>
        (keywordChars (Char.ofNat n)).isEmpty) = true := by
    decide +kernel
  obtain ⟨range, hrange, hfirst, hstop⟩ := Text.exists_range_of_inRanges (by decide) h
  have hnone := List.all_eq_true.mp (List.all_eq_true.mp hranges range hrange) c.toNat
    (List.mem_range'_1.mpr (by omega))
  rwa [Char.ofNat_toNat, List.isEmpty_iff] at hnone

private theorem toList_skeleton (s : String) :
    (Indicator.skeleton s).toList = s.toList.flatMap keywordChars := by
  obtain ⟨before, after, hs, hbefore, hafter, -⟩ := Text.exists_padding s.toList
  have hskeleton : (Indicator.skeleton s).toList = (Text.stripChars s.toList).flatMap keywordChars := by
    rw [Indicator.skeleton, String.toList_ofList]
    change (Text.lower (Text.strip s)).toList.filter isKeywordChar = _
    rw [filter_lower, Text.strip, String.toList_ofList]
  conv_rhs => rw [hs]
  rw [hskeleton, List.flatMap_append, List.flatMap_append,
    List.flatMap_eq_nil_iff.mpr fun c hc => keywordChars_of_isBlank (hbefore c hc),
    List.flatMap_eq_nil_iff.mpr fun c hc => keywordChars_of_isBlank (hafter c hc),
    List.nil_append, List.append_nil]

/-- A text that the condition of a query is about: a property of the entity, or what is made from one. -/
inductive Term where
  | property (name : String)
  | replaced (of : Term) (old new : String)
  | lower (of : Term)

namespace Term

def written : Term → String
  | property name => "e." ++ name
  | replaced of old new => "replace(" ++ of.written ++ ", '" ++ old ++ "', '" ++ new ++ "')"
  | lower of => "toLower(" ++ of.written ++ ")"

/-- What the term stands for at an entity, unless the entity lacks the property. -/
def value (entity : String → Option String) : Term → Option String
  | property name => entity name
  | replaced of old new => (of.value entity).map (Text.replace old new)
  | lower of => (of.value entity).map Text.lower

end Term

def compared (property : String) : Term :=
  .lower (.replaced (.replaced (.replaced (.property property) "[.]" "") "-" "") " " "")

def fuzzyProperties : List String := ["name", "original_value"]

def fuzzyQuery : String :=
  "\n    MATCH (e:Entity)\n    WHERE " ++
    "\n       OR ".intercalate (fuzzyProperties.map fun property =>
      (compared property).written ++ " CONTAINS $kw") ++ "
    OPTIONAL MATCH (s:AttackStep)-[:INVOLVES_ENTITY]->(e)
    OPTIONAL MATCH (i)-[:HAS_ATTACK_FLOW]->(s)
    RETURN i.title as incident, s.phase as phase, e.name as entity_name, e.original_value as original_value LIMIT $limit
    "

private theorem entityFuzzy_eq : Queries.entityFuzzy = fuzzyQuery := by
  decide +kernel

/-- The entity meets the condition of the query for one of the properties. -/
def Found (entity : String → Option String) (keyword : String) : Prop :=
  ∃ property ∈ fuzzyProperties, ∃ text, (compared property).value entity = some text ∧
    Text.contains keyword text = true

def comparedText (name : String) : String :=
  Text.lower (Text.replace " " "" (Text.replace "-" "" (Text.replace "[.]" "" name)))

private theorem value_compared {entity : String → Option String} {property text : String}
    (h : entity property = some text) :
    (compared property).value entity = some (comparedText text) := by
  simp [compared, Term.value, h, comparedText]

private theorem toList_skeleton_eq_filter (name : String) :
    (Indicator.skeleton name).toList = (comparedText name).toList.filter isKeywordChar := by
  have hnone : ("[.]- ".toList.all fun c => (keywordChars c).isEmpty) = true := by decide +kernel
  have hdropped (old : String) (hne : old.toList ≠ []) (hold : old.toList ⊆ "[.]- ".toList) (s : String) :
      (Text.replace old "" s).toList.flatMap keywordChars = s.toList.flatMap keywordChars := by
    rw [Text.replace, String.toList_ofList]
    refine Text.flatMap_replaceChars_nil hne (fun c hc => ?_) s.toList
    exact List.isEmpty_iff.mp (List.all_eq_true.mp hnone c (hold hc))
  rw [toList_skeleton, comparedText, filter_lower, hdropped " " (by simp) (by simp),
    hdropped "-" (by simp) (by simp), hdropped "[.]" (by simp) (by simp)]

/-- The characters of a kind stand together, with only others before and behind them. -/
def StandTogether (p : Char → Bool) (s : List Char) : Prop :=
  ∃ before run after, s = before ++ run ++ after ∧ (∀ c ∈ run, p c = true) ∧
    ∀ c ∈ before ++ after, p c = false

private theorem filter_infix_iff {p : Char → Bool} {s : List Char} :
    s.filter p <:+: s ↔ StandTogether p s := by
  constructor
  · rintro ⟨before, after, h⟩
    refine ⟨before, s.filter p, after, h.symm, fun c hc => (List.mem_filter.mp hc).2, ?_⟩
    have hmiddle : (s.filter p).filter p = s.filter p :=
      List.filter_eq_self.mpr fun c hc => (List.mem_filter.mp hc).2
    have hall := congrArg (List.filter p) h
    rw [List.filter_append, List.filter_append, hmiddle] at hall
    have hnone : (before ++ after).filter p = [] := by
      have hlength := congrArg List.length hall
      rw [List.length_append, List.length_append] at hlength
      rw [← List.length_eq_zero_iff, List.filter_append, List.length_append]
      omega
    intro c hc
    simpa using List.filter_eq_nil_iff.mp hnone c hc
  · rintro ⟨before, run, after, rfl, hrun, hothers⟩
    have hfilter : (before ++ run ++ after).filter p = run := by
      rw [List.filter_append, List.filter_append, List.filter_eq_self.mpr hrun,
        List.filter_eq_nil_iff.mpr fun c hc => by simp [hothers c (List.mem_append_left _ hc)],
        List.filter_eq_nil_iff.mpr fun c hc => by simp [hothers c (List.mem_append_right _ hc)],
        List.nil_append, List.append_nil]
    rw [hfilter]
    exact ⟨before, after, rfl⟩

private theorem contains_skeleton_iff (name : String) :
    Text.contains (Indicator.skeleton name) (comparedText name) = true ↔
      StandTogether isKeywordChar (comparedText name).toList := by
  rw [Text.contains_iff_infix, toList_skeleton_eq_filter, filter_infix_iff]

variable {σ : Type} [Outside σ]

private theorem run_findFuzzy (name : String) (limit : Value) :
    (Tool.run .findFuzzy [("keyword", .text name), ("limit", limit)] : Job σ String) =
      execute fuzzyQuery [("kw", .text (Indicator.skeleton name)), ("limit", limit)] := by
  rw [← entityFuzzy_eq]
  rfl

/-- The search for a name sends the keyword that is left of it. What the graph compares of the name of an
entity contains the keyword of its own name exactly if all letters and digits stand together there; so the
search finds the entity exactly if they do, or if the keyword is in its original value. -/
theorem findFuzzy_finds_iff {entity : String → Option String} {name : String}
    (hname : entity "name" = some name) (limit : Value) (w : World σ) :
    Sends (Tool.run .findFuzzy [("keyword", .text name), ("limit", limit)]) w
      (if w.connected then
        [⟨fuzzyQuery, [("kw", .text (Indicator.skeleton name)), ("limit", limit)]⟩] else []) ∧
    (compared "name").value entity = some (comparedText name) ∧
    (Text.contains (Indicator.skeleton name) (comparedText name) = true ↔
      StandTogether isKeywordChar (comparedText name).toList) ∧
    (Found entity (Indicator.skeleton name) ↔
      StandTogether isKeywordChar (comparedText name).toList ∨
        ∃ original, entity "original_value" = some original ∧
          Text.contains (Indicator.skeleton name) (comparedText original) = true) := by
  have hvalue := value_compared hname
  rw [run_findFuzzy]
  refine ⟨sends_execute ⟨_, _⟩ w, hvalue, contains_skeleton_iff name, ?_⟩
  rw [← contains_skeleton_iff]
  constructor
  · rintro ⟨property, hproperty, text, htext, hcontains⟩
    simp only [fuzzyProperties, List.mem_cons, List.not_mem_nil, or_false] at hproperty
    rcases hproperty with rfl | rfl
    · rw [hvalue] at htext
      cases htext
      exact .inl hcontains
    · cases horiginal : entity "original_value" with
      | none => simp [compared, Term.value, horiginal] at htext
      | some original =>
        rw [value_compared horiginal] at htext
        cases htext
        exact .inr ⟨original, rfl, hcontains⟩
  · rintro (hcontains | ⟨original, horiginal, hcontains⟩)
    · exact ⟨"name", by simp [fuzzyProperties], _, hvalue, hcontains⟩
    · exact ⟨"original_value", by simp [fuzzyProperties], _, value_compared horiginal, hcontains⟩

/-- An address is not found by its own name, but with all its dots defanged it is. -/
theorem findFuzzy_misses_address :
    let address (property : String) := if property = "name" then some "1.2.3.4" else none
    let defanged (property : String) := if property = "name" then some "1[.]2[.]3[.]4" else none
    ¬ Found address (Indicator.skeleton "1.2.3.4") ∧
      Found defanged (Indicator.skeleton "1[.]2[.]3[.]4") := by
  intro address defanged
  let w : World Steady := { outside := ⟨.rows [], .content .null⟩ }
  obtain ⟨-, -, hcontains, hfound⟩ := findFuzzy_finds_iff (show address "name" = _ from rfl) .null w
  obtain ⟨-, -, hcontains', hfound'⟩ := findFuzzy_finds_iff (show defanged "name" = _ from rfl) .null w
  rw [hfound, hfound', ← hcontains, ← hcontains']
  refine ⟨?_, .inl (by decide +kernel)⟩
  rintro (hcontained | ⟨original, horiginal, -⟩)
  · exact absurd hcontained (by decide +kernel)
  · cases horiginal

end ThreatAtlas.Toolbox
