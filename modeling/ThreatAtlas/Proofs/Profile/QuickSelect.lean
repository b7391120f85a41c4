import ThreatAtlas.Profile.Listing
import ThreatAtlas.Proofs.Sending
import ThreatAtlas.Proofs.Text.Case
import ThreatAtlas.Proofs.Text.Split

/-!
# Searching for a label of the list

A label that the list of a kind shows can be searched for in its turn. Of an incident's label the beginning
of the title is sent, which the incident has. Of a vulnerability's label the whole is sent, which is longer
than the id, so that at most the description has it.
-/

namespace ThreatAtlas.Profile

open Job (Sends)

abbrev Nodes :=
  String → String → Option String

/-- A text of a query that is made from the properties of nodes. -/
inductive Expression where
  | property (node name : String)
  | quoted (text : String)
  | start (of : Expression) (length : Nat)
  | orElse (of : Expression) (other : String)
  | lower (of : Expression)

namespace Expression

def written : Expression → String
  | property node name => node ++ "." ++ name
  | quoted text => "'" ++ text ++ "'"
  | start of length => "substring(" ++ of.written ++ ", 0, " ++ toString length ++ ")"
  | orElse of other => "coalesce(" ++ of.written ++ ", '" ++ other ++ "')"
  | lower of => "toLower(" ++ of.written ++ ")"

def value (nodes : Nodes) : Expression → Option String
  | property node name => nodes node name
  | quoted text => some text
  | start of length => (of.value nodes).map (Text.take length)
  | orElse of other => some ((of.value nodes).getD other)
  | lower of => (of.value nodes).map Text.lower

end Expression

namespace Subject

def labelParts : Subject → List Expression
  | .incident =>
    [.quoted "[", .start (.property "n" "timestamp") 10, .quoted "] ", .property "n" "title",
      .quoted " (", .orElse (.property "v" "name") "Unknown", .quoted ")"]
  | .vulnerability =>
    [.property "n" "cve_id", .quoted " (", .orElse (.property "n" "product") "Unknown", .quoted ")"]
  | .threatGroup | .malware => [.property "n" "name"]

/-- What a search looks into. Groups and malware are ranked by their names, but none of them is left out. -/
def searchedParts : Subject → List Expression
  | .incident => [.lower (.property "n" "title"), .lower (.property "n" "summary")]
  | .vulnerability => [.lower (.property "n" "cve_id"), .lower (.property "n" "description")]
  | .threatGroup | .malware => []

def labelOf (s : Subject) (nodes : Nodes) : Option String :=
  (s.labelParts.mapM (Expression.value nodes)).map String.join

def Accepts (s : Subject) (nodes : Nodes) (text : String) : Prop :=
  s.searchedParts = [] ∨
    ∃ part ∈ s.searchedParts, ∃ found, part.value nodes = some found ∧ Text.contains text found = true

def ShowsLabel (s : Subject) (front back : String) : Prop :=
  s.listing = front ++ " + ".intercalate (s.labelParts.map Expression.written) ++ " as label" ++ back

/-- The query for a search takes the nodes that it accepts, and goes on with `next`. -/
def FiltersNodes (s : Subject) (node next : String) : Prop :=
  ("\n            MATCH " ++ node ++ "\n            WHERE " ++
    " OR ".intercalate (s.searchedParts.map fun part => part.written ++ " CONTAINS $query") ++
    "\n            " ++ next).toList <+: s.searching.toList

private theorem showsLabel_incident : ShowsLabel .incident
    "MATCH (n:Incident) OPTIONAL MATCH (n)-[:TARGETS]->(v:Identity) RETURN n.id as uri, "
    " ORDER BY n.timestamp DESC LIMIT $limit" := by
  unfold ShowsLabel
  decide +kernel

private theorem showsLabel_vulnerability : ShowsLabel .vulnerability
    "MATCH (n:Vulnerability) RETURN n.cve_id as uri, " " ORDER BY n.date_added DESC LIMIT $limit" := by
  unfold ShowsLabel
  decide +kernel

private theorem toList_of_eq {s : String} {cs : List Char} (h : s = String.ofList cs) : s.toList = cs := by
  rw [h, String.toList_ofList]

set_option maxRecDepth 8000 in
private theorem filtersNodes_incident : FiltersNodes .incident "(n:Incident)" "OPTIONAL MATCH " := by
  have hsearching : (searching .incident).toList = _ := toList_of_eq rfl
  rw [FiltersNodes, hsearching]
  simp [searchedParts, Expression.written]

set_option maxRecDepth 8000 in
private theorem filtersNodes_vulnerability : FiltersNodes .vulnerability "(n:Vulnerability)" "WITH n," := by
  have hsearching : (searching .vulnerability).toList = _ := toList_of_eq rfl
  rw [FiltersNodes, hsearching]
  simp [searchedParts, Expression.written]

end Subject

variable {σ : Type} [Outside σ]

theorem sends_choices {kind : Value} {s : Subject} (hkind : Subject.ofName? kind = some s) {search : String}
    (hsearch : search ≠ "") (limit : Value) (w : World σ) :
    Sends (choices kind limit (.text search)) w
      (if w.connected then
        [⟨s.searching, [("limit", limit), ("query", .text (searchText (some s) search))]⟩] else []) := by
  have htruthy : (Value.text search).truthy = true := by simpa [Value.truthy] using hsearch
  unfold choices
  simp only [htruthy, hkind, if_true, Value.asText]
  refine Job.sends_lift_bind ?_
  exact Job.sends_bind_of_silent (Job.sends_ask _ _ w) fun rows v => Job.sends_pure _ v

def incidentLabel (date title victim : String) : String :=
  "[" ++ date ++ "] " ++ title ++ " (" ++ victim ++ ")"

/-- What is sent for a label with this title: its beginning in lower case, up to a parenthesis. -/
def titleQuery (title : String) : String :=
  Text.strip (String.ofList ((Text.lower title).toList.takeWhile (· != '(')))

theorem titleQuery_isInfix (title : String) : (titleQuery title).toList <:+: (Text.lower title).toList := by
  rw [titleQuery, Text.strip, String.toList_ofList, String.toList_ofList]
  exact (Text.stripChars_isInfix _).trans (List.takeWhile_prefix _).isInfix

private theorem toList_lower (s : String) : (Text.lower s).toList = Text.lowerAfter [] s.toList := by
  rw [Text.lower, String.toList_ofList]

private theorem toList_lower_incidentLabel (date title victim : String) :
    (Text.lower (incidentLabel date title victim)).toList = '[' :: ((Text.lower date).toList ++
      ']' :: ' ' :: ((Text.lower title).toList ++ ' ' :: '(' :: ((Text.lower victim).toList ++ [')']))) := by
  have hparts : ∀ x ∈ "[] ()".toList, Text.partsCase x = true := List.all_eq_true.mp (by decide +kernel)
  have hcons : ∀ x ∈ "[] ()".toList, ∀ cs, Text.lowerAfter [] (x :: cs) = x :: Text.lowerAfter [] cs :=
    fun x hx cs => Text.lowerAfter_append_cons (hparts x hx) [] [] cs
  have hlabel : (incidentLabel date title victim).toList = '[' :: (date.toList ++
      ']' :: ' ' :: (title.toList ++ ' ' :: '(' :: (victim.toList ++ [')']))) := by
    simp [incidentLabel]
  simp only [toList_lower]
  rw [hlabel, hcons '[' (by simp), Text.lowerAfter_append_cons (hparts ']' (by simp)), hcons ' ' (by simp),
    Text.lowerAfter_append_cons (hparts ' ' (by simp)), hcons '(' (by simp),
    Text.lowerAfter_append_cons (hparts ')' (by simp))]
  rfl

private theorem exists_cutChars_title (title victim : List Char) :
    ∃ before behind, Text.cutChars ['('] (' ' :: (title ++ ' ' :: '(' :: victim)) = some (before, behind) ∧
      Text.stripChars before = Text.stripChars (title.takeWhile (· != '(')) := by
  have hblank : ∀ c ∈ [' '], Text.isBlank c = true := List.all_eq_true.mp (by decide +kernel)
  have hsplit : title.takeWhile (· != '(') ++ title.dropWhile (· != '(') = title :=
    List.takeWhile_append_dropWhile
  have hnone : '(' ∉ title.takeWhile (· != '(') := fun hmem => by simpa using List.mem_takeWhile_imp hmem
  cases hrest : title.dropWhile (· != '(') with
  | nil =>
    rw [hrest, List.append_nil] at hsplit
    rw [hsplit] at hnone ⊢
    refine ⟨[' '] ++ title ++ [' '], victim, ?_, Text.stripChars_append hblank hblank title⟩
    simpa using Text.cutChars_append_cons (a := [' '] ++ title ++ [' ']) (by simpa using hnone) victim
  | cons c rest =>
    have hc : c = '(' := by simpa [hrest] using List.head?_dropWhile_not (· != '(') title
    subst hc
    refine ⟨[' '] ++ title.takeWhile (· != '(') ++ [], rest ++ ' ' :: '(' :: victim, ?_,
      Text.stripChars_append hblank (List.forall_mem_nil _) _⟩
    have hcut := Text.cutChars_append_cons (a := [' '] ++ title.takeWhile (· != '('))
      (show '(' ∉ _ by simpa using hnone) (rest ++ ' ' :: '(' :: victim)
    conv_lhs => rw [← hsplit, hrest]
    simpa using hcut

private theorem searchText_incidentLabel {date : String} (hdate : ']' ∉ date.toList) (title victim : String) :
    searchText (some .incident) (incidentLabel date title victim) = titleQuery title := by
  have hlabel := toList_lower_incidentLabel date title victim
  have hdate' : ']' ∉ '[' :: (Text.lower date).toList := by
    rw [toList_lower, List.mem_cons]
    rintro (heq | hmem)
    · cases heq
    · exact hdate (Text.mem_of_mem_lowerAfter (by decide) (by decide) hmem)
  obtain ⟨before, behind, hcut, hstrip⟩ :=
    exists_cutChars_title (Text.lower title).toList ((Text.lower victim).toList ++ [')'])
  have hclose := Text.cutChars_append_cons hdate'
    (' ' :: ((Text.lower title).toList ++ ' ' :: '(' :: ((Text.lower victim).toList ++ [')'])))
  rw [List.cons_append, ← hlabel] at hclose
  rw [← String.toList_ofList (l := ' ' :: _)] at hcut
  have hbracket : Text.cut? "]" (Text.lower (incidentLabel date title victim)) = some (_, _) :=
    Text.cut?_eq_some (by simp) hclose
  have hparen : Text.cut? "(" (String.ofList (' ' :: _)) = some (_, _) :=
    Text.cut?_eq_some (by simp) hcut
  have hstarts : Text.startsWith "[" (Text.lower (incidentLabel date title victim)) = true := by
    rw [Text.startsWith, hlabel]
    simp
  simp only [searchText, if_true, titleIn, hstarts, hbracket, hparen]
  rw [Text.strip, String.toList_ofList, hstrip, titleQuery, Text.strip, String.toList_ofList]

/-- The list shows an incident by a label of its date, title and victim. Searched for, the label sends a part
of the title in lower case, whatever the title and the victim are, as long as no bracket is in the date; so
the incident is accepted. -/
theorem label_finds_incident {date : String} (hdate : ']' ∉ date.toList) (title victim : String)
    (limit : Value) (w : World σ) :
    (∃ front back, Subject.incident.ShowsLabel front back) ∧
    (∀ (nodes : Nodes) (timestamp : String), nodes "n" "timestamp" = some timestamp →
      Text.take 10 timestamp = date → nodes "n" "title" = some title →
      (nodes "v" "name").getD "Unknown" = victim →
      Subject.incident.labelOf nodes = some (incidentLabel date title victim)) ∧
    Sends (choices (.text "Incident") limit (.text (incidentLabel date title victim))) w
      (if w.connected then
        [⟨Subject.searching .incident, [("limit", limit), ("query", .text (titleQuery title))]⟩] else []) ∧
    (titleQuery title).toList <:+: (Text.lower title).toList ∧
    Subject.incident.FiltersNodes "(n:Incident)" "OPTIONAL MATCH " ∧
    ∀ nodes : Nodes, nodes "n" "title" = some title → Subject.incident.Accepts nodes (titleQuery title) := by
  refine ⟨⟨_, _, Subject.showsLabel_incident⟩, ?_, ?_, titleQuery_isInfix title,
    Subject.filtersNodes_incident, ?_⟩
  · rintro nodes timestamp htimestamp rfl htitle rfl
    simp [Subject.labelOf, Subject.labelParts, Expression.value, htimestamp, htitle, String.join,
      incidentLabel]
  · have hne : incidentLabel date title victim ≠ "" := by simp [incidentLabel]
    have hsends := sends_choices (show Subject.ofName? (.text "Incident") = _ from rfl) hne limit w
    rwa [searchText_incidentLabel hdate] at hsends
  · intro nodes htitle
    refine .inr ⟨.lower (.property "n" "title"), by simp [Subject.searchedParts], Text.lower title, ?_, ?_⟩
    · rw [Expression.value, Expression.value, htitle, Option.map_some]
    · exact Text.contains_iff_infix.mpr (titleQuery_isInfix title)

/-- The title has a bracket and a parenthesis of its own, and the victim a parenthesis. -/
theorem label_finds_bracketed_incident :
    let nodes : Nodes := fun node name =>
      if node = "v" then some "ACME (EU" else if name = "title" then some "Raid [2] (Part II)"
      else if name = "timestamp" then some "2024-05-01T10:00" else none
    let w : World Steady := { outside := ⟨.rows [], .content .null⟩ }
    Subject.incident.labelOf nodes = some "[2024-05-01] Raid [2] (Part II) (ACME (EU)" ∧
    Sends (choices (.text "Incident") (.int 8) (.text "[2024-05-01] Raid [2] (Part II) (ACME (EU)")) w
      [⟨Subject.searching .incident,
        [("limit", .int 8), ("query", .text (titleQuery "Raid [2] (Part II)"))]⟩] ∧
    Subject.incident.Accepts nodes (titleQuery "Raid [2] (Part II)") := by
  intro nodes w
  obtain ⟨-, hlabel, hsends, -, -, haccepts⟩ :=
    label_finds_incident (show ']' ∉ "2024-05-01".toList by decide) "Raid [2] (Part II)" "ACME (EU" (.int 8) w
  exact ⟨hlabel nodes "2024-05-01T10:00" rfl (by decide) rfl rfl, hsends, haccepts nodes rfl⟩

def vulnerabilityLabel (id product : String) : String :=
  id ++ " (" ++ product ++ ")"

private theorem not_contains_vulnerabilityLabel (id product : String) :
    Text.contains (Text.lower (vulnerabilityLabel id product)) (Text.lower id) = false := by
  have hparts : Text.partsCase ' ' = true := by decide +kernel
  have hlabel : (vulnerabilityLabel id product).toList =
      id.toList ++ ' ' :: '(' :: (product.toList ++ [')']) := by
    simp [vulnerabilityLabel]
  rw [← Bool.not_eq_true, Text.contains_iff_infix, toList_lower, toList_lower, hlabel,
    Text.lowerAfter_append_cons hparts]
  intro hpart
  have hlength := hpart.length_le
  rw [List.length_append, List.length_cons] at hlength
  omega

/-- The list shows a vulnerability by a label of its id and product. Searched for, all of the label is sent in
lower case. This is in no id, so the vulnerability is accepted exactly if its description has the label. -/
theorem label_finds_vulnerability_iff {nodes : Nodes} {id : String} (hid : nodes "n" "cve_id" = some id)
    (limit : Value) (w : World σ) :
    let label := vulnerabilityLabel id ((nodes "n" "product").getD "Unknown")
    (∃ front back, Subject.vulnerability.ShowsLabel front back) ∧
    Subject.vulnerability.labelOf nodes = some label ∧
    Sends (choices (.text "Vulnerability") limit (.text label)) w
      (if w.connected then
        [⟨Subject.searching .vulnerability, [("limit", limit), ("query", .text (Text.lower label))]⟩]
        else []) ∧
    Subject.vulnerability.FiltersNodes "(n:Vulnerability)" "WITH n," ∧
    Text.contains (Text.lower label) (Text.lower id) = false ∧
    (Subject.vulnerability.Accepts nodes (Text.lower label) ↔ ∃ description,
      nodes "n" "description" = some description ∧
        Text.contains (Text.lower label) (Text.lower description) = true) := by
  intro label
  have hnot := not_contains_vulnerabilityLabel id ((nodes "n" "product").getD "Unknown")
  refine ⟨⟨_, _, Subject.showsLabel_vulnerability⟩, ?_, ?_, Subject.filtersNodes_vulnerability, hnot, ?_⟩
  · simp [Subject.labelOf, Subject.labelParts, Expression.value, hid, String.join, label, vulnerabilityLabel]
  · have hne : label ≠ "" := by simp [label, vulnerabilityLabel]
    exact sends_choices (show Subject.ofName? (.text "Vulnerability") = _ from rfl) hne limit w
  · constructor
    · rintro (⟨⟨⟩⟩ | ⟨part, hpart, found, hfound, hcontains⟩)
      simp only [Subject.searchedParts, List.mem_cons, List.not_mem_nil, or_false] at hpart
      rcases hpart with rfl | rfl
      · rw [Expression.value, Expression.value, hid, Option.map_some, Option.some.injEq] at hfound
        rw [← hfound, hnot] at hcontains
        cases hcontains
      · obtain ⟨description, hdescription, rfl⟩ := Option.map_eq_some_iff.mp hfound
        exact ⟨description, hdescription, hcontains⟩
    · rintro ⟨description, hdescription, hcontains⟩
      refine .inr ⟨.lower (.property "n" "description"), by simp [Subject.searchedParts], _, ?_, hcontains⟩
      rw [Expression.value, Expression.value, hdescription, Option.map_some]

/-- A vulnerability that is not found by the label that the list shows of it. -/
theorem label_misses_vulnerability :
    let nodes : Nodes := fun _ name =>
      if name = "cve_id" then some "CVE-2021-44228" else if name = "product" then some "Log4j"
      else if name = "description" then some "Remote code execution" else none
    Subject.vulnerability.labelOf nodes = some "CVE-2021-44228 (Log4j)" ∧
      ¬ Subject.vulnerability.Accepts nodes (Text.lower "CVE-2021-44228 (Log4j)") := by
  intro nodes
  obtain ⟨-, hlabel, -, -, -, haccepts⟩ := label_finds_vulnerability_iff (show nodes "n" "cve_id" = _ from rfl)
    (.int 100) ({ outside := ⟨.rows [], .content .null⟩ } : World Steady)
  refine ⟨hlabel, fun h => ?_⟩
  obtain ⟨description, ⟨⟩, hcontains⟩ := haccepts.mp h
  exact absurd hcontains (by decide +kernel)

end ThreatAtlas.Profile
