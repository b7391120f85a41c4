import ThreatAtlas.Explorer
import ThreatAtlas.Proofs.Sending
import ThreatAtlas.Proofs.Text.Case
import ThreatAtlas.Proofs.Text.Split

/-!
# From a suggestion back to its node

A suggestion shows the type, the label and the id of a node. Where one is chosen as an end of a path, the id
is read from it again: all that stands behind the first mark, without the parentheses at the end. So the id
is read as it is exactly if the label has no mark.
-/

namespace ThreatAtlas.Explorer

open Job (Returns Sends)

def idMark : String := "(ID:"

variable {type label id : List Char}

def frontOf (type label : List Char) : List Char :=
  '[' :: (type ++ ']' :: ' ' :: (label ++ [' ']))

private theorem toList_suggestion (type label id : Value) :
    (suggestion type label id).toList = frontOf type.display.toList label.display.toList ++
      (idMark.toList ++ (id.display.toList ++ [')'])) := by
  simp [suggestion, frontOf, idMark, toString]

private theorem mark_infix_front_iff :
    idMark.toList <:+: frontOf type label ++ idMark.toList.dropLast ↔
      idMark.toList <:+: type ∨ idMark.toList <:+: label := by
  have hsplit : frontOf type label ++ idMark.toList.dropLast =
      [] ++ '[' :: (type ++ ']' :: ([] ++ ' ' :: (label ++ ' ' :: idMark.toList.dropLast))) := by
    simp [frontOf]
  have hnone : ¬ idMark.toList <:+: [] := by decide
  have hpart : ¬ idMark.toList <:+: idMark.toList.dropLast := by decide
  rw [hsplit, Text.infix_append_cons_iff (by decide), Text.infix_append_cons_iff (by decide),
    Text.infix_append_cons_iff (by decide), Text.infix_append_cons_iff (by decide)]
  simp only [hnone, hpart, false_or, or_false]

/-- What is read of a text is all behind the first mark, up to the parentheses that close it. -/
theorem toList_idIn {s : String} {before rest : List Char} (hclosed : Text.endsWith ")" s = true)
    (hcut : Text.cutChars idMark.toList s.toList = some (before, rest)) :
    (idIn s).toList = Text.trimEndChars (· == ')') rest := by
  have hcut' : Text.cut? "(ID:" s = some (String.ofList before, String.ofList rest) := by
    rw [Text.cut?, show "(ID:".toList = idMark.toList from rfl, hcut]
    rfl
  simp only [idIn, hcut', hclosed, if_true, Text.trimEnd, String.toList_ofList]

theorem endsWith_suggestion (type label id : Value) : Text.endsWith ")" (suggestion type label id) = true := by
  rw [Text.endsWith, List.isSuffixOf_iff_suffix, toList_suggestion, ← List.append_assoc, ← List.append_assoc]
  exact List.suffix_append _ _

private theorem contains_suggestion (type label id : Value) :
    Text.contains idMark (suggestion type label id) = true := by
  rw [Text.contains_iff_infix, toList_suggestion, ← List.append_assoc]
  exact List.infix_append _ _ _

/-- The text does not end in the parenthesis that closes a suggestion. -/
def EndsOpen (s : List Char) : Prop :=
  s.getLast? ≠ some ')'

private theorem endsOpen_iff {s : String} : EndsOpen s.toList ↔ Text.endsWith ")" s = false := by
  rw [← Bool.not_eq_true, Text.endsWith, List.isSuffixOf_iff_suffix, EndsOpen]
  simp [List.singleton_suffix_iff_getLast?_eq_some]

theorem EndsOpen.trimEndChars (hid : EndsOpen id) : Text.trimEndChars (· == ')') (id ++ [')']) = id := by
  refine Text.trimEndChars_append (fun c hc => ?_) (by simp)
  rw [beq_eq_false_iff_ne]
  rintro rfl
  exact hid hc

theorem EndsOpen.append (hid : EndsOpen id) (more : List Char) : EndsOpen (more ++ idMark.toList ++ id) := by
  cases hempty : id with
  | nil => simp [EndsOpen, idMark]
  | cons c cs =>
    rw [EndsOpen, List.getLast?_append_of_ne_nil _ (List.cons_ne_nil c cs), ← hempty]
    exact hid

variable {type label id : Value}

private theorem idIn_suggestion_of_unmarked (hid : EndsOpen id.display.toList)
    (htype : ¬ idMark.toList <:+: type.display.toList) (hlabel : ¬ idMark.toList <:+: label.display.toList) :
    idIn (suggestion type label id) = id.display := by
  have hfirst : ¬ idMark.toList <:+: frontOf type.display.toList label.display.toList ++
      idMark.toList.dropLast := by
    rw [mark_infix_front_iff]
    exact not_or_intro htype hlabel
  have hcut := Text.cutChars_append (by decide) hfirst (id.display.toList ++ [')'])
  rw [← toList_suggestion] at hcut
  rw [← String.toList_inj, toList_idIn (endsWith_suggestion type label id) hcut, hid.trimEndChars]

/-- Of a label with a mark some part is read along with the id, and the mark of the id, too. -/
theorem idIn_suggestion_of_marked (type : Value) (hid : EndsOpen id.display.toList)
    (hlabel : idMark.toList <:+: label.display.toList) :
    ∃ more, (idIn (suggestion type label id)).toList = more ++ idMark.toList ++ id.display.toList := by
  obtain ⟨a, b, hlabel⟩ := hlabel
  have hsplit : (suggestion type label id).toList =
      '[' :: (type.display.toList ++ ']' :: ' ' :: a) ++ (idMark.toList ++
        (b ++ ' ' :: (idMark.toList ++ (id.display.toList ++ [')'])))) := by
    rw [toList_suggestion, ← hlabel]
    simp [frontOf]
  obtain ⟨before, more, hcut⟩ := Text.exists_cutChars_append (show idMark.toList ≠ [] by decide)
    ('[' :: (type.display.toList ++ ']' :: ' ' :: a))
    (b ++ ' ' :: (idMark.toList ++ (id.display.toList ++ [')'])))
  rw [← hsplit] at hcut
  have hopen := (hid.append (more ++ b ++ [' '])).trimEndChars
  refine ⟨more ++ b ++ [' '], ?_⟩
  rw [toList_idIn (endsWith_suggestion type label id) hcut, ← hopen]
  simp

private theorem idIn_suggestion_eq_iff (hid : EndsOpen id.display.toList)
    (htype : ¬ idMark.toList <:+: type.display.toList) :
    idIn (suggestion type label id) = id.display ↔ ¬ idMark.toList <:+: label.display.toList := by
  constructor
  · intro hread hlabel
    obtain ⟨more, hmore⟩ := idIn_suggestion_of_marked type hid hlabel
    have hlength := congrArg List.length hmore
    rw [hread] at hlength
    simp [idMark] at hlength
    omega
  · exact idIn_suggestion_of_unmarked hid htype

structure Suggested where
  row : Row
  type : Value
  label : Value
  id : Value
  hasType : row.item "type" = .ok type
  hasLabel : row.item "label" = .ok label
  hasId : row.item "id" = .ok id

namespace Suggested

def shown (node : Suggested) : String :=
  suggestion node.type node.label node.id

/-- Nothing but the label can mislead the reader: there is no mark in the type, and the id does not end in a
parenthesis. -/
structure Plain (node : Suggested) : Prop where
  type : Text.contains idMark node.type.display = false
  id : Text.endsWith ")" node.id.display = false

private theorem Plain.idIn_shown_eq_iff {node : Suggested} (h : node.Plain) :
    idIn node.shown = node.id.display ↔ Text.contains idMark node.label.display = false := by
  have htype : ¬ idMark.toList <:+: node.type.display.toList := by
    rw [← Text.contains_iff_infix, Bool.not_eq_true]
    exact h.type
  rw [shown, idIn_suggestion_eq_iff (endsOpen_iff.mpr h.id) htype, ← Text.contains_iff_infix,
    Bool.not_eq_true]

end Suggested

variable {σ : Type} [Outside σ]

theorem returns_suggestions {keyword : String} (hkeyword : 2 ≤ keyword.length) {nodes : List Suggested}
    {w : World σ} (hconnected : w.connected = true)
    (hanswer : (Outside.query ⟨suggestionsQuery, [("kw", .text keyword)]⟩ w.outside).1 =
      .rows (nodes.map Suggested.row)) :
    Returns (suggestions (.text keyword)) w (nodes.map Suggested.shown)
      (w.querying ⟨suggestionsQuery, [("kw", .text keyword)]⟩) := by
  have htruthy : (Value.text keyword).truthy = true := by
    rw [Value.truthy, Bool.not_eq_true', String.isEmpty_eq_false_iff]
    rintro rfl
    simp at hkeyword
  have hlong : ¬ keyword.length < 2 := by omega
  have hask : Returns (Job.ask suggestionsQuery [("kw", .text keyword)]) w (nodes.map Suggested.row)
      (w.querying ⟨suggestionsQuery, [("kw", .text keyword)]⟩) := by
    rw [Returns, Job.outcome_ask, if_pos hconnected, hanswer]
  unfold suggestions
  simp only [htruthy, Value.length]
  rw [if_neg (by decide), Job.returns_lift_bind]
  refine ⟨keyword.length, rfl, ?_⟩
  rw [if_neg hlong, Job.returns_bind_of_returns hask, Job.returns_lift, mapM_eq_ok,
    List.forall₂_map_left_iff, List.forall₂_map_right_iff, List.forall₂_same]
  refine ⟨fun node _ => ?_, rfl⟩
  simp only [node.hasType, node.hasLabel, node.hasId]
  rfl

private theorem sends_pathWithContext (start finish : Suggested) (hops : Value) (w : World σ) :
    Sends (pathWithContext (.text start.shown) (.text finish.shown) hops) w
      (if w.connected then [⟨contextQuery, [("s", .text (idIn start.shown)),
        ("e", .text (idIn finish.shown)), ("hops", hops)]⟩] else []) := by
  have hsearched (node : Suggested) : searched (.text node.shown) "(ID:" "endswith" =
      .ok (.text node.shown, true) := by
    have hmark : Text.contains "(ID:" node.shown = true := contains_suggestion _ _ _
    simp only [searched, Value.holds, Value.contains, hmark]
    rfl
  unfold pathWithContext
  simp only [hsearched]
  exact Job.sends_ask _ _ w

/-- What the graph answers to a search is suggested node by node. Two suggestions that are then chosen as the
ends of a path send what is read from them. Where the type of a node has no mark and its id does not end in a
parenthesis, that is the id exactly if there is no mark in the label of the node. -/
theorem path_asks_for_suggested_iff {start finish : Suggested} (hstart : start.Plain)
    (hfinish : finish.Plain) :
    (∀ (keyword : String) (nodes : List Suggested) (w : World σ), 2 ≤ keyword.length → w.connected = true →
      (Outside.query ⟨suggestionsQuery, [("kw", .text keyword)]⟩ w.outside).1 =
        .rows (nodes.map Suggested.row) →
      Returns (suggestions (.text keyword)) w (nodes.map Suggested.shown)
        (w.querying ⟨suggestionsQuery, [("kw", .text keyword)]⟩)) ∧
    (∀ (hops : Value) (w : World σ),
      Sends (pathWithContext (.text start.shown) (.text finish.shown) hops) w
        (if w.connected then [⟨contextQuery, [("s", .text (idIn start.shown)),
          ("e", .text (idIn finish.shown)), ("hops", hops)]⟩] else [])) ∧
    (idIn start.shown = start.id.display ↔ Text.contains idMark start.label.display = false) ∧
    (idIn finish.shown = finish.id.display ↔ Text.contains idMark finish.label.display = false) := by
  refine ⟨fun keyword nodes w hkeyword hconnected hanswer => ?_, sends_pathWithContext start finish,
    hstart.idIn_shown_eq_iff, hfinish.idIn_shown_eq_iff⟩
  exact returns_suggestions hkeyword hconnected hanswer

/-- Two nodes are suggested, and a path is asked for from the one to the other. Of the first, whose label has a
mark, more than its id is sent; of the second just its id is. -/
theorem path_asks_for_more_than_id :
    let node (label id : String) : Suggested :=
      ⟨[("label", .text label), ("type", .text "Malware"), ("id", .text id)], .text "Malware", .text label,
        .text id, rfl, rfl, rfl⟩
    let start := node "Loader (ID:7)" "4:a:1"
    let finish := node "Emotet (ID" "4:a:2"
    let w : World (Fixed (.rows [start.row, finish.row])) := { outside := .services }
    start.Plain ∧ finish.Plain ∧
    Returns (suggestions (.text "er")) w
      ["[Malware] Loader (ID:7) (ID:4:a:1)", "[Malware] Emotet (ID (ID:4:a:2)"]
      (w.querying ⟨suggestionsQuery, [("kw", .text "er")]⟩) ∧
    Sends (pathWithContext (.text start.shown) (.text finish.shown) (.int 1)) w
      [⟨contextQuery, [("s", .text (idIn start.shown)), ("e", .text "4:a:2"), ("hops", .int 1)]⟩] ∧
    idIn start.shown ≠ "4:a:1" := by
  intro node start finish w
  have hstart : start.Plain := ⟨by decide, by decide⟩
  have hfinish : finish.Plain := ⟨by decide, by decide⟩
  obtain ⟨hreturns, hsends, hread, hread'⟩ :=
    path_asks_for_suggested_iff (σ := Fixed (.rows [start.row, finish.row])) hstart hfinish
  have hid : idIn finish.shown = "4:a:2" := hread'.mpr (by decide)
  have hlist := hreturns "er" [start, finish] w (by decide) rfl rfl
  have hpath := hsends (.int 1) w
  rw [hid] at hpath
  refine ⟨hstart, hfinish, hlist, hpath, fun hsame => ?_⟩
  exact absurd (hread.mp hsame) (by decide)

end ThreatAtlas.Explorer
