import ThreatAtlas.Proofs.Dashboard.Exploration

/-!
# The drawn flow of an incident

Each row of a flow asks for an edge from the step of the row before it to its own step, and an edge is
drawn unless its name is taken. A step has a row for each of its artifacts. So the drawn flow is the chain
from the incident through the steps as long as no step has two rows; one that has is tied to itself.
-/

namespace ThreatAtlas

/-! Neighbours in a list -/

def links (xs : List String) : List (String × String) :=
  xs.zip xs.tail

private theorem links_cons_cons (a b : String) (xs : List String) :
    links (a :: b :: xs) = (a, b) :: links (b :: xs) := rfl

variable {xs : List String}

private theorem nodup_links (h : xs.Nodup) : (links xs).Nodup := by
  refine .of_map Prod.snd ?_
  rw [links, List.map_snd_zip (by simp)]
  exact h.tail

private theorem exists_destutter_eq_cons (a : String) (xs : List String) :
    ∃ ys, xs.destutter' (· ≠ ·) a = a :: ys := by
  induction xs with
  | nil => exact ⟨[], rfl⟩
  | cons b xs ih =>
    by_cases h : a = b
    · rwa [List.destutter'_cons_neg _ (not_not.mpr h)]
    · exact ⟨_, List.destutter'_cons_pos _ h⟩

private theorem mem_destutter {a x : String} : x ∈ xs.destutter' (· ≠ ·) a ↔ x ∈ a :: xs := by
  induction xs generalizing a with
  | nil => simp
  | cons b xs ih =>
    by_cases h : a = b
    · subst h
      simp [ih]
    · simp [h, ih]

private theorem filter_links (a : String) (xs : List String) :
    (links (a :: xs)).filter (fun link => link.1 ≠ link.2) = links (xs.destutter' (· ≠ ·) a) := by
  induction xs generalizing a with
  | nil => rfl
  | cons b xs ih =>
    rw [links_cons_cons]
    by_cases h : a = b
    · subst h
      rw [List.destutter'_cons_neg _ (by simp), ← ih, List.filter_cons_of_neg (by simp)]
    · obtain ⟨ys, hys⟩ := exists_destutter_eq_cons b xs
      rw [List.destutter'_cons_pos _ h, List.filter_cons_of_pos (by simpa using h), ih, hys,
        links_cons_cons]

private theorem mem_links_self_iff {a x : String} (h : (xs.destutter' (· ≠ ·) a).Nodup) :
    (x, x) ∈ links (a :: xs) ↔ List.Duplicate x (a :: xs) := by
  induction xs generalizing a with
  | nil => simp [links]
  | cons b xs ih =>
    rw [links_cons_cons, List.mem_cons, List.duplicate_cons_iff]
    by_cases hab : a = b
    · subst hab
      rw [List.destutter'_cons_neg _ (by simp)] at h
      rw [ih h]
      constructor
      · rintro (heq | hdup)
        · cases heq
          exact .inl ⟨rfl, List.mem_cons_self⟩
        · exact .inr hdup
      · rintro (⟨rfl, -⟩ | hdup)
        · exact .inl rfl
        · exact .inr hdup
    · rw [List.destutter'_cons_pos _ hab, List.nodup_cons, mem_destutter] at h
      rw [ih h.2]
      constructor
      · rintro (heq | hdup)
        · cases heq
          exact absurd rfl hab
        · exact .inr hdup
      · rintro (⟨rfl, hmem⟩ | hdup)
        · exact absurd hmem h.1
        · exact .inr hdup

/-! Edges that are asked for -/

namespace GraphEdge

def ends (e : GraphEdge) : String × String :=
  (e.source.display, e.target.display)

def isLoop (e : GraphEdge) : Bool :=
  e.ends.1 == e.ends.2

def joins (ids : List String) (e : GraphEdge) : Bool :=
  ids.contains e.ends.1 && ids.contains e.ends.2

/-- The edges that are drawn when these are asked for in turn: those whose names are not taken, neither
before nor by an edge asked for earlier. -/
def fresh : List String → List GraphEdge → List GraphEdge
  | _, [] => []
  | taken, e :: es => if e.name ∈ taken then fresh taken es else e :: fresh (taken ++ [e.name]) es

private theorem fresh_append (taken : List String) (es fs : List GraphEdge) :
    fresh taken (es ++ fs) = fresh taken es ++ fresh (taken ++ (fresh taken es).map name) fs := by
  induction es generalizing taken with
  | nil => simp [fresh]
  | cons e es ih =>
    rw [List.cons_append, fresh, fresh]
    split
    · exact ih taken
    · rw [ih, List.map_cons, List.cons_append, List.append_assoc, List.singleton_append]

private theorem fresh_sublist (taken : List String) (es : List GraphEdge) : (fresh taken es).Sublist es := by
  induction es generalizing taken with
  | nil => exact .slnil
  | cons e es ih =>
    rw [fresh]
    split
    · exact (ih taken).cons e
    · exact (ih _).cons_cons e

/-- In the list of edges asked for, an edge of the flow finds its name taken just if it is a loop. -/
def TakenIfLoop (ids taken : List String) (asked : List GraphEdge) : Prop :=
  ∀ before e after, asked = before ++ e :: after → e.joins ids = true →
    (e.name ∈ taken ++ before.map name ↔ e.isLoop = true)

variable {ids taken : List String} {asked : List GraphEdge}

private theorem takenIfLoop_cons {e : GraphEdge} {es : List GraphEdge} : TakenIfLoop ids taken (e :: es) ↔
      (e.joins ids = true → (e.name ∈ taken ↔ e.isLoop = true)) ∧
        TakenIfLoop ids (taken ++ [e.name]) es := by
  constructor
  · intro h
    refine ⟨fun hjoins => by simpa using h [] e es rfl hjoins, ?_⟩
    intro before f after hes hjoins
    have hlater := h (e :: before) f after (by rw [hes, List.cons_append]) hjoins
    rwa [List.map_cons, ← List.singleton_append, ← List.append_assoc] at hlater
  · rintro ⟨hfirst, hlater⟩ before f after hes hjoins
    cases before with
    | nil =>
      obtain ⟨rfl, rfl⟩ := List.cons.inj hes
      simpa using hfirst hjoins
    | cons g before =>
      obtain ⟨rfl, rfl⟩ := List.cons.inj hes
      rw [List.map_cons, ← List.singleton_append, ← List.append_assoc]
      exact hlater before f after rfl hjoins

private theorem fresh_congr {taken' : List String} (h : ∀ n, n ∈ taken ↔ n ∈ taken') (es : List GraphEdge) :
    fresh taken es = fresh taken' es := by
  induction es generalizing taken taken' with
  | nil => rfl
  | cons e es ih =>
    rw [fresh, fresh, if_congr (h e.name) (ih h) (congrArg _ (ih fun n => ?_))]
    rw [List.mem_append, List.mem_append, h]

def linksAmong (ids : List String) (es : List GraphEdge) : List (String × String) :=
  (es.filter (joins ids)).map ends

private theorem linksAmong_cons (ids : List String) (e : GraphEdge) (es : List GraphEdge) :
    linksAmong ids (e :: es) =
      if e.joins ids = true then e.ends :: linksAmong ids es else linksAmong ids es := by
  rw [linksAmong, List.filter_cons, apply_ite (List.map ends)]
  rfl

theorem length_linksAmong_fresh_le (h : ∀ link ∈ linksAmong ids (fresh taken asked), link.1 ≠ link.2) :
    (linksAmong ids (fresh taken asked)).length ≤
      ((linksAmong ids asked).filter fun link => link.1 ≠ link.2).length := by
  have hall : (linksAmong ids (fresh taken asked)).filter (fun link => link.1 ≠ link.2) =
      linksAmong ids (fresh taken asked) :=
    List.filter_eq_self.mpr fun link hlink => decide_eq_true (h link hlink)
  rw [← hall]
  exact ((((fresh_sublist taken asked).filter _).map _).filter _).length_le

private theorem linksAmong_fresh_ne_cons {link : String × String} (hlink : link.1 ≠ link.2) :
    linksAmong ids (fresh taken asked) ≠
      link :: (linksAmong ids asked).filter fun link => link.1 ≠ link.2 := by
  intro heq
  have hall : ∀ l ∈ linksAmong ids (fresh taken asked), l.1 ≠ l.2 := by
    rw [heq]
    exact List.forall_mem_cons.mpr ⟨hlink, fun l hl => of_decide_eq_true (List.mem_filter.mp hl).2⟩
  have hle := length_linksAmong_fresh_le hall
  rw [heq, List.length_cons] at hle
  omega

/-- What is drawn among these ids is what leads on, just if loops alone find their names taken. -/
theorem linksAmong_fresh_eq_iff : linksAmong ids (fresh taken asked) =
        (linksAmong ids asked).filter (fun link => link.1 ≠ link.2) ↔
      TakenIfLoop ids taken asked := by
  induction asked generalizing taken with
  | nil => simp [fresh, linksAmong, TakenIfLoop]
  | cons e es ih =>
    rw [takenIfLoop_cons, ← ih, linksAmong_cons, fresh]
    by_cases htaken : e.name ∈ taken
    · have hsame : ∀ n, n ∈ taken ↔ n ∈ taken ++ [e.name] := by
        intro n
        rw [List.mem_append, List.mem_singleton]
        exact ⟨.inl, fun hn => hn.elim id fun heq => heq ▸ htaken⟩
      rw [if_pos htaken, fresh_congr hsame]
      by_cases hjoins : e.joins ids = true
      · rw [if_pos hjoins]
        by_cases hloop : e.isLoop = true
        · rw [List.filter_cons_of_neg (by simpa [isLoop] using hloop)]
          simp [htaken, hloop]
        · have hends : e.ends.1 ≠ e.ends.2 := by simpa [isLoop] using hloop
          rw [List.filter_cons_of_pos (by simpa using hends)]
          exact iff_of_false (linksAmong_fresh_ne_cons hends) fun h => hloop ((h.1 hjoins).mp htaken)
      · simp [hjoins]
    · rw [if_neg htaken, linksAmong_cons]
      by_cases hjoins : e.joins ids = true
      · rw [if_pos hjoins, if_pos hjoins]
        by_cases hloop : e.isLoop = true
        · have hends : e.ends.1 = e.ends.2 := by simpa [isLoop] using hloop
          rw [List.filter_cons_of_neg (by simpa using hends)]
          refine iff_of_false ?_ fun h => htaken ((h.1 hjoins).mpr hloop)
          intro heq
          have hmem : e.ends ∈ (linksAmong ids es).filter fun link => link.1 ≠ link.2 :=
            heq ▸ List.mem_cons_self
          exact of_decide_eq_true (List.mem_filter.mp hmem).2 hends
        · rw [List.filter_cons_of_pos (by simpa [isLoop] using hloop), List.cons_inj_right]
          simp [htaken, hloop]
      · simp [hjoins]

/-- No two different edges asked for have one name. -/
def NamesApart (asked : List GraphEdge) : Prop :=
  ∀ e ∈ asked, ∀ f ∈ asked, e.name = f.name → e = f

theorem mem_fresh (hapart : NamesApart asked) {e : GraphEdge} (he : e ∈ asked) (hname : e.name ∉ taken) :
    e ∈ fresh taken asked := by
  induction asked generalizing taken with
  | nil => cases he
  | cons f es ih =>
    have hapart' : NamesApart es := fun g hg g' hg' =>
      hapart g (List.mem_cons_of_mem f hg) g' (List.mem_cons_of_mem f hg')
    rw [fresh]
    by_cases hsame : e.name = f.name
    · obtain rfl := hapart e he f List.mem_cons_self hsame
      rw [if_neg hname]
      exact List.mem_cons_self
    · have hrest : e ∈ es := (List.mem_cons.mp he).resolve_left fun heq => hsame (heq ▸ rfl)
      split
      · exact ih hapart' hrest hname
      · refine List.mem_cons_of_mem f (ih hapart' hrest ?_)
        simp [hname, hsame]

private theorem mem_linksAmong_fresh (hapart : NamesApart asked) {link : String × String} :
    link ∈ linksAmong ids (fresh [] asked) ↔ link ∈ linksAmong ids asked := by
  refine ⟨fun h => (((fresh_sublist [] asked).filter _).map _).subset h, fun h => ?_⟩
  obtain ⟨e, he, rfl⟩ := List.mem_map.mp h
  obtain ⟨hasked, hjoins⟩ := List.mem_filter.mp he
  exact List.mem_map_of_mem (List.mem_filter.mpr ⟨mem_fresh hapart hasked List.not_mem_nil, hjoins⟩)

/-- With a name for each edge, all that leads on and nothing else is drawn just if no loop is asked for. -/
theorem takenIfLoop_iff_of_namesApart (hapart : NamesApart asked)
    (honce : ((linksAmong ids asked).filter fun link => link.1 ≠ link.2).Nodup) :
    TakenIfLoop ids [] asked ↔ ∀ link ∈ linksAmong ids asked, link.1 ≠ link.2 := by
  constructor
  · intro h link hlink
    rw [← mem_linksAmong_fresh hapart, linksAmong_fresh_eq_iff.mpr h] at hlink
    exact of_decide_eq_true (List.mem_filter.mp hlink).2
  · intro hnone before e after hasked hjoins
    have he : e ∈ asked := hasked ▸ List.mem_append_right _ List.mem_cons_self
    have hends : e.ends.1 ≠ e.ends.2 :=
      hnone _ (List.mem_map_of_mem (List.mem_filter.mpr ⟨he, hjoins⟩))
    refine iff_of_false ?_ (by simpa [isLoop] using hends)
    intro htaken
    obtain ⟨f, hf, hname⟩ := List.mem_map.mp htaken
    obtain rfl := hapart f (hasked ▸ List.mem_append_left _ hf) e he hname
    rw [List.filter_eq_self.mpr fun link hlink => decide_eq_true (hnone link hlink), hasked, linksAmong,
      List.filter_append, List.map_append] at honce
    refine List.disjoint_of_nodup_append honce (List.mem_map_of_mem (List.mem_filter.mpr ⟨hf, hjoins⟩)) ?_
    exact List.mem_map_of_mem (List.mem_filter.mpr ⟨List.mem_cons_self, hjoins⟩)

end GraphEdge

/-! Drawings that ask for edges -/

/-- `c'` is the canvas `c` after these edges were asked for, and perhaps some nodes. -/
structure Canvas.Grows (c : Canvas) (asked : List GraphEdge) (c' : Canvas) : Prop where
  unset : c'.setup = {}
  edges : c'.edges = c.edges ++ GraphEdge.fresh c.edgeNames asked
  names : c'.edgeNames = c.edgeNames ++ (GraphEdge.fresh c.edgeNames asked).map GraphEdge.name

private theorem Canvas.Grows.trans {c c' c'' : Canvas} {es fs : List GraphEdge} (h : c.Grows es c')
    (h' : c'.Grows fs c'') : c.Grows (es ++ fs) c'' where
  unset := h'.unset
  edges := by
    rw [h'.edges, h.edges, h.names, GraphEdge.fresh_append, List.append_assoc]
  names := by
    rw [h'.names, h.names, GraphEdge.fresh_append, List.map_append, List.append_assoc]

namespace Drawing

variable {α β : Type}

/-- The drawing comes to a result with the property `P`, and asks for these edges in turn. -/
def Draws (d : Drawing α) (asked : List GraphEdge) (P : α → Prop) : Prop :=
  ∀ c : Canvas, c.setup = {} → ∃ a c', d.run c = (.ok a, c') ∧ P a ∧ c.Grows asked c'

variable {P : α → Prop} {Q : β → Prop}

private theorem draws_pure {a : α} (h : P a) : Draws (pure a) [] P :=
  fun c hset => ⟨a, c, rfl, h, ⟨hset, by simp [GraphEdge.fresh], by simp [GraphEdge.fresh]⟩⟩

variable {es : List GraphEdge} {id label kind title color : Value}

private theorem draws_bind {x : Drawing α} {f : α → Drawing β} {fs : List GraphEdge} (hx : Draws x es P)
    (hf : ∀ a, P a → Draws (f a) fs Q) : Draws (x >>= f) (es ++ fs) Q := by
  intro c hset
  obtain ⟨a, c₁, hrun, ha, hgrows⟩ := hx c hset
  obtain ⟨b, c₂, hrun₁, hb, hgrows₁⟩ := hf a ha c₁ hgrows.unset
  refine ⟨b, c₂, ?_, hb, hgrows.trans hgrows₁⟩
  rw [run_bind, hrun]
  exact hrun₁

private theorem draws_lift_bind {e : Except Failure α} {a : α} {f : α → Drawing β} (he : e = .ok a)
    (hf : Draws (f a) es Q) : Draws (liftM e >>= f) es Q := by
  subst he
  exact hf

private theorem draws_node (hid : id.IsName) (hkind : kind.IsName) :
    Draws (node id label kind title color) [] fun _ => True := by
  intro c hset
  unfold node
  rw [run_bind, run_newId hset hid.hashable, hkind.hashable]
  obtain ⟨nodeIds, edgeNames, nodes, edges, setup⟩ := c
  cases hset
  cases nodeIds.any (· == id) with
  | true => exact ⟨false, _, rfl, trivial, ⟨rfl, by simp [GraphEdge.fresh], by simp [GraphEdge.fresh]⟩⟩
  | false => exact ⟨true, _, rfl, trivial, ⟨rfl, by simp [GraphEdge.fresh], by simp [GraphEdge.fresh]⟩⟩

private theorem draws_node_bind {f : Bool → Drawing α} (hid : id.IsName) (hkind : kind.IsName)
    (hf : ∀ new, Draws (f new) es P) : Draws (node id label kind title color >>= f) es P :=
  draws_bind (draws_node hid hkind) fun new _ => hf new

private theorem draws_edge (e : GraphEdge) :
    Draws (edge e.source e.target e.label) [e] fun _ => True := by
  intro c hset
  rw [run_edge hset e]
  by_cases htaken : e.name ∈ c.edgeNames
  · rw [if_pos (List.contains_iff_mem.mpr htaken)]
    exact ⟨false, c, rfl, trivial, ⟨hset, by simp [GraphEdge.fresh, htaken],
      by simp [GraphEdge.fresh, htaken]⟩⟩
  · rw [if_neg (mt List.contains_iff_mem.mp htaken)]
    exact ⟨true, c.withEdge e, rfl, trivial, ⟨hset, by simp [GraphEdge.fresh, htaken, Canvas.withEdge],
      by simp [GraphEdge.fresh, htaken, Canvas.withEdge]⟩⟩

/-! What the rows of an incident have to tell -/

private theorem exists_shortLabel (h : label.IsName) (length : Int) :
    ∃ short, Explorer.shortLabel label (.int length) = .ok short := by
  cases label with
  | null => exact ⟨_, rfl⟩
  | text s =>
    unfold Explorer.shortLabel
    split
    · exact ⟨_, rfl⟩
    · change ∃ short, (if decide ((s.length : Int) ≤ length) = true then _ else _) = _
      split
      · exact ⟨_, rfl⟩
      · exact ⟨_, rfl⟩
  | _ => exact h.elim

private theorem exists_firstOf (fs : Fields) (names : List String) (last : String) (missing : Value) :
    ∃ v, firstOf (.record fs) names last missing = .ok v := by
  simp only [firstOf, Value.fields, bind, Except.bind]
  cases names.find? fun name => (fs.get name).truthy with
  | some name => exact ⟨_, rfl⟩
  | none => exact ⟨_, rfl⟩

private theorem exists_holds_bind {labels : List Value} {part : String} {f : Bool → Except Failure String}
    (hfound : ∃ s, f true = .ok s) (hmissing : ∃ s, f false = .ok s) :
    ∃ s, ((Value.list labels).holds part >>= f) = .ok s := by
  change ∃ s, f (labels.any (· == .text part)) = .ok s
  cases labels.any (· == .text part) with
  | true => exact hfound
  | false => exact hmissing

private theorem exists_kindOf (labels : List Value) : ∃ kind, kindOf (.list labels) = .ok kind := by
  unfold kindOf
  refine exists_holds_bind ⟨_, rfl⟩ (exists_holds_bind ⟨_, rfl⟩ (exists_holds_bind ⟨_, rfl⟩ ?_))
  exact exists_holds_bind ⟨_, rfl⟩ (exists_holds_bind ⟨_, rfl⟩ (exists_holds_bind ⟨_, rfl⟩ ⟨_, rfl⟩))

private theorem exists_artifactLine (fs : Fields) (labels : List Value) :
    ∃ line, artifactLine (.record fs) (.list labels) = .ok line := by
  obtain ⟨v, hv⟩ := exists_firstOf fs ["name", "cve_id"] "url" .null
  simp only [artifactLine, hv, Value.holds, Value.contains, bind, Except.bind, pure, Except.pure]
  split
  · exact ⟨_, rfl⟩
  · split
    · exact ⟨_, rfl⟩
    · exact ⟨_, rfl⟩

private theorem draws_stored {id : String} (hid : id ≠ "") (fs : Fields) (labels : List Value) :
    Draws (stored (.record fs) (.list labels) (.text id)) [] (· = .text id) := by
  have htruthy : (Value.text id).truthy = true := by simpa [Value.truthy] using hid
  have hname : (Value.text id).IsName := trivial
  obtain ⟨name, hfirst⟩ := exists_firstOf fs ["name", "title", "cve_id"] "url" (.text "Unknown")
  obtain ⟨label, hlabel⟩ := exists_shortLabel (show (Value.text name.display).IsName from trivial) 15
  obtain ⟨kind, hkind⟩ := exists_kindOf labels
  unfold stored
  rw [if_pos htruthy, pure_bind]
  refine draws_lift_bind hfirst (draws_lift_bind hlabel (draws_lift_bind hkind ?_))
  refine draws_lift_bind rfl ?_
  exact draws_node_bind hname (by trivial) fun _ => draws_pure rfl

theorem draws_tied {anchor relation : Value} {f : Bool → Drawing α} (hid : id.IsName) (hkind : kind.IsName)
    (hf : ∀ new, Draws (f new) es P) : Draws (do
      let _ ← node id label kind title color
      let new ← edge anchor id relation
      f new) (⟨anchor, id, relation⟩ :: es) P :=
  draws_node_bind hid hkind fun _ => draws_bind (draws_edge ⟨anchor, id, relation⟩) fun new _ => hf new

end Drawing

namespace Row

def stepId (row : Row) : String :=
  (Fields.get row "step_id").display

/-- The edge to what a field of the row names, if it names anything. -/
def tie (row : Row) (source : Value) (field : String) (label : Value) : List GraphEdge :=
  if (Fields.get row field).truthy then [⟨source, Fields.get row field, label⟩] else []

/-- The row tells of an incident: its title, and the names of its victim and its actor if it has them. -/
structure TellsIncident (row : Row) : Prop where
  title : ∃ title, row.item "title" = .ok title ∧ title.IsName
  victim : (Fields.get row "victim_id").truthy = true →
    (Fields.get row "victim_id").IsName ∧ ∃ victim, row.item "victim" = .ok victim ∧ victim.IsName
  actor : (Fields.get row "actor_id").truthy = true →
    (Fields.get row "actor_id").IsName ∧ ∃ actor, row.item "actor" = .ok actor

/-- The row tells of a step, and of an artifact of it if there is one: its properties and labels, and how
the step is related to it. -/
structure TellsStep (row : Row) : Prop where
  step : ∃ id, row.item "step_id" = .ok (.text id)
  described : ∀ field ∈ ["order", "phase", "outcome", "desc", "art_id"], ∃ v, row.item field = .ok v
  artifact : (Fields.get row "art_id").truthy = true →
    ∃ id properties labels relation, row.item "art_id" = .ok (.text id) ∧
      row.item "props" = .ok (.record properties) ∧ row.item "labels" = .ok (.list labels) ∧
      row.item "rel" = .ok relation

def stepEdge (row : Row) (previous : Value) : GraphEdge :=
  ⟨previous, Fields.get row "step_id",
    if Fields.get row "order" == .int 1 then "STARTS_WITH" else "NEXT"⟩

end Row

/-- The edges that the rows of a flow ask for: to each step from the one before it, and from each step to
its artifact. -/
def flowEdges : Value → List Row → List GraphEdge
  | _, [] => []
  | previous, row :: rows =>
    row.stepEdge previous :: row.tie (Fields.get row "step_id") "art_id" (Fields.get row "rel") ++
      flowEdges (Fields.get row "step_id") rows

def Explorer.Incident.edges (i : Explorer.Incident) (id : Value) : List GraphEdge :=
  i.header.tie id "victim_id" "TARGETS" ++ i.header.tie id "actor_id" "ATTRIBUTED_TO" ++
    flowEdges id i.flow

namespace Drawing

variable {α : Type} {P : α → Prop}
variable {row : Row} {events : List Event} {follow : Bool}

private theorem draws_header {id : Value} (hid : id.IsName) (hrow : row.TellsIncident) : Draws (header id row)
      (row.tie id "victim_id" "TARGETS" ++ row.tie id "actor_id" "ATTRIBUTED_TO") fun _ => True := by
  obtain ⟨title, htitle, htitleName⟩ := hrow.title
  obtain ⟨label, hlabel⟩ := exists_shortLabel htitleName 12
  unfold header
  refine draws_lift_bind htitle (draws_lift_bind hlabel ?_)
  refine draws_node_bind hid (by trivial) fun _ => ?_
  extract_lets victimId actorId tieActor
  have hactor : Draws (tieActor ()) (row.tie id "actor_id" "ATTRIBUTED_TO") fun _ => True := by
    change Draws (if actorId.truthy = true then _ else _) (if actorId.truthy = true then _ else _) _
    split
    case isTrue htruthy =>
      obtain ⟨hname, actor, hactor⟩ := hrow.actor htruthy
      refine draws_lift_bind hactor ?_
      exact draws_tied hname (by trivial) fun _ => draws_pure trivial
    case isFalse => exact draws_pure trivial
  change Draws (if victimId.truthy = true then _ else _)
    ((if victimId.truthy = true then _ else _) ++ _) _
  split
  case isTrue htruthy =>
    obtain ⟨hname, victim, hvictim, hvictimName⟩ := hrow.victim htruthy
    obtain ⟨short, hshort⟩ := exists_shortLabel hvictimName 15
    refine draws_lift_bind hvictim (draws_lift_bind hshort ?_)
    exact draws_tied hname (by trivial) fun _ => hactor
  case isFalse => exact hactor

private theorem draws_artifact {step : Value} (hrow : row.TellsStep) :
    Draws (artifact follow step row events) (row.tie step "art_id" (Fields.get row "rel"))
      fun _ => True := by
  obtain ⟨id, hid⟩ := hrow.described "art_id" (by simp)
  unfold artifact Row.tie
  refine draws_lift_bind hid ?_
  rw [Row.get_of_item hid]
  by_cases htruthy : id.truthy = true
  · obtain ⟨name, properties, labels, relation, hname, hproperties, hlabels, hrelation⟩ :=
      hrow.artifact (by rwa [Row.get_of_item hid])
    obtain rfl : id = .text name := by
      rw [hid] at hname
      exact Except.ok.inj hname
    have hne : name ≠ "" := by simpa [Value.truthy] using htruthy
    rw [if_neg (by simpa using htruthy), if_pos htruthy, Row.get_of_item hrelation]
    refine draws_lift_bind hproperties (draws_lift_bind hlabels (draws_lift_bind rfl ?_))
    extract_lets tieArtifact
    have htie : ∀ events, Draws (tieArtifact events) [⟨step, .text name, relation⟩] fun _ => True := by
      intro events
      refine draws_bind (draws_stored hne properties labels) fun drawn hdrawn => ?_
      subst hdrawn
      refine draws_lift_bind hrelation ?_
      exact draws_bind (draws_edge ⟨step, .text name, relation⟩) fun _ _ => draws_pure trivial
    split
    · obtain ⟨line, hline⟩ := exists_artifactLine properties labels
      exact draws_lift_bind hline (htie _)
    · exact htie events
  · rw [if_pos (by simpa using htruthy), if_neg htruthy]
    exact draws_pure trivial

theorem draws_flowRow {previous : Value} (hrow : row.TellsStep) : Draws (flowRow follow previous row events)
      (row.stepEdge previous :: row.tie (Fields.get row "step_id") "art_id" (Fields.get row "rel"))
      fun next => next.1 = Fields.get row "step_id" := by
  obtain ⟨id, hid⟩ := hrow.step
  obtain ⟨order, horder⟩ := hrow.described "order" (by simp)
  obtain ⟨phase, hphase⟩ := hrow.described "phase" (by simp)
  obtain ⟨outcome, houtcome⟩ := hrow.described "outcome" (by simp)
  obtain ⟨description, hdescription⟩ := hrow.described "desc" (by simp)
  unfold flowRow Row.stepEdge
  rw [Row.get_of_item hid, Row.get_of_item horder]
  refine draws_lift_bind hid (draws_lift_bind horder (draws_lift_bind hphase ?_))
  refine draws_lift_bind houtcome (draws_lift_bind hdescription ?_)
  have hname : (Value.text id).IsName := trivial
  refine draws_tied hname (by trivial) fun _ => ?_
  rw [← List.append_nil (row.tie _ _ _)]
  exact draws_bind (draws_artifact hrow) fun _ _ => draws_pure rfl

/-- Each row of a flow asks for its edges from the step of the row before. -/
theorem draws_flowRows {rows : List Row} {previous : Value} (hrows : ∀ row ∈ rows, row.TellsStep) :
    Draws (flowRows follow rows previous events) (flowEdges previous rows) fun _ => True := by
  induction rows generalizing previous events with
  | nil => exact draws_pure trivial
  | cons row rows ih =>
    obtain ⟨hrow, hrest⟩ := List.forall_mem_cons.mp hrows
    refine draws_bind (draws_flowRow hrow) fun next hnext => ?_
    obtain ⟨step, events'⟩ := next
    obtain rfl : step = _ := hnext
    exact ih hrest

private theorem edges_incident {id : Value} (hid : id.IsName) {i : Explorer.Incident}
    (hheader : i.header.TellsIncident) (hrows : ∀ row ∈ i.flow, row.TellsStep) :
    ((incident follow id i).run {}).2.edges = GraphEdge.fresh [] (i.edges id) := by
  have hdraws : Draws (header id i.header >>= fun _ => flowRows follow i.flow id []) (i.edges id)
      fun _ => True := draws_bind (draws_header hid hheader) fun _ _ => draws_flowRows hrows
  obtain ⟨events, c, hrun, -, hgrows⟩ := hdraws {} rfl
  have hsame : incident follow id i = (header id i.header >>= fun _ => flowRows follow i.flow id []) >>=
      fun events => liftM (Value.sortByKey (events.map fun e => (e.order, e))) := by
    rw [bind_assoc]
    rfl
  rw [hsame, run_bind, hrun]
  exact hgrows.edges

end Drawing

/-! The chain of steps -/

namespace Explorer.Incident

/-- The steps of an incident in turn, each once for the rows of it that stand together. -/
def steps (i : Explorer.Incident) : List String :=
  (i.flow.map Row.stepId).destutter (· ≠ ·)

/-- What is drawn besides the incident and its steps: the victim, the actor and the artifacts. -/
def others (i : Explorer.Incident) : List Value :=
  (Fields.get i.header "victim_id" :: Fields.get i.header "actor_id" ::
    i.flow.map (Fields.get · "art_id")).filter Value.truthy

variable {i : Explorer.Incident}

private theorem mem_steps {row : Row} (h : row ∈ i.flow) : row.stepId ∈ i.steps := by
  have hmem : row.stepId ∈ i.flow.map Row.stepId := List.mem_map_of_mem h
  unfold steps
  cases hids : i.flow.map Row.stepId with
  | nil => rwa [hids] at hmem
  | cons first rest =>
    rw [List.destutter_cons', mem_destutter]
    rwa [hids] at hmem

private theorem notMem_rows {id : String} (h : id ∉ i.steps) : id ∉ i.flow.map Row.stepId := by
  intro hmem
  obtain ⟨row, hrow, rfl⟩ := List.mem_map.mp hmem
  exact h (mem_steps hrow)

private theorem destutter_rows {id : String} (h : id ∉ i.steps) :
    (i.flow.map Row.stepId).destutter' (· ≠ ·) id = id :: i.steps := by
  unfold steps at h ⊢
  cases hids : i.flow.map Row.stepId with
  | nil => rfl
  | cons first rest =>
    rw [hids, List.destutter_cons', mem_destutter] at h
    have hne : id ≠ first := fun heq => h (heq ▸ List.mem_cons_self)
    rw [List.destutter_cons', List.destutter'_cons_pos _ hne]

end Explorer.Incident

namespace GraphEdge

private theorem linksAmong_append (ids : List String) (es fs : List GraphEdge) :
    linksAmong ids (es ++ fs) = linksAmong ids es ++ linksAmong ids fs := by
  rw [linksAmong, List.filter_append, List.map_append]
  rfl

private theorem linksAmong_tie {ids : List String} {row : Row} {source label : Value} {field : String}
    (h : (Fields.get row field).truthy = true → (Fields.get row field).display ∉ ids) :
    linksAmong ids (row.tie source field label) = [] := by
  unfold Row.tie
  split
  case isTrue htruthy =>
    rw [linksAmong_cons, if_neg]
    · rfl
    · simp [joins, ends, h htruthy]
  case isFalse => rfl

/-- Among the steps, the rows of a flow ask for the edges from the step of each row to that of the next. -/
theorem linksAmong_flowEdges {ids : List String} {rows : List Row} {previous : Value}
    (hprevious : previous.display ∈ ids) (hsteps : ∀ row ∈ rows, row.stepId ∈ ids)
    (hartifacts : ∀ row ∈ rows, (Fields.get row "art_id").truthy = true →
      (Fields.get row "art_id").display ∉ ids) :
    linksAmong ids (flowEdges previous rows) = links (previous.display :: rows.map Row.stepId) := by
  induction rows generalizing previous with
  | nil => rfl
  | cons row rows ih =>
    obtain ⟨hstep, hsteps⟩ := List.forall_mem_cons.mp hsteps
    obtain ⟨hartifact, hartifacts⟩ := List.forall_mem_cons.mp hartifacts
    have hjoins : (row.stepEdge previous).joins ids = true := by
      rw [joins, Bool.and_eq_true, List.contains_iff_mem, List.contains_iff_mem]
      exact ⟨hprevious, hstep⟩
    rw [flowEdges, List.cons_append, linksAmong_cons, if_pos hjoins, linksAmong_append,
      linksAmong_tie hartifact, List.nil_append, ih hstep hsteps hartifacts]
    rfl

private theorem linksAmong_edges {i : Explorer.Incident} {id : String}
    (hothers : ∀ other ∈ i.others, other.display ∉ id :: i.steps) :
    linksAmong (id :: i.steps) (i.edges (.text id)) = links (id :: i.flow.map Row.stepId) := by
  have hheader (field : String) (hfield : field = "victim_id" ∨ field = "actor_id")
      (htruthy : (Fields.get i.header field).truthy = true) :
      (Fields.get i.header field).display ∉ id :: i.steps := by
    refine hothers _ (List.mem_filter.mpr ⟨?_, htruthy⟩)
    rcases hfield with rfl | rfl
    · exact List.mem_cons_self
    · exact List.mem_cons_of_mem _ List.mem_cons_self
  have hartifacts : ∀ row ∈ i.flow, (Fields.get row "art_id").truthy = true →
      (Fields.get row "art_id").display ∉ id :: i.steps := by
    intro row hrow htruthy
    refine hothers _ (List.mem_filter.mpr ⟨?_, htruthy⟩)
    exact List.mem_cons_of_mem _ (List.mem_cons_of_mem _ (List.mem_map_of_mem hrow))
  have hsteps : ∀ row ∈ i.flow, row.stepId ∈ id :: i.steps :=
    fun row hrow => List.mem_cons_of_mem id (Explorer.Incident.mem_steps hrow)
  have hid : (Value.text id).display ∈ id :: i.steps := List.mem_cons_self
  rw [Explorer.Incident.edges, linksAmong_append, linksAmong_append,
    linksAmong_tie (hheader _ (.inl rfl)), linksAmong_tie (hheader _ (.inr rfl)),
    linksAmong_flowEdges hid hsteps hartifacts]
  rfl

end GraphEdge

namespace Dashboard.Exploration

open GraphEdge (TakenIfLoop NamesApart fresh linksAmong)
open Job (outcome Returns)

variable {σ : Type} [Outside σ]

private theorem canvas_loadIncident {id : Value} {i : Explorer.Incident} {w w₁ : World σ}
    (hflow : Returns (Explorer.incidentFlow id) w (some i) w₁) :
    ∃ follow, canvasOf (outcome (loadIncident id) w).2 =
      ((Drawing.incident follow id i).run (canvasOf w)).2 := by
  have hanswers : Answers σ fun _ => True := fun _ _ _ _ _ _ => trivial
  have hsession : (outcome (Explorer.incidentFlow id) w).2.session = w.session :=
    (reads_incidentFlow hanswers id w).1
  rw [show outcome _ w = _ from hflow] at hsession
  have hcanvas : canvasOf w₁ = canvasOf w := congrArg (fun s => s.canvas.getD {}) hsession
  let selected := w₁.session.entries.get "last_selected_incident"
  have hselected : Returns (remembered "last_selected_incident") w₁ selected w₁ := rfl
  refine ⟨id.equal selected, ?_⟩
  unfold loadIncident
  rw [Job.outcome_bind_of_returns hflow, Job.outcome_bind_of_returns hselected, ← hcanvas]
  have hdraw : canvasOf (outcome (draw (Drawing.incident (id.equal selected) id i)) w₁).2 =
      ((Drawing.incident (id.equal selected) id i).run (canvasOf w₁)).2 := rfl
  rw [Job.outcome_bind, ← hdraw]
  rcases outcome (draw (Drawing.incident (id.equal selected) id i)) w₁ with ⟨r, w₂⟩
  cases r with
  | error e => rfl
  | ok events =>
    dsimp only
    split
    · rfl
    · rfl

/-- When the graph is empty and tells of an incident and its steps, the rows of a step standing together,
what is drawn between the incident and its steps is the chain from the incident through the steps, just if
an edge asked for finds its name taken exactly when it leads from a step to itself. With a name for each
edge that is so just if no step has two rows, and a step that has is tied to itself. -/
theorem loadIncident_draws_chain_iff {w w₁ : World σ} {id : String} {i : Explorer.Incident}
    (hempty : canvasOf w = {}) (hflow : Returns (Explorer.incidentFlow (.text id)) w (some i) w₁)
    (hheader : i.header.TellsIncident) (hrows : ∀ row ∈ i.flow, row.TellsStep)
    (hgrouped : (id :: i.steps).Nodup)
    (hothers : ∀ other ∈ i.others, other.display ∉ id :: i.steps) :
    let drawn := linksAmong (id :: i.steps) (canvasOf (outcome (loadIncident (.text id)) w).2).edges
    (drawn = links (id :: i.steps) ↔ TakenIfLoop (id :: i.steps) [] (i.edges (.text id))) ∧
      (NamesApart (i.edges (.text id)) →
        (drawn = links (id :: i.steps) ↔ (i.flow.map Row.stepId).Nodup) ∧
          ∀ step, (step, step) ∈ drawn ↔ 2 ≤ (i.flow.map Row.stepId).count step) := by
  intro drawn
  have hincident : id ∉ i.steps := (List.nodup_cons.mp hgrouped).1
  have hdestutter := Explorer.Incident.destutter_rows hincident
  have hdrawn : drawn = linksAmong (id :: i.steps) (fresh [] (i.edges (.text id))) := by
    obtain ⟨follow, hcanvas⟩ := canvas_loadIncident hflow
    have hid : (Value.text id).IsName := trivial
    rw [hempty] at hcanvas
    rw [← Drawing.edges_incident hid hheader hrows, ← hcanvas]
  have hchain : links (id :: i.steps) =
      (linksAmong (id :: i.steps) (i.edges (.text id))).filter fun link => link.1 ≠ link.2 := by
    rw [GraphEdge.linksAmong_edges hothers, filter_links, hdestutter]
  have hiff : drawn = links (id :: i.steps) ↔
      TakenIfLoop (id :: i.steps) [] (i.edges (.text id)) := by
    rw [hdrawn, hchain, GraphEdge.linksAmong_fresh_eq_iff]
  refine ⟨hiff, fun hapart => ?_⟩
  have hself : ∀ step, (step, step) ∈ linksAmong (id :: i.steps) (i.edges (.text id)) ↔
      List.Duplicate step (i.flow.map Row.stepId) := by
    intro step
    rw [GraphEdge.linksAmong_edges hothers, mem_links_self_iff (by rwa [hdestutter]),
      List.duplicate_cons_iff, or_iff_right]
    rintro ⟨rfl, hmem⟩
    exact Explorer.Incident.notMem_rows hincident hmem
  constructor
  · have honce := hchain ▸ nodup_links hgrouped
    rw [hiff, GraphEdge.takenIfLoop_iff_of_namesApart hapart honce,
      List.nodup_iff_forall_not_duplicate]
    constructor
    · intro hnone step hstep
      exact hnone _ ((hself step).mpr hstep) rfl
    · rintro hnodup ⟨source, target⟩ hlink heq
      obtain rfl : source = target := heq
      exact hnodup source ((hself source).mp hlink)
  · intro step
    rw [hdrawn, GraphEdge.mem_linksAmong_fresh hapart, hself, List.duplicate_iff_two_le_count]

/-- A step with two artifacts has two rows, and is tied to itself. -/
theorem loadIncident_ties_step_to_itself :
    let header : Row := [("title", "Breach"), ("victim_id", "4:ab-1:9"), ("victim", "Acme")]
    let row (step : String) (order : Int) (artifact : String) : Row :=
      [("step_id", .text step), ("order", .int order), ("phase", "Execution"), ("desc", "Runs"),
        ("outcome", "Success"), ("rel", "USES_MALWARE"), ("labels", .list ["Malware"]),
        ("props", .record [("name", .text artifact)]), ("art_id", .text artifact)]
    let i : Explorer.Incident := ⟨header, [row "4:ab-1:1" 1 "4:ab-1:7", row "4:ab-1:1" 1 "4:ab-1:8",
      row "4:ab-1:2" 2 "4:ab-1:7"]⟩
    let w : World Scripted := { outside := ⟨[.rows [i.header], .rows i.flow]⟩ }
    let drawn :=
      linksAmong ("4:ab-1:0" :: i.steps) (canvasOf (outcome (loadIncident "4:ab-1:0") w).2).edges
    i.steps = ["4:ab-1:1", "4:ab-1:2"] ∧ ("4:ab-1:1", "4:ab-1:1") ∈ drawn ∧
      drawn ≠ links ("4:ab-1:0" :: i.steps) := by
  intro header row i w drawn
  have hrow : ∀ step order artifact, (row step order artifact).TellsStep := by
    intro step order artifact
    refine ⟨⟨step, rfl⟩, ?_, fun _ => ⟨artifact, _, _, _, rfl, rfl, rfl, rfl⟩⟩
    simp only [List.forall_mem_cons, List.not_mem_nil, false_imp_iff, implies_true, and_true]
    exact ⟨⟨_, rfl⟩, ⟨_, rfl⟩, ⟨_, rfl⟩, ⟨_, rfl⟩, ⟨_, rfl⟩⟩
  have hheader : i.header.TellsIncident :=
    ⟨⟨_, rfl, trivial⟩, fun _ => ⟨trivial, _, rfl, trivial⟩, fun hfilled => by cases hfilled⟩
  have hnames : ((i.edges "4:ab-1:0").map GraphEdge.name).Nodup := by decide +kernel
  have hsteps : i.steps = ["4:ab-1:1", "4:ab-1:2"] := by decide +kernel
  have hflow : Returns (Explorer.incidentFlow "4:ab-1:0") w (some i)
      (outcome (Explorer.incidentFlow "4:ab-1:0") w).2 := rfl
  obtain ⟨-, hclear⟩ := loadIncident_draws_chain_iff rfl hflow hheader (by simp [i, hrow])
    (by decide +kernel) (by decide +kernel)
  obtain ⟨hchain, hloop⟩ := hclear fun e he f hf => List.inj_on_of_nodup_map hnames he hf
  refine ⟨hsteps, (hloop _).mpr (by decide +kernel), ?_⟩
  exact mt hchain.mp (by decide +kernel)

end Dashboard.Exploration

end ThreatAtlas
