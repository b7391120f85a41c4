import ThreatAtlas.Dashboard.Sketch
import ThreatAtlas.Proofs.Canvas
import ThreatAtlas.Proofs.Failure

/-!
# Drawings that hold together

Incidents, neighbours and paths are drawn so that an edge comes after both its ends, as long as the rows
have names where ids, types and relations stand.
-/

namespace ThreatAtlas

namespace Row

def nameFields : List String :=
  ["victim_id", "actor_id", "step_id", "art_id", "res_id", "type", "rel"]

def pathNodes (row : Row) : List Value :=
  (Fields.get row "core_nodes").elements.toOption.getD []

def pathRelations (row : Row) : List Value :=
  (Fields.get row "core_rels").elements.toOption.getD []

/-- Ids, types and relations of the row are names where they are there, and the relations of a path join
nodes of it. -/
structure Typed (row : Row) : Prop where
  names : ∀ field ∈ nameFields, (Fields.get row field).IsName
  types : ∀ r ∈ row.pathRelations, ∀ v ∈ (r.item "type").toOption, v.IsName
  ends : ∀ r ∈ row.pathRelations, ∀ side ∈ ["s_id", "e_id"], ∀ v ∈ (r.item side).toOption,
    v.IsName ∧ ∃ n ∈ row.pathNodes, ∃ id ∈ (n.item "id").toOption, (id == v) = true

instance : DecidablePred Typed := fun row =>
  decidable_of_iff
    ((∀ field ∈ nameFields, (Fields.get row field).IsName) ∧
      (∀ r ∈ row.pathRelations, ∀ v ∈ (r.item "type").toOption, v.IsName) ∧
      ∀ r ∈ row.pathRelations, ∀ side ∈ ["s_id", "e_id"], ∀ v ∈ (r.item side).toOption,
        v.IsName ∧ ∃ n ∈ row.pathNodes, ∃ id ∈ (n.item "id").toOption, (id == v) = true)
    ⟨fun h => ⟨h.1, h.2.1, h.2.2⟩, fun h => ⟨h.names, h.types, h.ends⟩⟩

def EndsFilled (row : Row) : Prop :=
  ∀ r ∈ row.pathRelations, ∀ side ∈ ["s_id", "e_id"], ∀ v ∈ (r.item side).toOption, v.truthy = true

instance : DecidablePred EndsFilled := fun row =>
  inferInstanceAs (Decidable (∀ r ∈ row.pathRelations, ∀ side ∈ ["s_id", "e_id"],
    ∀ v ∈ (r.item side).toOption, v.truthy = true))

theorem get_of_item {row : Row} {field : String} {v : Value} (h : row.item field = .ok v) :
    Fields.get row field = v := by
  rw [Fields.get, Value.item_eq_ok_iff.mp h, Option.getD_some]

private theorem Typed.item {row : Row} (h : row.Typed) {field : String} (hfield : field ∈ nameFields)
    {v : Value} (hv : row.item field = .ok v) : v.IsName := by
  rw [← get_of_item hv]
  exact h.names field hfield

end Row

namespace Drawing

variable {α : Type} {known : Set Value}
variable {id : Value} {row : Row} {events : List Event} {follow : Bool} {rows : List Row}

theorem safe_stored {properties labels : Value} : Safe known (stored properties labels id) fun drawn shown =>
      id.truthy = true → drawn = id ∧ (id.IsName → id ∈ shown) := by
  unfold stored
  extract_lets rest
  have hrest : ∀ chosen, (id.truthy = true → chosen = id) → Safe known (rest chosen)
      fun drawn shown => id.truthy = true → drawn = id ∧ (id.IsName → id ∈ shown) := by
    intro chosen hchosen
    refine safe_lift_bind fun name _ => ?_
    refine safe_lift_bind fun label _ => ?_
    refine safe_lift_bind fun kind _ => ?_
    refine safe_lift_bind fun more _ => ?_
    refine safe_bind (safe_node trivial) fun _ shown _ hdrawn => ?_
    refine safe_pure fun shown' hgrown htruthy => ?_
    obtain rfl := hchosen htruthy
    exact ⟨rfl, fun hname => hgrown (hdrawn hname)⟩
  split
  case isTrue => exact hrest id fun _ => rfl
  case isFalse hempty =>
    exact safe_lift_bind fun chosen _ => hrest chosen fun htruthy => absurd htruthy hempty

private theorem safe_tied {Q : α → Set Value → Prop} {anchor label kind title color relation : Value}
    {f : Bool → Drawing α} (hanchor : anchor.IsName) (hknown : anchor ∈ known) (hid : id.IsName)
    (hkind : kind.IsName) (hrelation : relation.IsName)
    (hf : ∀ new shown, known ⊆ shown → id ∈ shown → Safe shown (f new) Q) : Safe known (do
      let _ ← node id label kind title color
      let new ← edge anchor id relation
      f new) Q := by
  refine safe_bind (safe_node hkind) fun _ shown hgrown hdrawn => ?_
  have hshown : id ∈ shown := hdrawn hid
  refine safe_bind (safe_edge (hgrown hknown) hshown ⟨hanchor, hrelation, hid⟩) ?_
  intro new shown' hgrown' _
  exact hf new shown' (hgrown.trans hgrown') (hgrown' hshown)

private theorem safe_header (hid : id.IsName) (hrow : row.Typed) :
    Safe known (header id row) fun _ shown => id ∈ shown := by
  unfold header
  refine safe_lift_bind fun title _ => ?_
  refine safe_lift_bind fun label _ => ?_
  refine safe_bind (safe_node trivial) fun _ shown _ hdrawn => ?_
  have hshown : id ∈ shown := hdrawn hid
  extract_lets victimId actorId tieActor
  have hactor : ∀ shown, id ∈ shown → Safe shown (tieActor ()) fun _ shown => id ∈ shown := by
    intro shown hshown
    change Safe shown (if actorId.truthy = true then _ else _) _
    split
    · refine safe_lift_bind fun actor _ => ?_
      refine safe_tied hid hshown (hrow.names _ (by simp [Row.nameFields])) trivial trivial ?_
      intro _ _ hgrown _
      exact safe_pure fun _ hgrown' => hgrown' (hgrown hshown)
    · exact safe_pure fun _ hgrown => hgrown hshown
  split
  · refine safe_lift_bind fun victim _ => ?_
    refine safe_lift_bind fun label _ => ?_
    refine safe_tied hid hshown (hrow.names _ (by simp [Row.nameFields])) trivial trivial ?_
    intro _ _ hgrown _
    exact hactor _ (hgrown hshown)
  · exact hactor _ hshown

theorem safe_artifact {step : Value} (hstep : step.IsName) (hshown : step ∈ known) (hrow : row.Typed) :
    Safe known (artifact follow step row events) fun _ _ => True := by
  unfold artifact
  refine safe_lift_bind fun id hid => ?_
  have hname : id.IsName := hrow.item (by simp [Row.nameFields]) hid
  split
  case isTrue => exact safe_pure fun _ _ => trivial
  case isFalse hfilled =>
    have htruthy : id.truthy = true := by simpa using hfilled
    refine safe_lift_bind fun properties _ => ?_
    refine safe_lift_bind fun labels _ => ?_
    refine safe_lift_bind fun _ _ => ?_
    extract_lets tie
    have htie : ∀ events, Safe known (tie events) fun _ _ => True := by
      intro events
      refine safe_bind safe_stored fun drawn shown hgrown hdrawn => ?_
      obtain ⟨rfl, hin⟩ := hdrawn htruthy
      refine safe_lift_bind fun relation hrelation => ?_
      have hparts : relation.IsName := hrow.item (by simp [Row.nameFields]) hrelation
      refine safe_bind (safe_edge (hgrown hshown) (hin hname) ⟨hstep, hparts, hname⟩) ?_
      intro _ _ _ _
      exact safe_pure fun _ _ => trivial
    split
    · exact safe_lift_bind fun line _ => htie _
    · exact htie events

private theorem safe_flowRow {previous : Value} (hprevious : previous.IsName) (hshown : previous ∈ known)
    (hrow : row.Typed) : Safe known (flowRow follow previous row events) fun next shown =>
      next.1.IsName ∧ next.1 ∈ shown := by
  unfold flowRow
  refine safe_lift_bind fun id hid => ?_
  have hname : id.IsName := hrow.item (by simp [Row.nameFields]) hid
  refine safe_lift_bind fun order _ => ?_
  refine safe_lift_bind fun phase _ => ?_
  refine safe_lift_bind fun outcome _ => ?_
  refine safe_lift_bind fun description _ => ?_
  have hrelation : (if order == .int 1 then "STARTS_WITH" else "NEXT" : Value).IsName := by
    split <;> trivial
  refine safe_tied hprevious hshown hname trivial hrelation fun _ shown _ hin => ?_
  refine safe_bind (safe_artifact hname hin hrow) fun _ _ hgrown _ => ?_
  exact safe_pure fun _ hgrown' => ⟨hname, hgrown' (hgrown hin)⟩

/-- Each step of a flow is tied to the one before it, and the first to the incident. -/
theorem safe_flowRows {previous : Value} (hprevious : previous.IsName) (hshown : previous ∈ known)
    (hrows : ∀ row ∈ rows, row.Typed) :
    Safe known (flowRows follow rows previous events) fun _ _ => True := by
  induction rows generalizing previous events known with
  | nil => exact safe_pure fun _ _ => trivial
  | cons row rows ih =>
    obtain ⟨hrow, hrest⟩ := List.forall_mem_cons.mp hrows
    refine safe_bind (safe_flowRow hprevious hshown hrow) fun next shown _ hnext => ?_
    exact ih hnext.1 hnext.2 hrest

theorem safe_incident {i : Explorer.Incident} (hid : id.IsName) (hheader : i.header.Typed)
    (hflow : ∀ row ∈ i.flow, row.Typed) : Safe known (incident follow id i) fun _ _ => True := by
  refine safe_bind (safe_header hid hheader) fun _ shown _ hshown => ?_
  refine safe_bind (safe_flowRows hid hshown hflow) fun events _ _ _ => ?_
  exact safe_lift fun _ _ _ _ => trivial

private theorem safe_neighbour (hid : id.IsName) (hshown : id ∈ known) (hrow : row.Typed) :
    Safe known (neighbour id row) fun _ _ => True := by
  unfold neighbour
  refine safe_lift_bind fun other hother => ?_
  refine safe_lift_bind fun label _ => ?_
  refine safe_lift_bind fun kind hkind => ?_
  refine safe_lift_bind fun relation hrelation => ?_
  refine safe_lift_bind fun short _ => ?_
  have hotherName : other.IsName := hrow.item (by simp [Row.nameFields]) hother
  have hkindName : kind.IsName := hrow.item (by simp [Row.nameFields]) hkind
  have hrelationName : relation.IsName := hrow.item (by simp [Row.nameFields]) hrelation
  refine safe_bind (safe_node hkindName) fun new shown hgrown hdrawn => ?_
  have hin : other ∈ shown := hdrawn hotherName
  extract_lets inward tell
  have htell : ∀ drawn shown, Safe shown (tell drawn) fun _ _ => True :=
    fun _ _ => safe_pure fun _ _ => trivial
  split
  · refine safe_bind (safe_edge hin (hgrown hshown) ⟨hotherName, hrelationName, hid⟩) ?_
    exact fun drawn shown' _ _ => htell drawn shown'
  · refine safe_bind (safe_edge (hgrown hshown) hin ⟨hid, hrelationName, hotherName⟩) ?_
    exact fun drawn shown' _ _ => htell drawn shown'

theorem safe_neighbours (hid : id.IsName) (hshown : id ∈ known) (hrows : ∀ row ∈ rows, row.Typed) :
    Safe known (neighbours id rows) fun _ _ => True := by
  induction rows generalizing known with
  | nil => exact safe_pure fun _ _ => trivial
  | cons row rows ih =>
    obtain ⟨hrow, hrest⟩ := List.forall_mem_cons.mp hrows
    refine safe_bind (safe_neighbour hid hshown hrow) fun _ shown hgrown _ => ?_
    refine safe_bind (ih (hgrown hshown) hrest) fun _ _ _ _ => ?_
    exact safe_pure fun _ _ => trivial

private theorem safe_pathNodes (nodes : List Value) :
    Safe known (pathNodes nodes) fun _ shown =>
      ∀ n ∈ nodes, ∀ v, n.item "id" = .ok v → v.IsName → v.truthy = true → v ∈ shown := by
  induction nodes generalizing known with
  | nil => exact safe_pure fun _ _ => by simp
  | cons n nodes ih =>
    refine safe_lift_bind fun properties _ => ?_
    refine safe_lift_bind fun labels _ => ?_
    refine safe_lift_bind fun id hid => ?_
    refine safe_bind safe_stored fun _ shown _ hdrawn => ?_
    refine ih.mono fun _ shown' hgrown hrest => List.forall_mem_cons.mpr ⟨?_, hrest⟩
    intro v hv hname htruthy
    cases hid.symm.trans hv
    exact hgrown ((hdrawn htruthy).2 hname)

private theorem safe_pathEdges {relations : List Value}
    (htypes : ∀ r ∈ relations, ∀ v ∈ (r.item "type").toOption, v.IsName)
    (hends : ∀ r ∈ relations, ∀ side ∈ ["s_id", "e_id"], ∀ v ∈ (r.item side).toOption,
      v.IsName ∧ v ∈ known) :
    Safe known (pathEdges relations) fun _ _ => True := by
  induction relations generalizing known with
  | nil => exact safe_pure fun _ _ => trivial
  | cons r relations ih =>
    obtain ⟨htype, htypes⟩ := List.forall_mem_cons.mp htypes
    obtain ⟨hend, hends⟩ := List.forall_mem_cons.mp hends
    refine safe_lift_bind fun source hsource => ?_
    refine safe_lift_bind fun target htarget => ?_
    refine safe_lift_bind fun type hlabel => ?_
    have hsourceEnd := hend "s_id" (by simp) source (toOption_eq_some_iff.mpr hsource)
    have htargetEnd := hend "e_id" (by simp) target (toOption_eq_some_iff.mpr htarget)
    have hname := htype type (toOption_eq_some_iff.mpr hlabel)
    refine safe_bind (safe_edge hsourceEnd.2 htargetEnd.2 ⟨hsourceEnd.1, hname, htargetEnd.1⟩) ?_
    intro _ shown hgrown _
    refine ih htypes fun r hr side hside v hv => ?_
    exact ⟨(hends r hr side hside v hv).1, hgrown (hends r hr side hside v hv).2⟩

/-- The edges of a path come after all its nodes. -/
theorem safe_path (htyped : ∀ row ∈ rows, row.Typed) (hfilled : ∀ row ∈ rows, row.EndsFilled) :
    Safe known (path rows) fun _ _ => True := by
  cases rows with
  | nil => exact safe_pure fun _ _ => trivial
  | cons row rows =>
    have hrow := htyped row List.mem_cons_self
    have hends := hfilled row List.mem_cons_self
    change Safe known (if (!(Fields.get row "core_nodes").truthy) = true then _ else _) _
    split
    · exact safe_pure fun _ _ => trivial
    · refine safe_lift_bind fun given hgiven => ?_
      refine safe_lift_bind fun drawn hdrawn => ?_
      refine safe_bind (safe_pathNodes drawn) fun _ shown _ hshown => ?_
      refine safe_lift_bind fun relations hrelations => ?_
      have hnodes : row.pathNodes = drawn := by rw [Row.pathNodes, hdrawn]; rfl
      have hin : row.pathRelations = relations := by
        rw [Row.pathRelations, Row.get_of_item hgiven, hrelations]
        rfl
      rw [← hin]
      refine safe_bind (safe_pathEdges hrow.types ?_) fun _ _ _ _ => safe_pure fun _ _ => trivial
      intro r hr side hside v hv
      obtain ⟨hname, n, hn, id, hid, heq⟩ := hrow.ends r hr side hside v hv
      obtain rfl := hname.beq_iff.mp heq
      rw [hnodes] at hn
      exact ⟨hname, hshown n hn id (toOption_eq_some_iff.mp hid) hname (hends r hr side hside id hv)⟩

end Drawing

end ThreatAtlas
