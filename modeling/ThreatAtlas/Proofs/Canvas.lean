import ThreatAtlas.Canvas
import ThreatAtlas.Proofs.Value

/-!
# Canvases that hold together

The four collections of a canvas belong together: every id taken has its node and every name taken its
edge, nothing is drawn twice, and an edge joins nodes that are drawn. A drawing may fail half-way, so what
it keeps is said of the canvas it leaves, whether it fails or not.
-/

namespace ThreatAtlas

namespace Canvas

/-- What is drawn on the canvas holds together: the ids of the nodes are distinct and are the ids taken,
no two edges are alike and there are as many as names taken, and edges join nodes that are there. Nothing
stands in the place of a part. -/
structure Sound (c : Canvas) : Prop where
  unset : c.setup = {}
  ids : c.nodes.map (·.id) = c.nodeIds
  distinct : c.nodes.Pairwise fun m n => (m.id == n.id) = false
  nodup : c.edgeNames.Nodup
  count : c.edges.length = c.edgeNames.length
  unlike : c.edges.Pairwise fun e f =>
    (e.source == f.source && e.label == f.label && e.target == f.target) = false
  ends : ∀ e ∈ c.edges, (∃ n ∈ c.nodes, n.id = e.source) ∧ ∃ n ∈ c.nodes, n.id = e.target

/-- What every drawing keeps. Edges have names for their parts, so those of different names are not
alike. -/
structure Kept (c : Canvas) : Prop where
  unset : c.setup = {}
  ids : c.nodes.map (·.id) = c.nodeIds
  distinct : c.nodeIds.Pairwise fun a b => (a == b) = false
  nodup : c.edgeNames.Nodup
  names : c.edges.map GraphEdge.name = c.edgeNames
  parts : ∀ e ∈ c.edges, e.source.IsName ∧ e.label.IsName ∧ e.target.IsName
  ends : ∀ e ∈ c.edges, e.source ∈ c.nodeIds ∧ e.target ∈ c.nodeIds

theorem kept_empty : Kept {} where
  unset := rfl
  ids := rfl
  distinct := .nil
  nodup := .nil
  names := rfl
  parts := by simp
  ends := by simp

variable {c : Canvas}

theorem Kept.mem_ids (h : c.Kept) {id : Value} (hid : id ∈ c.nodeIds) : ∃ n ∈ c.nodes, n.id = id := by
  rw [← h.ids] at hid
  exact List.mem_map.mp hid

theorem Kept.sound (h : c.Kept) : c.Sound where
  unset := h.unset
  ids := h.ids
  distinct := by
    have hdistinct := h.distinct
    rwa [← h.ids, List.pairwise_map] at hdistinct
  nodup := h.nodup
  count := by rw [← h.names, List.length_map]
  unlike := by
    have hnames := h.nodup
    rw [← h.names, List.Nodup, List.pairwise_map] at hnames
    refine hnames.imp_of_mem ?_
    intro e f _ hf hne
    by_contra halike
    rw [Bool.not_eq_false, Bool.and_eq_true, Bool.and_eq_true] at halike
    obtain ⟨⟨hsource, hlabel⟩, htarget⟩ := halike
    obtain ⟨hsourceName, hlabelName, htargetName⟩ := h.parts f hf
    apply hne
    rw [GraphEdge.name, GraphEdge.name, hsourceName.beq_iff.mp hsource,
      hlabelName.beq_iff.mp hlabel, htargetName.beq_iff.mp htarget]
  ends := fun e he => ⟨h.mem_ids (h.ends e he).1, h.mem_ids (h.ends e he).2⟩

def withNode (c : Canvas) (n : GraphNode) : Canvas :=
  { c with nodeIds := c.nodeIds ++ [n.id], nodes := c.nodes ++ [n] }

def withEdge (c : Canvas) (e : GraphEdge) : Canvas :=
  { c with edgeNames := c.edgeNames ++ [e.name], edges := c.edges ++ [e] }

theorem Kept.withNode (h : c.Kept) {n : GraphNode} (hnew : c.nodeIds.any (· == n.id) = false) :
    (c.withNode n).Kept where
  unset := h.unset
  ids := by simp [Canvas.withNode, h.ids]
  distinct := by
    refine List.pairwise_append.mpr ⟨h.distinct, List.pairwise_singleton _ _, ?_⟩
    intro a ha b hb
    rw [List.mem_singleton.mp hb]
    have hdiffers := List.any_eq_false.mp hnew a ha
    exact Bool.eq_false_iff.mpr hdiffers
  nodup := h.nodup
  names := h.names
  parts := h.parts
  ends := fun e he =>
    ⟨List.mem_append_left _ (h.ends e he).1, List.mem_append_left _ (h.ends e he).2⟩

theorem Kept.withEdge (h : c.Kept) {e : GraphEdge} (hnew : e.name ∉ c.edgeNames)
    (hparts : e.source.IsName ∧ e.label.IsName ∧ e.target.IsName)
    (hends : e.source ∈ c.nodeIds ∧ e.target ∈ c.nodeIds) : (c.withEdge e).Kept where
  unset := h.unset
  ids := h.ids
  distinct := h.distinct
  nodup := by
    refine List.nodup_append.mpr ⟨h.nodup, List.nodup_singleton _, ?_⟩
    intro a ha b hb heq
    rw [heq, List.mem_singleton.mp hb] at ha
    exact hnew ha
  names := by simp [Canvas.withEdge, h.names]
  parts := List.forall_mem_append.mpr ⟨h.parts, List.forall_mem_singleton.mpr hparts⟩
  ends := List.forall_mem_append.mpr ⟨h.ends, List.forall_mem_singleton.mpr hends⟩

def shown (c : Canvas) : Set Value :=
  {id | id ∈ c.nodeIds}

end Canvas

namespace Drawing

variable {α β : Type}

theorem run_bind (x : Drawing α) (f : α → Drawing β) (c : Canvas) :
    (x >>= f).run c =
      match x.run c with
      | (.ok a, c') => (f a).run c'
      | (.error e, c') => (.error e, c') := by
  change (ExceptT.bindCont f (x.run c).1).run (x.run c).2 = _
  rcases x.run c with ⟨r, c'⟩
  cases r <;> rfl

variable {c : Canvas}

theorem run_newId (hset : c.setup = {}) {id : Value} (hid : id.hashable = .ok id) :
    (newId id).run c = if c.nodeIds.any (· == id) then (.ok false, c)
      else (.ok true, { c with nodeIds := c.nodeIds ++ [id] }) := by
  obtain ⟨nodeIds, edgeNames, nodes, edges, setup⟩ := c
  cases hset
  unfold newId
  rw [hid]
  change (if nodeIds.any (· == id) = true then pure false else _ : Drawing Bool).run _ = _
  split <;> rfl

/-- A drawing of a node fails before it takes the id, finds the id taken, or draws the node. -/
theorem node_cases (hset : c.setup = {}) {kind : Value} (hkind : kind.IsName) (id label title color : Value) :
    (∃ e, (node id label kind title color).run c = (.error e, c)) ∨
    (c.nodeIds.any (· == id) = true ∧ (node id label kind title color).run c = (.ok false, c)) ∨
    (c.nodeIds.any (· == id) = false ∧ ∃ n : GraphNode, n.id = id ∧
      (node id label kind title color).run c = (.ok true, c.withNode n)) := by
  cases hid : id.hashable with
  | error e =>
    refine .inl ⟨e, ?_⟩
    obtain ⟨nodeIds, edgeNames, nodes, edges, setup⟩ := c
    cases hset
    unfold node newId
    rw [hid]
    rfl
  | ok same =>
    obtain rfl := Value.eq_of_hashable hid
    unfold node
    rw [run_bind, run_newId hset hid, hkind.hashable]
    obtain ⟨nodeIds, edgeNames, nodes, edges, setup⟩ := c
    cases hset
    cases htaken : nodeIds.any (· == id) with
    | true => exact .inr (.inl ⟨rfl, rfl⟩)
    | false =>
      let look := Look.ofKind kind
      let drawn : GraphNode :=
        { id, label, title := some title, shape := look.shape
          color := color.orElse (.text look.color), size := look.size, font := some look.font }
      exact .inr (.inr ⟨rfl, drawn, rfl, rfl⟩)

theorem run_newName (hset : c.setup = {}) (name : String) :
    (newName name).run c = if c.edgeNames.contains name then (.ok false, c)
      else (.ok true, { c with edgeNames := c.edgeNames ++ [name] }) := by
  obtain ⟨nodeIds, edgeNames, nodes, edges, setup⟩ := c
  cases hset
  unfold newName
  change (if edgeNames.contains name = true then pure false else _ : Drawing Bool).run _ = _
  split <;> rfl

theorem run_edge (hset : c.setup = {}) (e : GraphEdge) : (edge e.source e.target e.label).run c =
      if c.edgeNames.contains e.name then (.ok false, c) else (.ok true, c.withEdge e) := by
  unfold edge
  rw [run_bind, run_newName hset]
  obtain ⟨nodeIds, edgeNames, nodes, edges, setup⟩ := c
  cases hset
  dsimp only
  cases edgeNames.contains e.name <;> rfl

/-- From a canvas on which the `known` ids are drawn, the drawing leaves a canvas that holds together and
shows no less, even if it fails; a result is in the relation `Q` to what is shown then. -/
def Safe (known : Set Value) (d : Drawing α) (Q : α → Set Value → Prop) : Prop :=
  ∀ c : Canvas, c.Kept → known ⊆ c.shown →
    (d.run c).2.Kept ∧ c.shown ⊆ (d.run c).2.shown ∧ ∀ a, (d.run c).1 = .ok a → Q a (d.run c).2.shown

variable {known : Set Value} {Q : α → Set Value → Prop}

theorem safe_pure {a : α} (h : ∀ shown, known ⊆ shown → Q a shown) : Safe known (pure a) Q := by
  intro c hkept hknown
  refine ⟨hkept, subset_rfl, ?_⟩
  intro b hb
  cases hb
  exact h _ hknown

theorem safe_throw (e : Failure) : Safe known (throw e : Drawing α) Q := by
  intro c hkept _
  refine ⟨hkept, subset_rfl, ?_⟩
  intro a ha
  cases ha

theorem safe_lift {e : Except Failure α}
    (h : ∀ a, e = .ok a → ∀ shown, known ⊆ shown → Q a shown) : Safe known (liftM e) Q := by
  cases e with
  | ok a => exact safe_pure (h a rfl)
  | error why => exact safe_throw why

theorem safe_bind {R : β → Set Value → Prop} {x : Drawing α} {f : α → Drawing β}
    (hx : Safe known x Q) (hf : ∀ a shown, known ⊆ shown → Q a shown → Safe shown (f a) R) :
    Safe known (x >>= f) R := by
  intro c hkept hknown
  obtain ⟨hkept₁, hgrown, hresult⟩ := hx c hkept hknown
  rw [run_bind]
  rcases hrun : x.run c with ⟨r, c₁⟩
  rw [hrun] at hkept₁ hgrown hresult
  cases r with
  | ok a =>
    obtain ⟨hkept₂, hgrown₂, hresult₂⟩ :=
      hf a c₁.shown (hknown.trans hgrown) (hresult a rfl) c₁ hkept₁ subset_rfl
    exact ⟨hkept₂, hgrown.trans hgrown₂, hresult₂⟩
  | error e =>
    refine ⟨hkept₁, hgrown, ?_⟩
    intro b hb
    cases hb

theorem safe_lift_bind {R : β → Set Value → Prop} {e : Except Failure α} {f : α → Drawing β}
    (hf : ∀ a, e = .ok a → Safe known (f a) R) : Safe known (liftM e >>= f) R := by
  cases e with
  | ok a => exact hf a rfl
  | error why => exact safe_throw why

theorem Safe.mono {P : α → Set Value → Prop} {d : Drawing α} (h : Safe known d P)
    (hPQ : ∀ a shown, known ⊆ shown → P a shown → Q a shown) : Safe known d Q := by
  intro c hkept hknown
  obtain ⟨hkept₁, hgrown, hresult⟩ := h c hkept hknown
  exact ⟨hkept₁, hgrown, fun a ha => hPQ a _ (hknown.trans hgrown) (hresult a ha)⟩

theorem safe_node {id label kind title color : Value} (hkind : kind.IsName) :
    Safe known (node id label kind title color) fun _ shown => id.IsName → id ∈ shown := by
  intro c hkept _
  rcases node_cases hkept.unset hkind id label title color with
    ⟨e, hrun⟩ | ⟨htaken, hrun⟩ | ⟨hnew, n, rfl, hrun⟩
  · rw [hrun]
    refine ⟨hkept, subset_rfl, ?_⟩
    intro a ha
    cases ha
  · rw [hrun]
    refine ⟨hkept, subset_rfl, ?_⟩
    intro _ _ hname
    obtain ⟨taken, hmem, heq⟩ := List.any_eq_true.mp htaken
    rw [hname.beq_iff.mp heq] at hmem
    exact hmem
  · rw [hrun]
    refine ⟨hkept.withNode hnew, fun v hv => List.mem_append_left _ hv, ?_⟩
    intro _ _ _
    exact List.mem_append_right _ (List.mem_singleton.mpr rfl)

theorem safe_edge {source target label : Value} (hsource : source ∈ known) (htarget : target ∈ known)
    (hparts : source.IsName ∧ label.IsName ∧ target.IsName) :
    Safe known (edge source target label) fun _ _ => True := by
  intro c hkept hknown
  rw [run_edge hkept.unset ⟨source, target, label⟩]
  split
  case isTrue => exact ⟨hkept, subset_rfl, fun _ _ => trivial⟩
  case isFalse hnew =>
    rw [List.contains_iff_mem] at hnew
    exact ⟨hkept.withEdge hnew hparts ⟨hknown hsource, hknown htarget⟩, subset_rfl,
      fun _ _ => trivial⟩

end Drawing

end ThreatAtlas
