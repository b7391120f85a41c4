import ThreatAtlas.Correlation.Hints
import ThreatAtlas.Proofs.Job

/-!
# Hints without repetition, the related ones first

Whichever order the set of hints is given, as many of them are returned as the limit allows, each once, and
none that is not related comes before one that is.
-/

namespace ThreatAtlas.Correlation

open Job (Returns)

variable {found : List String} {limit : Nat}

private theorem relatedFirst_perm (hints : List String) : (relatedFirst hints).Perm hints :=
  List.filter_append_perm isRelated hints

private theorem pairwise_relatedFirst (hints : List String) :
    (relatedFirst hints).Pairwise fun a b => isRelated b = true → isRelated a = true := by
  refine List.pairwise_append.mpr ⟨?_, ?_, fun a ha b _ _ => (List.mem_filter.mp ha).2⟩
  · exact List.pairwise_of_forall_mem_list fun a ha _ _ _ => (List.mem_filter.mp ha).2
  · refine List.pairwise_of_forall_mem_list fun _ _ b hb hrelated => ?_
    simp [hrelated] at hb

namespace Enumeration

variable (e : Enumeration)

private theorem toFinset_order (found : List String) : (e.order found).toFinset = found.toFinset := by
  ext hint
  rw [List.mem_toFinset, List.mem_toFinset, e.mem_iff]

private theorem length_order (found : List String) : (e.order found).length = found.toFinset.card := by
  rw [← e.toFinset_order, List.toFinset_card_of_nodup (e.nodup found)]

/-- The related hints that were found are all among the first ones, if there is room for them. -/
theorem mem_take_of_isRelated (hroom : (found.toFinset.filter (isRelated ·)).card ≤ limit) {hint : String}
    (hfound : hint ∈ found) (hrelated : isRelated hint = true) :
    hint ∈ (relatedFirst (e.order found)).take limit := by
  have hcount : ((e.order found).filter isRelated).length ≤ limit := by
    rwa [← List.toFinset_card_of_nodup ((e.nodup found).filter _), List.toFinset_filter, e.toFinset_order]
  rw [relatedFirst, List.take_append, List.take_of_length_le hcount]
  exact List.mem_append_left _ (List.mem_filter.mpr ⟨(e.mem_iff found hint).mpr hfound, hrelated⟩)

end Enumeration

/-- Nothing, or a list of clues, each with a type and a value. -/
def Clued (artifacts : Value) : Prop :=
  artifacts.truthy = true → ∃ items, artifacts = .list items ∧
    ∀ a ∈ items, ∃ kind value, a.item "type" = .ok kind ∧ a.item "value" = .ok value

def GivesTexts : Answer → Prop
  | .rows rows => ∀ row ∈ rows, ∃ text, Row.item row "val" = .ok (.text text)
  | .failed _ => True
  | .lost _ _ => False

/-- A query that is sent for hints at a value of this kind. -/
def SeeksHints (kind : Value) (query : String) : Prop :=
  (∃ malware limit, query = relatedIndicators malware limit) ∨
    ∃ needed, valuesOfKind kind needed = some query

def GivesHints (σ : Type) [Outside σ] (kind : Value) : Prop :=
  ∀ query, SeeksHints kind query → ∀ s : σ, GivesTexts (Outside.query ⟨query, []⟩ s).1

private theorem exists_firstOfKind (kind : String) {items : List Value}
    (h : ∀ a ∈ items, ∃ type value, a.item "type" = .ok type ∧ a.item "value" = .ok value) :
    ∃ v, firstOfKind kind items = .ok v := by
  induction items with
  | nil => exact ⟨.null, rfl⟩
  | cons a items ih =>
    obtain ⟨⟨type, value, htype, hvalue⟩, hrest⟩ := List.forall_mem_cons.mp h
    rw [firstOfKind, htype]
    by_cases hkind : (type == .text kind) = true
    · exact ⟨value, (if_pos hkind).trans hvalue⟩
    · obtain ⟨v, hv⟩ := ih hrest
      exact ⟨v, (if_neg hkind).trans hv⟩

private theorem mapM_texts {α : Type} {f : Value → Except Failure α} {g : String → α}
    (hf : ∀ text, f (.text text) = .ok (g text)) (texts : List String) :
    (texts.map Value.text).mapM f = .ok (texts.map g) := by
  rw [mapM_eq_ok]
  simp [hf]

variable {σ : Type} [Outside σ] {kind artifacts : Value}

private theorem exists_returns_ask {query : String} (h : ∀ s : σ, GivesTexts (Outside.query ⟨query, []⟩ s).1)
    (w : World σ) : ∃ (rows : List Row) (texts : List String) (w' : World σ),
      Returns (Job.ask query) w rows w' ∧ Row.column "val" rows = .ok (texts.map .text) := by
  have hcolumn {rows : List Row} (hrows : ∀ row ∈ rows, ∃ text, Row.item row "val" = .ok (.text text)) :
      ∃ texts : List String, Row.column "val" rows = .ok (texts.map .text) := by
    choose! text htext using hrows
    exact ⟨rows.map text, mapM_eq_ok.mpr (by simpa using htext)⟩
  have hnone : Row.column "val" [] = .ok (([] : List String).map .text) := rfl
  have hask := Job.outcome_ask query [] w
  have hanswer := h w.outside
  by_cases hconnected : w.connected = true
  · rw [if_pos hconnected] at hask
    cases hquery : (Outside.query ⟨query, []⟩ w.outside).1 with
    | rows rows =>
      rw [hquery] at hask hanswer
      obtain ⟨texts, htexts⟩ := hcolumn hanswer
      exact ⟨rows, texts, _, hask, htexts⟩
    | failed why =>
      rw [hquery] at hask
      exact ⟨[], [], _, hask, hnone⟩
    | lost rows why =>
      rw [hquery] at hanswer
      exact hanswer.elim
  · rw [if_neg hconnected] at hask
    exact ⟨[], [], w, hask, hnone⟩

private theorem exists_returns_relatedHints (hartifacts : Clued artifacts) (hgraph : GivesHints σ kind)
    (limit : Value) (w : World σ) :
    ∃ (texts : List String) (w' : World σ),
      Returns (relatedHints kind artifacts limit) w (texts.map .text) w' := by
  unfold relatedHints
  by_cases hsome : artifacts.truthy = true
  · obtain ⟨items, rfl, hitems⟩ := hartifacts hsome
    obtain ⟨malware, hmalware⟩ := exists_firstOfKind "Malware" hitems
    obtain ⟨indicator, hindicator⟩ := exists_firstOfKind "Indicator" hitems
    simp only [if_pos hsome, Job.returns_lift_bind]
    by_cases hseek : (kind == .text "Indicator" && malware.truthy) = true
    · obtain ⟨rows, texts, w', hask, hcolumn⟩ := exists_returns_ask (hgraph _ (.inl ⟨malware, limit, rfl⟩)) w
      refine ⟨texts.map fun text => s!"[Rel] {(Value.text text).display}", w', items, rfl, malware, hmalware,
        indicator, hindicator, ?_⟩
      rw [if_pos hseek, Job.returns_bind_of_returns hask, Job.returns_lift_bind]
      refine ⟨_, hcolumn, ?_⟩
      rw [List.map_map, List.map_map]
      rfl
    · refine ⟨[], w, items, rfl, malware, hmalware, indicator, hindicator, ?_⟩
      rw [if_neg hseek]
      rfl
  · exact ⟨[], w, by rw [if_neg hsome]; rfl⟩

private theorem exists_returns_furtherHints (hgraph : GivesHints σ kind) (limit count : Nat) (w : World σ) :
    ∃ (texts : List String) (w' : World σ),
      Returns (furtherHints kind (.int limit) count) w (texts.map .text) w' := by
  have hneeded : (Value.int limit).subtract (.int count) = .ok (.int (limit - count)) := rfl
  unfold furtherHints
  simp only [Job.returns_lift_bind]
  by_cases hmore : decide ((count : Int) < limit) = true
  · cases hquery : valuesOfKind kind (.int (limit - count)) with
    | none =>
      refine ⟨[], w, _, rfl, ?_⟩
      rw [if_pos hmore, Job.returns_lift_bind]
      refine ⟨_, hneeded, ?_⟩
      rw [hquery]
      rfl
    | some query =>
      obtain ⟨rows, texts, w', hask, hcolumn⟩ := exists_returns_ask (hgraph _ (.inr ⟨_, hquery⟩)) w
      refine ⟨texts, w', _, rfl, ?_⟩
      rw [if_pos hmore, Job.returns_lift_bind]
      refine ⟨_, hneeded, ?_⟩
      rw [hquery]
      exact (Job.returns_bind_of_returns hask).mpr (Job.returns_lift.mpr ⟨hcolumn, rfl⟩)
  · exact ⟨[], w, _, rfl, by rw [if_neg hmore]; rfl⟩

private theorem exists_returns_findHints (hartifacts : Clued artifacts) (hgraph : GivesHints σ kind)
    (limit : Nat) (w : World σ) :
    ∃ found w', Returns (findHints kind artifacts (.int limit)) w found w' := by
  obtain ⟨related, w₁, hrelated⟩ := exists_returns_relatedHints hartifacts hgraph (.int limit) w
  obtain ⟨further, w', hfurther⟩ := exists_returns_furtherHints hgraph limit (related.map Value.text).length w₁
  refine ⟨related ++ further, w', ?_⟩
  unfold findHints
  rw [Job.returns_bind_of_returns hrelated, Job.returns_bind_of_returns hfurther, ← List.map_append,
    Job.returns_lift_bind]
  refine ⟨_, mapM_texts (f := Value.hashable) (fun _ => rfl) _, Job.returns_lift.mpr ⟨?_, rfl⟩⟩
  rw [mapM_texts (f := (Value.asText · "startswith")) (fun _ => rfl), List.map_id']

/-- For clues with a type and a value each and a graph whose values are texts, hints are returned whichever
order their set is given: as many of the different ones found as the limit allows, each once, no other before
a related one, and all that are related if there is room for them. -/
theorem hintsIn_relatedFirst (hartifacts : Clued artifacts) (hgraph : GivesHints σ kind) (limit : Nat)
    (e : Enumeration) (w : World σ) :
    ∃ found result w', Returns (findHints kind artifacts (.int limit)) w found w' ∧
      Returns (hintsIn e kind artifacts (.int limit)) w result w' ∧
      result.Nodup ∧ result.length = min limit found.toFinset.card ∧ result ⊆ found ∧
      (result.Pairwise fun a b => isRelated b = true → isRelated a = true) ∧
      ((found.toFinset.filter (isRelated ·)).card ≤ limit →
        ∀ hint ∈ found, isRelated hint = true → hint ∈ result) := by
  obtain ⟨found, w', hfound⟩ := exists_returns_findHints hartifacts hgraph limit w
  have hperm := relatedFirst_perm (e.order found)
  have hcut : Value.before (.int limit) (relatedFirst (e.order found)) =
      .ok ((relatedFirst (e.order found)).take limit) := by
    simp [Value.before, Value.asInt?, Value.cut]
  have hpart := List.take_sublist limit (relatedFirst (e.order found))
  refine ⟨found, _, w', hfound, ?_, ?_, ?_, ?_, ?_, fun hroom _ => e.mem_take_of_isRelated hroom⟩
  · unfold hintsIn
    rw [Job.returns_bind_of_returns hfound, hcut]
    rfl
  · exact (hperm.nodup_iff.mpr (e.nodup found)).sublist hpart
  · rw [List.length_take, hperm.length_eq, e.length_order]
  · intro hint hhint
    exact (e.mem_iff found hint).mp (hperm.subset (hpart.subset hhint))
  · exact (pairwise_relatedFirst _).sublist hpart

/-- Both queries give the same values, one of them twice: of six hints that were found four differ. -/
theorem hintsIn_relatedFirst_repeated :
    let answer : Answer := .rows [[("val", "u")], [("val", "v")], [("val", "u")]]
    let w : World (Fixed answer) := { outside := .services }
    let artifacts := Value.list [.record [("type", "Malware"), ("value", "Remcos")]]
    ∃ result w', Returns (hints "Indicator" artifacts (.int 5)) w result w' ∧ result.Nodup ∧
      result.length = 4 ∧ "[Rel] v" ∈ result := by
  intro answer w artifacts
  have hclues : Clued artifacts := fun _ => ⟨_, rfl, List.forall_mem_singleton.mpr ⟨_, _, rfl, rfl⟩⟩
  have hanswer : GivesTexts answer := by
    simp [GivesTexts, answer, Row.item, Value.item]
  obtain ⟨found, result, w', hfound, hresult, hnodup, hlength, -, -, hall⟩ :=
    @hintsIn_relatedFirst (Fixed answer) _ "Indicator" artifacts hclues (fun _ _ _ => hanswer) 5 .firstMet w
  obtain rfl : found = ["[Rel] u", "[Rel] v", "[Rel] u", "u", "v", "u"] := by
    have hrun : (Job.outcome (findHints "Indicator" artifacts (.int (5 : Nat))) w).1.toOption =
        some ["[Rel] u", "[Rel] v", "[Rel] u", "u", "v", "u"] := by decide +kernel
    rw [show Job.outcome _ w = _ from hfound] at hrun
    exact Option.some.inj hrun
  refine ⟨result, w', hresult, hnodup, hlength, hall (by decide) _ (by simp) (by decide)⟩

end ThreatAtlas.Correlation
