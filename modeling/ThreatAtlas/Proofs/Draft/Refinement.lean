import ThreatAtlas.Proofs.Draft.Merging
import ThreatAtlas.Proofs.Indicator.Ports

/-!
# What refining leaves of a draft

Entities are merged by name first and taken apart afterwards, and the relationships of the draft are not
touched by either. So a name may occur twice in the end, and a relationship may speak of a name that no
entity has any more. Both are told from the entities that the merge keeps.
-/

namespace ThreatAtlas.Draft

open Indicator (PortedAddress)

structure Ported (e : DraftEntity) (p : PortedAddress) : Prop where
  indicator : e.label = .indicator
  written : p.WrittenAs e.name

def parts (p : PortedAddress) : List DraftEntity :=
  { name := p.ip, label := .indicator, reasoning := "Extracted IP" } ::
    p.ports.map fun port =>
      { name := p.socket port, label := .indicator, reasoning := "Extracted Socket" }

inductive Breaks : DraftEntity → List DraftEntity → Prop
  | ported {e : DraftEntity} {p : PortedAddress} (h : Ported e p) : Breaks e (parts p)
  | whole {e : DraftEntity} (h : ∀ p, ¬ Ported e p) : Breaks e [e]

private theorem ported_or_whole (e : DraftEntity) : (∃ p, Ported e p) ∨ ∀ p, ¬ Ported e p :=
  or_iff_not_imp_left.mpr not_exists.mp

variable {p : PortedAddress} {e : DraftEntity} {found : List DraftEntity} {d : Draft}

private theorem splitPorts_of_ported (h : Ported e p) : splitPorts e = parts p := by
  have hsockets : ∀ port ∈ p.ports, p.ip ++ ":" ++ Text.strip port = p.socket port := by
    intro port hport
    rw [PortedAddress.strip_of_mem_ports hport, PortedAddress.socket]
  simp only [splitPorts, h.indicator, Indicator.splitPorts?_of_writtenAs h.written, parts]
  refine congrArg (List.cons _) (List.map_congr_left fun port hport => ?_)
  rw [← hsockets port hport]
  rfl

private theorem splitPorts_of_whole (h : ∀ p, ¬ Ported e p) : splitPorts e = [e] := by
  by_cases hlabel : e.label = .indicator
  · have hnone := Indicator.splitPorts?_of_not_writtenAs fun p hp => h p ⟨hlabel, hp⟩
    simp only [splitPorts, hlabel, hnone]
  · unfold splitPorts
    split
    · exact absurd (by assumption) hlabel
    · rfl

private theorem breaks_splitPorts (e : DraftEntity) : Breaks e (splitPorts e) := by
  rcases ported_or_whole e with ⟨p, hp⟩ | hwhole
  · rw [splitPorts_of_ported hp]
    exact .ported hp
  · rw [splitPorts_of_whole hwhole]
    exact .whole hwhole

private theorem map_name_parts (p : PortedAddress) : (parts p).map (·.name) = p.names := by
  simp [parts, PortedAddress.names]

private theorem label_of_mem_parts (h : e ∈ parts p) : e.label = .indicator := by
  rcases List.mem_cons.mp h with rfl | h
  · rfl
  · obtain ⟨port, -, rfl⟩ := List.mem_map.mp h
    rfl

private theorem entities_refine (d : Draft) (found : List DraftEntity) :
    (d.refine found).entities = (kept (d.entities ++ found)).flatMap splitPorts := by
  simp only [refine, foldl_keep]

/-- An entity that a relationship has to reach: an indicator or a malware. -/
def Tied (e : DraftEntity) : Prop :=
  e.label = .indicator ∨ e.label = .malware

private theorem tie?_eq_none_iff {incident : String} {targets : List String} :
    tie? incident targets e = none ↔ (Tied e → e.name ∈ targets) := by
  unfold tie? Tied
  by_cases h : e.name ∈ targets
  · simp [h]
  · cases hlabel : e.label <;> simp [h]

private theorem ends_of_tie? {incident : String} {targets : List String} {r : Relationship}
    (h : tie? incident targets e = some r) : r.source = incident ∧ r.target = e.name := by
  unfold tie? at h
  by_cases hmem : e.name ∈ targets
  · simp [hmem] at h
  · cases hlabel : e.label <;> simp [hmem, hlabel] at h <;> rw [← h] <;> exact ⟨rfl, rfl⟩

def ties (d : Draft) (entities : List DraftEntity) : List Relationship :=
  entities.filterMap (tie? (mainIncident entities) (d.relationships.map Relationship.target))

private theorem relationships_refine (d : Draft) (found : List DraftEntity) :
    (d.refine found).relationships = d.relationships ++ ties d (d.refine found).entities := rfl

private theorem exists_relationship_to (he : e ∈ (d.refine found).entities) (htied : Tied e) :
    ∃ r ∈ (d.refine found).relationships, r.target = e.name := by
  rw [relationships_refine]
  cases h : tie? (mainIncident (d.refine found).entities) (d.relationships.map Relationship.target) e with
  | none =>
    obtain ⟨r, hr, htarget⟩ := List.mem_map.mp (tie?_eq_none_iff.mp h htied)
    exact ⟨r, List.mem_append_left _ hr, htarget⟩
  | some r =>
    exact ⟨r, List.mem_append_right _ (List.mem_filterMap.mpr ⟨e, he, h⟩), (ends_of_tie? h).2⟩

/-- Entities are merged under their cleaned names, in the order in which the names first occur. Of one name
the entity stays that prevails, and what stays is taken apart if it lists ports. The relationships of the
draft stay in front, and each indicator and each malware is the target of a relationship. -/
theorem refine_merges (d : Draft) (found : List DraftEntity) :
    (∃ survivors : List DraftEntity,
      survivors.map (·.name) = ((d.entities ++ found).map key).eraseDups ∧
      (∀ k ∈ survivors, ∃ e, Prevails (d.entities ++ found) k.name e ∧ k = renamed k.name e) ∧
      ∃ pieces, List.Forall₂ Breaks survivors pieces ∧ (d.refine found).entities = pieces.flatten) ∧
    d.relationships <+: (d.refine found).relationships ∧
    ∀ e ∈ (d.refine found).entities, Tied e → ∃ r ∈ (d.refine found).relationships, r.target = e.name := by
  refine ⟨⟨kept (d.entities ++ found), map_name_kept _, fun k => prevails_of_mem_kept, ?_⟩, ?_, ?_⟩
  · refine ⟨(kept (d.entities ++ found)).map splitPorts, ?_, ?_⟩
    · rw [List.forall₂_map_right_iff, List.forall₂_same]
      exact fun k _ => breaks_splitPorts k
    · rw [entities_refine, List.flatMap_def]
  · rw [relationships_refine]
    exact List.prefix_append _ _
  · intro e he htied
    exact exists_relationship_to he htied

/-- Taking the entities apart makes no name that occurs already. -/
structure PartsApart (es : List DraftEntity) : Prop where
  ports : ∀ k ∈ es, ∀ p, Ported k p → p.ports.Nodup
  /-- Two entities do not list ports of one address. -/
  addresses : ∀ k ∈ es, ∀ l ∈ es, k.name ≠ l.name → ∀ p q, Ported k p → Ported l q → p.ip ≠ q.ip
  /-- An entity that stays whole is not named as the address or a socket of another. -/
  whole : ∀ k ∈ es, (∀ p, ¬ Ported k p) → ∀ l ∈ es, ∀ p, Ported l p → k.name ∉ p.names

def namesOf (e : DraftEntity) : List String :=
  (splitPorts e).map (·.name)

private theorem namesOf_of_ported (h : Ported e p) : namesOf e = p.names := by
  rw [namesOf, splitPorts_of_ported h, map_name_parts]

private theorem namesOf_of_whole (h : ∀ p, ¬ Ported e p) : namesOf e = [e.name] := by
  rw [namesOf, splitPorts_of_whole h, List.map_singleton]

theorem nodup_namesOf_iff (e : DraftEntity) : (namesOf e).Nodup ↔ ∀ p, Ported e p → p.ports.Nodup := by
  rcases ported_or_whole e with ⟨p, hp⟩ | hwhole
  · rw [namesOf_of_ported hp, p.nodup_names_iff]
    refine ⟨fun hports q hq => ?_, fun hports => hports p hp⟩
    rwa [(hq.written.unique hp.written).2]
  · rw [namesOf_of_whole hwhole]
    exact iff_of_true (List.nodup_singleton _) fun p hp => absurd hp (hwhole p)

private theorem map_name_refine (d : Draft) (found : List DraftEntity) :
    (d.refine found).entities.map (·.name) = (kept (d.entities ++ found)).flatMap namesOf := by
  rw [entities_refine, List.map_flatMap]
  rfl

private theorem eq_of_mem_kept {all : List DraftEntity} {k l : DraftEntity} (hk : k ∈ kept all)
    (hl : l ∈ kept all) (h : k.name = l.name) : k = l :=
  List.inj_on_of_nodup_map (nodup_names_kept all) hk hl h

private theorem disjoint_namesOf {es : List DraftEntity} (h : PartsApart es) {k l : DraftEntity} (hk : k ∈ es)
    (hl : l ∈ es) (hne : k.name ≠ l.name) : (namesOf k).Disjoint (namesOf l) := by
  rcases ported_or_whole k with ⟨p, hp⟩ | hk' <;> rcases ported_or_whole l with ⟨q, hq⟩ | hl'
  · rw [namesOf_of_ported hp, namesOf_of_ported hq, PortedAddress.disjoint_names_iff]
    exact h.addresses k hk l hl hne p q hp hq
  · rw [namesOf_of_ported hp, namesOf_of_whole hl', List.disjoint_singleton]
    exact h.whole l hl hl' k hk p hp
  · rw [namesOf_of_whole hk', namesOf_of_ported hq, List.singleton_disjoint]
    exact h.whole k hk hk' l hl q hq
  · rw [namesOf_of_whole hk', namesOf_of_whole hl', List.singleton_disjoint, List.mem_singleton]
    exact hne

/-- The names of a refined draft are distinct exactly if taking apart what the merge keeps makes no name
that occurs already. -/
theorem refine_names_distinct_iff (d : Draft) (found : List DraftEntity) :
    ((d.refine found).entities.map (·.name)).Nodup ↔ PartsApart (kept (d.entities ++ found)) := by
  rw [map_name_refine, List.nodup_flatMap]
  constructor
  · rintro ⟨heach, hpairs⟩
    have hsymm : Std.Symm (Function.onFun List.Disjoint namesOf) := ⟨fun _ _ h => List.Disjoint.symm h⟩
    have hdisjoint : ∀ k ∈ kept (d.entities ++ found), ∀ l ∈ kept (d.entities ++ found), k.name ≠ l.name →
        (namesOf k).Disjoint (namesOf l) := by
      intro k hk l hl hne
      exact hpairs.forall hk hl fun heq => hne (congrArg _ heq)
    refine ⟨fun k hk => (nodup_namesOf_iff k).mp (heach k hk), ?_, ?_⟩
    · intro k hk l hl hne p q hp hq
      rw [← PortedAddress.disjoint_names_iff, ← namesOf_of_ported hp, ← namesOf_of_ported hq]
      exact hdisjoint k hk l hl hne
    · intro k hk hwhole l hl p hp hmem
      have hne : k.name ≠ l.name := by
        intro heq
        rw [eq_of_mem_kept hk hl heq] at hwhole
        exact hwhole p hp
      have hapart := hdisjoint k hk l hl hne
      rw [namesOf_of_whole hwhole, namesOf_of_ported hp, List.singleton_disjoint] at hapart
      exact hapart hmem
  · intro h
    refine ⟨fun k hk => (nodup_namesOf_iff k).mpr (h.ports k hk), ?_⟩
    refine (nodup_names_kept _).of_map.pairwise_of_forall_ne fun k hk l hl hne => ?_
    exact disjoint_namesOf h hk hl fun hname => hne (eq_of_mem_kept hk hl hname)

/-- A socket that a model drafted and its address found by its form give the address twice. -/
theorem refine_repeats_address :
    let socket : DraftEntity := { name := "1.2.3.4:80", label := .indicator, reasoning := "C2" }
    let address : DraftEntity :=
      { name := "1.2.3.4", label := .indicator, reasoning := "Regex Extracted IP" }
    ((refine ⟨[socket], []⟩ [address]).entities.map (·.name) = ["1.2.3.4", "1.2.3.4:80", "1.2.3.4"]) ∧
      ¬ PartsApart (kept [socket, address]) := by
  refine ⟨by decide +kernel, fun h => ?_⟩
  have hdistinct := (refine_names_distinct_iff ⟨[_], []⟩ [_]).mpr h
  revert hdistinct
  decide +kernel

/-- An entity is left under the name: one that stays whole, or a part of one that does not. -/
inductive Left (all : List DraftEntity) (name : String) : Prop
  | whole {k : DraftEntity} (mem : k ∈ kept all) (whole : ∀ p, ¬ Ported k p) (named : k.name = name)
  | part {k : DraftEntity} {p : PortedAddress} (mem : k ∈ kept all) (ported : Ported k p)
      (named : name ∈ p.names)

private theorem mem_names_refine_iff {name : String} :
    name ∈ (d.refine found).entities.map (·.name) ↔ Left (d.entities ++ found) name := by
  rw [map_name_refine, List.mem_flatMap]
  constructor
  · rintro ⟨k, hk, hname⟩
    rcases ported_or_whole k with ⟨p, hp⟩ | hwhole
    · rw [namesOf_of_ported hp] at hname
      exact .part hk hp hname
    · rw [namesOf_of_whole hwhole, List.mem_singleton] at hname
      exact .whole hk hwhole hname.symm
  · intro h
    cases h with
    | whole hk hwhole hname =>
      refine ⟨_, hk, ?_⟩
      rw [namesOf_of_whole hwhole, List.mem_singleton]
      exact hname.symm
    | part hk hp hname =>
      refine ⟨_, hk, ?_⟩
      rwa [namesOf_of_ported hp]

/-- A name that cleaning leaves alone is lost only if it is an address with ports and none of its sockets. -/
theorem left_of_clean {all : List DraftEntity} (he : e ∈ all) (hclean : cleanName e.name = e.name)
    (hports : ∀ p : PortedAddress, p.WrittenAs e.name → e.name ∈ p.names) : Left all e.name := by
  have hmem : e.name ∈ (kept all).map (·.name) := by
    rw [map_name_kept, List.mem_eraseDups]
    exact List.mem_map.mpr ⟨e, he, hclean⟩
  obtain ⟨k, hk, hname⟩ := List.mem_map.mp hmem
  rcases ported_or_whole k with ⟨p, hp⟩ | hwhole
  · exact .part hk hp (hports p (hname ▸ hp.written))
  · exact .whole hk hwhole hname

private theorem exists_incident_refine_iff : (∃ e ∈ (d.refine found).entities, e.label = .incident) ↔
      ∃ k ∈ kept (d.entities ++ found), k.label = .incident := by
  rw [entities_refine]
  constructor
  · rintro ⟨e, he, hlabel⟩
    obtain ⟨k, hk, hek⟩ := List.mem_flatMap.mp he
    rcases ported_or_whole k with ⟨p, hp⟩ | hwhole
    · rw [splitPorts_of_ported hp] at hek
      have hindicator := label_of_mem_parts hek
      rw [hlabel] at hindicator
      cases hindicator
    · rw [splitPorts_of_whole hwhole, List.mem_singleton] at hek
      exact ⟨k, hk, hek ▸ hlabel⟩
  · rintro ⟨k, hk, hlabel⟩
    have hwhole : ∀ p, ¬ Ported k p := by
      intro p hp
      have hindicator := hp.indicator
      rw [hlabel] at hindicator
      cases hindicator
    refine ⟨k, List.mem_flatMap.mpr ⟨k, hk, ?_⟩, hlabel⟩
    rw [splitPorts_of_whole hwhole]
    exact List.mem_singleton_self k

private theorem mainIncident_mem_iff {entities : List DraftEntity} :
    mainIncident entities ∈ entities.map (·.name) ↔
      (∃ e ∈ entities, e.label = .incident) ∨ "Detected Incident" ∈ entities.map (·.name) := by
  unfold mainIncident
  cases h : entities.find? (·.label == .incident) with
  | none =>
    have hnone : ¬ ∃ e ∈ entities, e.label = .incident := by simpa using h
    rw [or_iff_right hnone]
  | some e =>
    have he := List.mem_of_find?_eq_some h
    have hlabel : e.label = .incident := by simpa using List.find?_some h
    exact iff_of_true (List.mem_map_of_mem he) (.inl ⟨e, he, hlabel⟩)

private theorem ties_attached_iff (d : Draft) (entities : List DraftEntity) :
    (∀ r ∈ ties d entities, r.source ∈ entities.map (·.name) ∧ r.target ∈ entities.map (·.name)) ↔
      mainIncident entities ∈ entities.map (·.name) ∨
        ∀ e ∈ entities, Tied e → e.name ∈ d.relationships.map Relationship.target := by
  constructor
  · intro h
    refine or_iff_not_imp_right.mpr fun hloose => ?_
    push Not at hloose
    obtain ⟨e, he, htied, htarget⟩ := hloose
    have hsome : tie? (mainIncident entities) (d.relationships.map Relationship.target) e ≠ none :=
      fun hnone => htarget (tie?_eq_none_iff.mp hnone htied)
    obtain ⟨r, hr⟩ := Option.ne_none_iff_exists'.mp hsome
    rw [← (ends_of_tie? hr).1]
    exact (h r (List.mem_filterMap.mpr ⟨e, he, hr⟩)).1
  · intro h r hr
    obtain ⟨e, he, hr⟩ := List.mem_filterMap.mp hr
    obtain ⟨hsource, htarget⟩ := ends_of_tie? hr
    rw [hsource, htarget]
    refine ⟨h.resolve_right fun hall => ?_, List.mem_map_of_mem he⟩
    rw [tie?_eq_none_iff.mpr (hall e he)] at hr
    cases hr

/-- Every end of a relationship is an entity of the refined draft exactly if an entity is left under each end
that the draft has, and loose entities, if there are any, find an incident. The name of an entity that
cleaning leaves alone is lost only if it is an address with ports and none of its sockets. -/
theorem refine_attached_iff (d : Draft) (found : List DraftEntity) :
    ((∀ r ∈ (d.refine found).relationships, r.source ∈ (d.refine found).entities.map (·.name) ∧
        r.target ∈ (d.refine found).entities.map (·.name)) ↔
      (∀ r ∈ d.relationships, Left (d.entities ++ found) r.source ∧ Left (d.entities ++ found) r.target) ∧
      ((∃ k ∈ kept (d.entities ++ found), k.label = .incident) ∨
        Left (d.entities ++ found) "Detected Incident" ∨
        ∀ e ∈ (d.refine found).entities, Tied e → e.name ∈ d.relationships.map Relationship.target)) ∧
    ∀ e ∈ d.entities, cleanName e.name = e.name →
      (∀ p : PortedAddress, p.WrittenAs e.name → e.name ∈ p.names) → Left (d.entities ++ found) e.name := by
  constructor
  · rw [relationships_refine, List.forall_mem_append, ties_attached_iff, mainIncident_mem_iff,
      exists_incident_refine_iff, or_assoc]
    simp only [mem_names_refine_iff]
  · intro e he hclean hports
    exact left_of_clean (List.mem_append_left _ he) hclean hports

/-- A relationship to an address in brackets stays behind when the brackets are taken away. -/
theorem refine_detaches_bracketed :
    let breach : DraftEntity := { name := "Breach", label := .incident, reasoning := "r" }
    let address : DraftEntity := { name := "1.1.1[.]1", label := .indicator, reasoning := "C2" }
    let d : Draft := ⟨[breach, address], [⟨"Breach", "1.1.1[.]1", "HAS_INDICATOR"⟩]⟩
    (∀ r ∈ d.relationships, r.source ∈ d.entities.map (·.name) ∧ r.target ∈ d.entities.map (·.name)) ∧
      (d.refine []).entities.map (·.name) = ["Breach", "1.1.1.1"] ∧
      (d.refine []).relationships.map (·.target) = ["1.1.1[.]1", "1.1.1.1"] ∧
      Left d.entities "Breach" ∧ ¬ Left d.entities "1.1.1[.]1" := by
  intro breach address d
  have hbreach : Left d.entities "Breach" := by
    refine (refine_attached_iff d []).2 breach List.mem_cons_self (by decide +kernel) fun p hp => ?_
    exact absurd (Indicator.matchesStart_addressWithPorts.mpr ⟨p, hp⟩) (by decide +kernel)
  refine ⟨by decide +kernel, by decide +kernel, by decide +kernel, hbreach, fun haddress => ?_⟩
  have hattached := (refine_attached_iff d []).1.mpr
    ⟨by simpa [d] using ⟨hbreach, haddress⟩, .inl (by decide +kernel)⟩
  revert hattached
  decide +kernel

end ThreatAtlas.Draft
