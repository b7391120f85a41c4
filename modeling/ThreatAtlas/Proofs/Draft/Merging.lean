import Mathlib
import ThreatAtlas.Draft.Refine
import ThreatAtlas.Pieces

/-!
# Merging entities by name

Entities are put one after the other under their cleaned names. Whatever their number and order, a name
keeps the place where it first occurs, and under it stays the last entity that a model drafted, or the
first one if all were found by their form.
-/

namespace ThreatAtlas.Draft

def key (e : DraftEntity) : String :=
  cleanName e.name

/-- Of the entities with one cleaned name, the one that stays. -/
inductive Prevails (all : List DraftEntity) (name : String) : DraftEntity → Prop
  | drafted {before after : List DraftEntity} {e : DraftEntity} (split : all = before ++ e :: after)
      (named : key e = name) (drafted : isFound e = false)
      (last : ∀ f ∈ after, key f = name → isFound f = true) : Prevails all name e
  | found {before after : List DraftEntity} {e : DraftEntity} (split : all = before ++ e :: after)
      (named : key e = name) (found : ∀ f ∈ all, key f = name → isFound f = true)
      (first : ∀ f ∈ before, key f ≠ name) : Prevails all name e

def prevailing (all : List DraftEntity) (name : String) : Option DraftEntity :=
  (all.filter fun e => key e == name && !isFound e).getLast?.or (all.find? fun e => key e == name)

def renamed (name : String) (e : DraftEntity) : DraftEntity :=
  { e with name }

def kept (all : List DraftEntity) : List DraftEntity :=
  (all.map key).eraseDups.filterMap fun name => (prevailing all name).map (renamed name)

private theorem eraseDups_append_singleton (names : List String) (name : String) :
    (names ++ [name]).eraseDups =
      if name ∈ names then names.eraseDups else names.eraseDups ++ [name] := by
  rw [List.eraseDups_append, List.removeAll]
  by_cases h : name ∈ names <;> simp [h, List.eraseDups_cons]

variable {name : String} {e : DraftEntity} {all : List DraftEntity}

theorem prevailing_append_of_ne (h : key e ≠ name) : prevailing (all ++ [e]) name = prevailing all name := by
  simp [prevailing, List.filter_append, h]

theorem prevailing_append_drafted (h : isFound e = false) : prevailing (all ++ [e]) (key e) = some e := by
  simp [prevailing, List.filter_append, h]

theorem prevailing_append_new (h : key e ∉ all.map key) : prevailing (all ++ [e]) (key e) = some e := by
  cases hfound : isFound e with
  | false => exact prevailing_append_drafted hfound
  | true =>
    have hother : ∀ f ∈ all, key f ≠ key e := fun f hf heq => h (heq ▸ List.mem_map_of_mem hf)
    have hnone : all.filter (fun f => key f == key e && !isFound f) = [] := by
      rw [List.filter_eq_nil_iff]
      intro f hf
      simp [hother f hf]
    have hfirst : all.find? (fun f => key f == key e) = none := by simpa using hother
    simp [prevailing, List.filter_append, hfound, hnone, hfirst]

private theorem prevailing_append_found (h : isFound e = true) (hknown : key e ∈ all.map key) :
    prevailing (all ++ [e]) (key e) = prevailing all (key e) := by
  obtain ⟨f, hf, hkey⟩ := List.mem_map.mp hknown
  have hfirst : (all.find? fun f => key f == key e).isSome = true :=
    List.find?_isSome.mpr ⟨f, hf, by simpa using hkey⟩
  simp [prevailing, List.filter_append, h, Option.or_of_isSome hfirst]

private theorem isSome_prevailing (h : name ∈ all.map key) : (prevailing all name).isSome = true := by
  obtain ⟨f, hf, hkey⟩ := List.mem_map.mp h
  have hfirst : (all.find? fun f => key f == name).isSome = true :=
    List.find?_isSome.mpr ⟨f, hf, by simpa using hkey⟩
  simp [prevailing, hfirst]

theorem map_name_kept (all : List DraftEntity) :
    (kept all).map (·.name) = (all.map key).eraseDups := by
  have hname : ∀ name ∈ (all.map key).eraseDups,
      ((prevailing all name).map (renamed name)).map (·.name) = some name := by
    intro name hmem
    obtain ⟨e, he⟩ := Option.isSome_iff_exists.mp (isSome_prevailing (List.mem_eraseDups.mp hmem))
    rw [he]
    rfl
  rw [kept, List.map_filterMap, List.filterMap_congr hname, List.filterMap_some]

private theorem any_kept (all : List DraftEntity) (name : String) :
    (kept all).any (·.name == name) = true ↔ name ∈ all.map key := by
  rw [← List.mem_eraseDups, ← map_name_kept, List.any_eq_true, List.mem_map]
  simp only [beq_iff_eq]

private theorem kept_append_of_mem (h : key e ∈ all.map key) :
    kept (all ++ [e]) = (all.map key).eraseDups.filterMap fun name =>
      (prevailing (all ++ [e]) name).map (renamed name) := by
  rw [kept, List.map_append, List.map_singleton, eraseDups_append_singleton, if_pos h]

private theorem kept_append_found (h : key e ∈ all.map key) (hfound : isFound e = true) :
    kept (all ++ [e]) = kept all := by
  rw [kept_append_of_mem h, kept]
  refine List.filterMap_congr fun name _ => ?_
  by_cases hname : key e = name
  · rw [← hname, prevailing_append_found hfound h]
  · rw [prevailing_append_of_ne hname]

theorem kept_append_drafted (h : key e ∈ all.map key) (hdrafted : isFound e = false) : kept (all ++ [e]) =
      (kept all).map fun k => if k.name == key e then renamed (key e) e else k := by
  rw [kept_append_of_mem h, kept, List.map_filterMap]
  refine List.filterMap_congr fun name hmem => ?_
  obtain ⟨k, hk⟩ := Option.isSome_iff_exists.mp (isSome_prevailing (List.mem_eraseDups.mp hmem))
  by_cases hname : key e = name
  · subst hname
    simp [prevailing_append_drafted hdrafted, hk, renamed]
  · simp [prevailing_append_of_ne hname, hk, renamed, Ne.symm hname]

theorem kept_append_new (h : key e ∉ all.map key) : kept (all ++ [e]) = kept all ++ [renamed (key e) e] := by
  rw [kept, List.map_append, List.map_singleton, eraseDups_append_singleton, if_neg h,
    List.filterMap_append, kept]
  congr 1
  · refine List.filterMap_congr fun name hmem => ?_
    have hname : key e ≠ name := fun heq => h (heq ▸ List.mem_eraseDups.mp hmem)
    rw [prevailing_append_of_ne hname]
  · simp [prevailing_append_new h]

private theorem keep_kept (all : List DraftEntity) (e : DraftEntity) :
    keep (kept all) e = kept (all ++ [e]) := by
  change (if (kept all).any (·.name == key e) = true then
    if isFound e = true then kept all
    else (kept all).map fun k => if k.name == key e then renamed (key e) e else k
    else kept all ++ [renamed (key e) e]) = _
  by_cases hknown : key e ∈ all.map key
  · rw [if_pos ((any_kept all _).mpr hknown)]
    by_cases hfound : isFound e = true
    · rw [if_pos hfound, kept_append_found hknown hfound]
    · rw [if_neg hfound, kept_append_drafted hknown (Bool.eq_false_iff.mpr hfound)]
  · rw [if_neg (mt (any_kept all _).mp hknown), kept_append_new hknown]

theorem foldl_keep (all : List DraftEntity) : all.foldl keep [] = kept all := by
  induction all using List.reverseRecOn with
  | nil => rfl
  | append_singleton all e ih => rw [List.foldl_append, ih, ← keep_kept, List.foldl_cons, List.foldl_nil]

private theorem prevails_of_prevailing (h : prevailing all name = some e) : Prevails all name e := by
  rw [prevailing, Option.or_eq_some_iff] at h
  rcases h with hlast | ⟨hnone, hfirst⟩
  · obtain ⟨others, hlast⟩ := List.getLast?_eq_some_iff.mp hlast
    obtain ⟨before, rest, rfl, -, hrest⟩ := List.filter_eq_append_iff.mp hlast
    obtain ⟨between, after, rfl, -, hdrafted, hafter⟩ := List.filter_eq_cons_iff.mp hrest
    rw [Bool.and_eq_true, beq_iff_eq, Bool.not_eq_true'] at hdrafted
    refine .drafted (List.append_assoc before between _).symm hdrafted.1 hdrafted.2 ?_
    intro f hf hname
    simpa [hname] using List.filter_eq_nil_iff.mp hafter f hf
  · rw [List.getLast?_eq_none_iff, List.filter_eq_nil_iff] at hnone
    obtain ⟨hname, before, after, hsplit, hbefore⟩ := List.find?_eq_some_iff_append.mp hfirst
    refine .found hsplit (by simpa using hname) ?_ fun f hf => by simpa using hbefore f hf
    intro f hf hkey
    simpa [hkey] using hnone f hf

/-- Each entity that stays prevails over those with its cleaned name. -/
theorem prevails_of_mem_kept {k : DraftEntity} (h : k ∈ kept all) :
    ∃ e, Prevails all k.name e ∧ k = renamed k.name e := by
  obtain ⟨name, -, hk⟩ := List.mem_filterMap.mp h
  obtain ⟨e, he, rfl⟩ := Option.map_eq_some_iff.mp hk
  exact ⟨e, prevails_of_prevailing he, rfl⟩

theorem nodup_names_kept (all : List DraftEntity) : ((kept all).map (·.name)).Nodup := by
  rw [map_name_kept]
  exact nodup_eraseDups _

end ThreatAtlas.Draft
