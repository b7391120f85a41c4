import Mathlib
import ThreatAtlas.Failure

/-!
# Work that may fail

What is known of each part when work in several parts succeeds.
-/

namespace ThreatAtlas

variable {α β : Type}
variable {b : β} {ys : List β} {xs : List α} {f : α → Except Failure β} {R : α → β → Prop}
  {y : Except Failure β} {x : Except Failure α}

theorem bind_eq_ok {ε : Type} {x : Except ε α} {f : α → Except ε β} :
    (x >>= f) = .ok b ↔ ∃ a, x = .ok a ∧ f a = .ok b := by
  cases x with
  | ok a =>
    constructor
    · intro h
      exact ⟨a, rfl, h⟩
    · intro hok
      obtain ⟨a', ha, h⟩ := hok
      cases ha
      exact h
  | error e =>
    constructor
    · intro h
      cases h
    · intro hok
      obtain ⟨a', ha, _⟩ := hok
      cases ha

theorem pure_eq_ok {a b : α} : (pure a : Except Failure α) = .ok b ↔ a = b := by
  constructor
  · intro h
    cases h
    rfl
  · rintro rfl
    rfl

theorem toOption_eq_some_iff {ε : Type} {x : Except ε α} {a : α} : x.toOption = some a ↔ x = .ok a := by
  cases x with
  | ok b => simp [Except.toOption]
  | error e => simp [Except.toOption]

theorem map_eq_some_read {f : α → α} {o : Option (α × β)} {value : α} {rest : β} :
    o.map (Prod.map f id) = some (value, rest) ↔ ∃ w, o = some (w, rest) ∧ value = f w := by
  cases o with
  | none => simp
  | some read =>
    obtain ⟨w, r⟩ := read
    simp only [Option.map_some, Prod.map_apply, id_eq, Option.some.injEq, Prod.mk.injEq]
    constructor
    · rintro ⟨rfl, rfl⟩
      exact ⟨w, ⟨rfl, rfl⟩, rfl⟩
    · rintro ⟨_, ⟨rfl, rfl⟩, rfl⟩
      exact ⟨rfl, rfl⟩

theorem mapM_eq_ok : xs.mapM f = .ok ys ↔ List.Forall₂ (fun x y => f x = .ok y) xs ys := by
  induction xs generalizing ys with
  | nil =>
    rw [List.mapM_nil, pure_eq_ok, List.forall₂_nil_left_iff]
    exact eq_comm
  | cons x xs ih =>
    rw [List.mapM_cons, bind_eq_ok]
    simp only [bind_eq_ok, pure_eq_ok, ih, List.forall₂_cons_left_iff]
    constructor
    · intro h
      obtain ⟨y, hy, ys, hys, rfl⟩ := h
      exact ⟨y, ys, hy, hys, rfl⟩
    · intro h
      obtain ⟨y, ys, hy, hys, rfl⟩ := h
      exact ⟨y, hy, ys, hys, rfl⟩

theorem exists_left_of_forall₂ (h : List.Forall₂ R xs ys) {y : β} (hy : y ∈ ys) : ∃ x ∈ xs, R x y := by
  induction h with
  | nil => cases hy
  | cons hxy _ ih =>
    rcases List.mem_cons.mp hy with rfl | hy
    · exact ⟨_, by simp, hxy⟩
    · obtain ⟨x, hx, hR⟩ := ih hy
      exact ⟨x, List.mem_cons_of_mem _ hx, hR⟩

theorem exists_right_of_forall₂ (h : List.Forall₂ R xs ys) {x : α} (hx : x ∈ xs) : ∃ y ∈ ys, R x y :=
  exists_left_of_forall₂ (List.Forall₂.flip (R := flip R) h) hx

theorem forall₂_comp {γ : Type} {S : β → γ → Prop} {T : α → γ → Prop} (hcomp : ∀ a b c, R a b → S b c → T a c)
    {zs : List γ} (h : List.Forall₂ R xs ys) (h' : List.Forall₂ S ys zs) : List.Forall₂ T xs zs := by
  induction h generalizing zs with
  | nil =>
    cases h'
    exact .nil
  | cons hR _ ih =>
    cases h' with
    | cons hS hrest => exact .cons (hcomp _ _ _ hR hS) (ih hrest)

theorem map_eq_of_mapM {γ : Type} {g : β → γ} {k : α → γ} (hkeeps : ∀ x y, f x = .ok y → g y = k x)
    (h : xs.mapM f = .ok ys) : ys.map g = xs.map k := by
  have hall := mapM_eq_ok.mp h
  clear h
  induction hall with
  | nil => rfl
  | cons hxy _ ih => rw [List.map_cons, List.map_cons, hkeeps _ _ hxy, ih]

theorem exists_mapM (h : ∀ x ∈ xs, ∃ y, f x = .ok y ∧ R x y) :
    ∃ ys, xs.mapM f = .ok ys ∧ List.Forall₂ R xs ys := by
  induction xs with
  | nil => exact ⟨[], rfl, .nil⟩
  | cons x xs ih =>
    rw [List.forall_mem_cons] at h
    obtain ⟨y, hy, hR⟩ := h.1
    obtain ⟨ys, hys, hall⟩ := ih h.2
    refine ⟨y :: ys, ?_, .cons hR hall⟩
    rw [List.mapM_cons, hy, hys]
    rfl

theorem mapM_eq_error {e : Failure} (honly : ∀ x ∈ xs, ∀ e', f x = .error e' → e' = e)
    (hsome : ∃ x ∈ xs, ∃ e', f x = .error e') : xs.mapM f = .error e := by
  induction xs with
  | nil =>
    obtain ⟨x, hx, -⟩ := hsome
    cases hx
  | cons x xs ih =>
    rw [List.forall_mem_cons] at honly
    rw [List.exists_mem_cons_iff] at hsome
    rw [List.mapM_cons]
    cases hx : f x with
    | error e' => rw [honly.1 e' hx]; rfl
    | ok y =>
      have hlater := hsome.resolve_left fun hfails => by
        obtain ⟨e', he'⟩ := hfails
        cases hx.symm.trans he'
      rw [ih honly.2 hlater]
      rfl

theorem rel_of_key_eq {γ : Type} {key : α → γ} {key' : β → γ} (hkey : ∀ x y, R x y → key' y = key x)
    (h : List.Forall₂ R xs ys) (hnodup : (xs.map key).Nodup) {x : α} {y : β} (hx : x ∈ xs) (hy : y ∈ ys)
    (hsame : key' y = key x) : R x y := by
  induction h with
  | nil => cases hx
  | @cons x₁ y₁ xs ys hR hrest ih =>
    rw [List.map_cons, List.nodup_cons] at hnodup
    rcases List.mem_cons.mp hx with rfl | hx
    · rcases List.mem_cons.mp hy with rfl | hy
      · exact hR
      · obtain ⟨x₂, hx₂, hR₂⟩ := exists_left_of_forall₂ hrest hy
        refine absurd ?_ hnodup.1
        rw [← hsame, hkey x₂ y hR₂]
        exact List.mem_map_of_mem hx₂
    · rcases List.mem_cons.mp hy with rfl | hy
      · refine absurd ?_ hnodup.1
        rw [← hkey x₁ y hR, hsame]
        exact List.mem_map_of_mem hx
      · exact ih hnodup.2 hx hy

/-- Work on the parts in another order succeeds as well, with the same results in that order. -/
theorem mapM_perm {ys : List α} {bs : List β} (h : xs.Perm ys) (hbs : xs.mapM f = .ok bs) :
    ∃ cs, ys.mapM f = .ok cs ∧ bs.Perm cs := by
  obtain ⟨cs, hcs, hperm⟩ := List.perm_comp_forall₂ h.symm (mapM_eq_ok.mp hbs)
  exact ⟨cs, mapM_eq_ok.mpr hcs, hperm.symm⟩

/-- Both succeed, with results in the relation, or both fail. -/
inductive Agree (R : α → β → Prop) : Except Failure α → Except Failure β → Prop
  | ok {a : α} {b : β} (h : R a b) : Agree R (.ok a) (.ok b)
  | error (e e' : Failure) : Agree R (.error e) (.error e')

theorem Agree.refl {R : α → α → Prop} (h : ∀ a, R a a) (x : Except Failure α) : Agree R x x := by
  cases x with
  | ok a => exact .ok (h a)
  | error e => exact .error e e

theorem Agree.mono {S : α → β → Prop} (h : Agree R x y) (hRS : ∀ a b, R a b → S a b) : Agree S x y := by
  cases h with
  | ok h => exact .ok (hRS _ _ h)
  | error e e' => exact .error e e'

theorem Agree.and_left {P : α → Prop} (h : Agree R x y) (hP : ∀ a, x = .ok a → P a) :
    Agree (fun a b => R a b ∧ P a) x y := by
  cases h with
  | ok h => exact .ok ⟨h, hP _ rfl⟩
  | error e e' => exact .error e e'

theorem Agree.bind {γ δ : Type} {S : γ → δ → Prop} {f : α → Except Failure γ} {g : β → Except Failure δ}
    (h : Agree R x y) (hfg : ∀ a b, R a b → Agree S (f a) (g b)) : Agree S (x >>= f) (y >>= g) := by
  cases h with
  | ok h => exact hfg _ _ h
  | error e e' => exact .error e e'

theorem agree_mapM {γ δ : Type} {P : α → β → Prop} {R : γ → δ → Prop} {f : α → Except Failure γ}
    {g : β → Except Failure δ} (h : List.Forall₂ P xs ys) (hfg : ∀ x y, P x y → Agree R (f x) (g y)) :
    Agree (List.Forall₂ R) (xs.mapM f) (ys.mapM g) := by
  induction h with
  | nil => exact .ok .nil
  | cons hxy _ ih =>
    rw [List.mapM_cons, List.mapM_cons]
    refine (hfg _ _ hxy).bind fun c d hcd => ih.bind fun cs ds hrest => ?_
    exact .ok (.cons hcd hrest)

/-- What holds at the start and is kept by every step that succeeds holds at the end of a fold that
succeeds. The steps are told which elements came before. -/
theorem foldlM_induction {f : β → α → Except Failure β} {P : List α → β → Prop} {c : β}
    (hfold : xs.foldlM f b = .ok c) (hstart : P [] b)
    (hstep : ∀ done x rest b c, xs = done ++ x :: rest → P done b → f b x = .ok c →
      P (done ++ [x]) c) : P xs c := by
  have hgeneral (done rest : List α) (b : β) (hxs : xs = done ++ rest) (hP : P done b)
      (hrest : rest.foldlM f b = .ok c) : P xs c := by
    induction rest generalizing done b with
    | nil =>
      rw [List.foldlM_nil, pure_eq_ok] at hrest
      rw [List.append_nil] at hxs
      rwa [hxs, ← hrest]
    | cons x rest ih =>
      rw [List.foldlM_cons, bind_eq_ok] at hrest
      obtain ⟨d, hd, hrest⟩ := hrest
      exact ih (done ++ [x]) d (by simpa using hxs) (hstep done x rest b d hxs hP hd) hrest
  exact hgeneral [] xs b rfl hstart hfold

/-- Leaving out elements that change nothing changes nothing. -/
theorem foldlM_filter {f : β → α → Except Failure β} {keep : α → Bool}
    (hskip : ∀ x, keep x = false → ∀ b c, f b x = .ok c → c = b) {c : β} (hfold : xs.foldlM f b = .ok c) :
    (xs.filter keep).foldlM f b = .ok c := by
  induction xs generalizing b with
  | nil => exact hfold
  | cons x xs ih =>
    rw [List.foldlM_cons, bind_eq_ok] at hfold
    obtain ⟨d, hd, hrest⟩ := hfold
    cases hkeep : keep x with
    | true =>
      rw [List.filter_cons_of_pos hkeep, List.foldlM_cons, bind_eq_ok]
      exact ⟨d, hd, ih hrest⟩
    | false =>
      rw [List.filter_cons_of_neg (by simp [hkeep]), ← hskip x hkeep b d hd]
      exact ih hrest

theorem flatMap_filter_eq_iff {keep : α → Bool} {f : α → List β} :
    (xs.filter keep).flatMap f = xs.flatMap f ↔ ∀ x ∈ xs, keep x = false → f x = [] := by
  constructor
  · intro hsame x hx hleft
    have hparts := (List.filter_append_perm keep xs).flatMap_right f
    rw [List.flatMap_append, hsame] at hparts
    have hnone : (xs.filter (!keep ·)).flatMap f = [] := by
      have := hparts.length_eq
      rw [List.length_append] at this
      exact List.eq_nil_of_length_eq_zero (by omega)
    exact List.flatMap_eq_nil_iff.mp hnone x (List.mem_filter.mpr ⟨hx, by simp [hleft]⟩)
  · intro hnone
    induction xs with
    | nil => rfl
    | cons x xs ih =>
      rw [List.forall_mem_cons] at hnone
      cases hkeep : keep x with
      | true => rw [List.filter_cons_of_pos hkeep, List.flatMap_cons, List.flatMap_cons, ih hnone.2]
      | false =>
        rw [List.filter_cons_of_neg (by simp [hkeep]), List.flatMap_cons, hnone.1 hkeep, ih hnone.2,
          List.nil_append]

theorem mem_of_filterAuxM {p : α → Except Failure Bool} {seen kept : List α}
    (h : xs.filterAuxM p seen = .ok kept) : ∀ x ∈ kept, x ∈ xs ∨ x ∈ seen := by
  induction xs generalizing seen with
  | nil =>
    cases h
    exact fun x hx => .inr hx
  | cons y xs ih =>
    obtain ⟨keep, _, hrest⟩ := bind_eq_ok.mp h
    intro x hx
    rcases ih hrest x hx with hin | hseen
    · exact .inl (List.mem_cons_of_mem _ hin)
    · cases keep with
      | true =>
        rcases List.mem_cons.mp hseen with rfl | hbefore
        · exact .inl List.mem_cons_self
        · exact .inr hbefore
      | false => exact .inr hseen

theorem mem_of_filterM {p : α → Except Failure Bool} {kept : List α} (h : xs.filterM p = .ok kept) :
    ∀ x ∈ kept, x ∈ xs := by
  obtain ⟨found, hfound, hkept⟩ := bind_eq_ok.mp h
  cases hkept
  intro x hx
  have hmem := mem_of_filterAuxM hfound x (List.mem_reverse.mp hx)
  simpa using hmem

end ThreatAtlas
