import ThreatAtlas.Job
import ThreatAtlas.Proofs.Failure

/-!
# What jobs come to

A job takes a world to an outcome, a result or a failure, and to the world it leaves. The rules here
take a job apart at its binds, so that what a larger job does is read off from its parts.
-/

namespace ThreatAtlas

namespace World

variable {σ : Type}

def printing (w : World σ) (s : String) : World σ :=
  { w with trace := { w.trace with printed := w.trace.printed ++ s } }

def querying [Outside σ] (w : World σ) (q : Query) : World σ :=
  { w with
    outside := (Outside.query q w.outside).2
    trace := { w.trace with queries := w.trace.queries ++ [q] } }

def consulting [Outside σ] (w : World σ) (c : ModelCall) : World σ :=
  { w with
    outside := (Outside.model c w.outside).2
    trace := { w.trace with consultations := w.trace.consultations ++ [.call c] } }

end World

/-- Services that answer every query alike and every call of a model alike. -/
structure Steady where
  answer : Answer
  reply : ModelReply

instance : Outside Steady where
  query _ s := (s.answer, s)
  model _ s := (s.reply, s)
  web _ s := (.failed "", s)
  draw s := (0, s)
  answer s := (none, s)

/-- Services that answer queries with these answers in turn, and then with no rows. -/
structure Scripted where
  answers : List Answer

instance : Outside Scripted where
  query _ s := (s.answers.headD (.rows []), ⟨s.answers.tail⟩)
  model _ s := (.failed "", s)
  web _ s := (.failed "", s)
  draw s := (0, s)
  answer s := (none, s)

inductive Fixed (answer : Answer)
  | services

instance (answer : Answer) : Outside (Fixed answer) where
  query _ s := (answer, s)
  model _ s := (.failed "", s)
  web _ s := (.failed "", s)
  draw s := (0, s)
  answer s := (none, s)

namespace Job

variable {σ α β : Type}

/-- The result or failure of a job, and the world it leaves. -/
def outcome (job : Job σ α) (w : World σ) : Except Failure α × World σ :=
  job.run w

/-- In the world `w` the job comes to the result `a` and leaves the world `w'`. -/
def Returns (job : Job σ α) (w : World σ) (a : α) (w' : World σ) : Prop :=
  job.outcome w = (.ok a, w')

/-- In the world `w` the job fails with `e` and leaves the world `w'`. -/
def Fails (job : Job σ α) (w : World σ) (e : Failure) (w' : World σ) : Prop :=
  job.outcome w = (.error e, w')

theorem outcome_pure (a : α) (w : World σ) : outcome (pure a) w = (.ok a, w) := rfl

theorem outcome_lift (e : Except Failure α) (w : World σ) :
    outcome (liftM e : Job σ α) w = (e, w) := rfl

theorem outcome_get (w : World σ) : outcome get w = (.ok w, w) := rfl

theorem outcome_bind (x : Job σ α) (f : α → Job σ β) (w : World σ) :
    outcome (x >>= f) w =
      match outcome x w with
      | (.ok a, w') => outcome (f a) w'
      | (.error e, w') => (.error e, w') := by
  change (ExceptT.bindCont f (x.run w).1).run (x.run w).2 = _
  unfold outcome
  rcases x.run w with ⟨r, w'⟩
  cases r <;> rfl

theorem outcome_recover (job : Job σ α) (onError : Failure → Job σ α) (w : World σ) :
    outcome (recover job onError) w =
      match outcome job w with
      | (.ok a, w') => (.ok a, w')
      | (.error e, w') => if e.isError then outcome (onError e) w' else (.error e, w') := by
  unfold outcome recover
  simp only [tryCatch, tryCatchThe, MonadExceptOf.tryCatch, ExceptT.tryCatch, ExceptT.run, ExceptT.mk,
    bind, StateT.bind]
  rcases job w with ⟨r, w'⟩
  cases r with
  | ok a => rfl
  | error e =>
    dsimp only
    split <;> rfl

theorem outcome_tryCatch (job : Job σ α) (onError : Failure → Job σ α) (w : World σ) :
    outcome (tryCatch job onError) w =
      match outcome job w with
      | (.ok a, w') => (.ok a, w')
      | (.error e, w') => outcome (onError e) w' := by
  unfold outcome
  simp only [tryCatch, tryCatchThe, MonadExceptOf.tryCatch, ExceptT.tryCatch, ExceptT.run, ExceptT.mk,
    bind, StateT.bind]
  rcases job w with ⟨r, w'⟩
  cases r <;> rfl

theorem outcome_say (s : String) (w : World σ) :
    outcome (say s) w = (.ok (), w.printing (s ++ "\n")) := rfl

variable {w w' w₁ : World σ} {a : α} {e : Failure} {b : β} {f : α → Job σ β} {x job : Job σ α}
  {onError : Failure → Job σ α} {y : Job σ β} {P : α → Prop} {Q : β → Prop}

theorem returns_pure {b : α} : Returns (pure a) w b w' ↔ a = b ∧ w = w' := by
  simp only [Returns, outcome_pure, Prod.mk.injEq, Except.ok.injEq]

theorem returns_throw : ¬ Returns (throw e : Job σ α) w a w' := by
  intro h
  cases (Prod.mk.inj h).1

theorem returns_lift {e : Except Failure α} : Returns (liftM e : Job σ α) w a w' ↔ e = .ok a ∧ w = w' := by
  simp only [Returns, outcome_lift, Prod.mk.injEq]

theorem returns_bind {w'' : World σ} :
    Returns (x >>= f) w b w'' ↔ ∃ a w', Returns x w a w' ∧ Returns (f a) w' b w'' := by
  unfold Returns
  rw [outcome_bind]
  rcases outcome x w with ⟨r, w₁⟩
  cases r with
  | ok a =>
    constructor
    · intro h
      exact ⟨a, w₁, rfl, h⟩
    · intro hrun
      obtain ⟨a', w', h, h'⟩ := hrun
      cases h
      exact h'
  | error e =>
    constructor
    · intro h
      cases (Prod.mk.inj h).1
    · intro hrun
      obtain ⟨a', w', h, _⟩ := hrun
      cases (Prod.mk.inj h).1

theorem returns_say {s : String} {u : Unit} : Returns (say s) w u w' ↔ w.printing (s ++ "\n") = w' := by
  simp only [Returns, outcome_say, Prod.mk.injEq, true_and]

theorem returns_recover : Returns (recover job onError) w a w' ↔ Returns job w a w' ∨
      ∃ e w₁, Fails job w e w₁ ∧ e.isError = true ∧ Returns (onError e) w₁ a w' := by
  unfold Returns Fails
  rw [outcome_recover]
  rcases outcome job w with ⟨r, w₁⟩
  cases r with
  | ok b =>
    constructor
    · exact Or.inl
    · intro hcase
      rcases hcase with h | ⟨e, w₂, h, _⟩
      · exact h
      · cases (Prod.mk.inj h).1
  | error e =>
    dsimp only
    constructor
    · intro h
      split at h
      case isTrue he => exact .inr ⟨e, w₁, rfl, he, h⟩
      case isFalse => cases (Prod.mk.inj h).1
    · intro hcase
      rcases hcase with h | ⟨e', w₂, h, he, h'⟩
      · cases (Prod.mk.inj h).1
      · cases h
        rw [if_pos he]
        exact h'

theorem exists_returns_iff : (∃ a w', Returns job w a w') ↔ (outcome job w).1.isOk = true := by
  unfold Returns
  rcases outcome job w with ⟨r, w'⟩
  cases r with
  | ok a => exact ⟨fun _ => rfl, fun _ => ⟨a, w', rfl⟩⟩
  | error e =>
    constructor
    · intro hrun
      obtain ⟨a, w₁, h⟩ := hrun
      cases (Prod.mk.inj h).1
    · intro h
      cases h

theorem exists_fails_iff : (∃ e w', Fails job w e w') ↔ ¬ ∃ a w', Returns job w a w' := by
  rw [exists_returns_iff]
  unfold Fails
  rcases outcome job w with ⟨r, w'⟩
  cases r with
  | ok a =>
    refine ⟨fun hrun => ?_, fun h => (h rfl).elim⟩
    obtain ⟨e, w₁, h⟩ := hrun
    cases (Prod.mk.inj h).1
  | error e => exact ⟨fun _ => Bool.false_ne_true, fun _ => ⟨e, w', rfl⟩⟩

theorem exists_returns_of_map {f : α → β} (h : (outcome job w).1.toOption.map f = some b) :
    ∃ a w', Returns job w a w' ∧ f a = b := by
  unfold Returns
  generalize outcome job w = result at h ⊢
  obtain ⟨r, w'⟩ := result
  cases r with
  | ok a => exact ⟨a, w', rfl, Option.some.inj h⟩
  | error e => cases h

theorem fails_bind {w'' : World σ} : Fails (x >>= f) w e w'' ↔
      Fails x w e w'' ∨ ∃ a w', Returns x w a w' ∧ Fails (f a) w' e w'' := by
  unfold Fails Returns
  rw [outcome_bind]
  rcases outcome x w with ⟨r, w₁⟩
  cases r with
  | ok a =>
    constructor
    · intro h
      exact .inr ⟨a, w₁, rfl, h⟩
    · intro hcase
      rcases hcase with h | ⟨a', w', h, h'⟩
      · cases (Prod.mk.inj h).1
      · cases h
        exact h'
  | error e' =>
    constructor
    · intro h
      cases h
      exact .inl rfl
    · intro hcase
      rcases hcase with h | ⟨a', w', h, _⟩
      · cases h
        rfl
      · cases (Prod.mk.inj h).1

theorem outcome_bind_of_returns (h : Returns x w a w₁) : outcome (x >>= f) w = outcome (f a) w₁ := by
  rw [outcome_bind, show outcome x w = _ from h]

theorem returns_bind_of_returns (h : Returns x w a w₁) :
    Returns (x >>= f) w b w' ↔ Returns (f a) w₁ b w' := by
  unfold Returns
  rw [outcome_bind_of_returns h]

theorem returns_lift_bind {e : Except Failure α} :
    Returns (liftM e >>= f) w b w' ↔ ∃ a, e = .ok a ∧ Returns (f a) w b w' := by
  simp only [returns_bind, returns_lift, and_assoc, exists_and_left, exists_eq_left']

theorem returns_say_bind {s : String} {f : Unit → Job σ α} :
    Returns (say s >>= f) w a w' ↔ Returns (f ()) (w.printing (s ++ "\n")) a w' :=
  returns_bind_of_returns rfl

theorem not_returns_bind_of_fails (h : Fails x w e w₁) : ¬ Returns (x >>= f) w b w' := by
  unfold Returns
  rw [outcome_bind, show outcome x w = _ from h]
  intro heq
  cases (Prod.mk.inj heq).1

/-- Whatever it comes to, the job leaves the files and the connection as they were. -/
def Keeps (job : Job σ α) : Prop :=
  ∀ w, (outcome job w).2.files = w.files ∧ (outcome job w).2.connected = w.connected

theorem Keeps.files (h : Keeps job) (hrun : Returns job w a w') : w'.files = w.files := by
  rw [← (h w).1, hrun]

theorem Keeps.files_of_fails (h : Keeps job) (hrun : Fails job w e w') : w'.files = w.files := by
  rw [← (h w).1, hrun]

theorem keeps_pure (a : α) : Keeps (pure a : Job σ α) :=
  fun _ => ⟨rfl, rfl⟩

theorem keeps_throw (e : Failure) : Keeps (throw e : Job σ α) :=
  fun _ => ⟨rfl, rfl⟩

theorem keeps_lift (e : Except Failure α) : Keeps (liftM e : Job σ α) :=
  fun _ => ⟨rfl, rfl⟩

theorem keeps_say (s : String) : Keeps (say s : Job σ Unit) :=
  fun _ => ⟨rfl, rfl⟩

theorem keeps_bind (hx : Keeps x) (hf : ∀ a, Keeps (f a)) : Keeps (x >>= f) := by
  intro w
  rw [outcome_bind]
  have hkept := hx w
  rcases hrun : outcome x w with ⟨r, w₁⟩
  rw [hrun] at hkept
  cases r with
  | ok a => exact ⟨(hf a w₁).1.trans hkept.1, (hf a w₁).2.trans hkept.2⟩
  | error e => exact hkept

theorem keeps_ite {c : Prop} [Decidable c] {y : Job σ α} (hx : Keeps x) (hy : Keeps y) :
    Keeps (if c then x else y) := by
  split
  · exact hx
  · exact hy

theorem keeps_recover (hjob : Keeps job) (herror : ∀ e, Keeps (onError e)) : Keeps (recover job onError) := by
  intro w
  rw [outcome_recover]
  have hkept := hjob w
  rcases hrun : outcome job w with ⟨r, w₁⟩
  rw [hrun] at hkept
  cases r with
  | ok a => exact hkept
  | error e =>
    dsimp only
    split
    · exact ⟨(herror e w₁).1.trans hkept.1, (herror e w₁).2.trans hkept.2⟩
    · exact hkept

theorem keeps_foldlM {f : β → α → Job σ β} (hf : ∀ b a, Keeps (f b a)) (xs : List α) (b : β) :
    Keeps (xs.foldlM f b) := by
  induction xs generalizing b with
  | nil => exact keeps_pure b
  | cons x xs ih =>
    rw [List.foldlM_cons]
    exact keeps_bind (hf b x) ih

/-- Whatever it comes to, the job does nothing but print. -/
def Prints (job : Job σ α) : Prop :=
  ∀ w, ∃ s, (outcome job w).2 = w.printing s

theorem prints_lift (e : Except Failure α) : Prints (liftM e : Job σ α) := by
  intro w
  refine ⟨"", ?_⟩
  simp [outcome_lift, World.printing]

theorem prints_say (s : String) : Prints (say s : Job σ Unit) :=
  fun _ => ⟨s ++ "\n", rfl⟩

theorem prints_bind (hx : Prints x) (hf : ∀ a, Prints (f a)) : Prints (x >>= f) := by
  intro w
  obtain ⟨s, hs⟩ := hx w
  rw [outcome_bind]
  rcases hrun : outcome x w with ⟨r, w₁⟩
  rw [hrun] at hs
  dsimp only at hs
  subst hs
  cases r with
  | ok a =>
    obtain ⟨t, ht⟩ := hf a (w.printing s)
    refine ⟨s ++ t, ?_⟩
    dsimp only
    rw [ht]
    simp [World.printing, String.append_assoc]
  | error e => exact ⟨s, rfl⟩

theorem Prints.keeps (h : Prints job) : Keeps job := by
  intro w
  obtain ⟨s, hs⟩ := h w
  rw [hs]
  exact ⟨rfl, rfl⟩

/-- From worlds in the relation `I` the two jobs go to such worlds again, and both fail or return results
in the relation `R`. -/
def Relates (I : World σ → World σ → Prop) (R : α → β → Prop) (x : Job σ α) (y : Job σ β) : Prop :=
  ∀ w w', I w w' →
    Agree R (outcome x w).1 (outcome y w').1 ∧ I (outcome x w).2 (outcome y w').2

theorem relates_refl (x : Job σ α) : Relates Eq Eq x x := by
  rintro w _ rfl
  exact ⟨.refl (fun _ => rfl) _, rfl⟩

variable {I : World σ → World σ → Prop} {R : α → β → Prop}

theorem relates_pure (h : R a b) : Relates I R (pure a) (pure b) :=
  fun _ _ hw => ⟨.ok h, hw⟩

theorem relates_throw (e e' : Failure) : Relates I R (throw e) (throw e') :=
  fun _ _ hw => ⟨.error e e', hw⟩

theorem relates_lift {x : Except Failure α} {y : Except Failure β} (h : Agree R x y) :
    Relates I R (liftM x) (liftM y) :=
  fun _ _ hw => ⟨h, hw⟩

theorem relates_lift_self (x : Except Failure α) : Relates I Eq (liftM x) (liftM x) :=
  relates_lift (.refl (fun _ => rfl) x)

theorem Relates.outcomes (h : Relates I R x y) {v : World σ} (hI : I w v) : ∃ w' v', I w' v' ∧
    ((∃ a b, outcome x w = (.ok a, w') ∧ outcome y v = (.ok b, v') ∧ R a b) ∨
      ∃ e e', outcome x w = (.error e, w') ∧ outcome y v = (.error e', v')) := by
  have hboth := h w v hI
  generalize outcome x w = left at hboth ⊢
  generalize outcome y v = right at hboth ⊢
  obtain ⟨r, w'⟩ := left
  obtain ⟨r', v'⟩ := right
  obtain ⟨hagree, hafter⟩ : Agree R r r' ∧ I w' v' := hboth
  refine ⟨w', v', hafter, ?_⟩
  cases hagree with
  | ok hab => exact .inl ⟨_, _, rfl, rfl, hab⟩
  | error e e' => exact .inr ⟨e, e', rfl, rfl⟩

theorem relates_bind {γ δ : Type} {S : γ → δ → Prop} {f : α → Job σ γ} {g : β → Job σ δ}
    (hxy : Relates I R x y) (hfg : ∀ a b, R a b → Relates I S (f a) (g b)) :
    Relates I S (x >>= f) (y >>= g) := by
  intro w v hw
  rw [outcome_bind, outcome_bind]
  obtain ⟨w', v', hafter, ⟨a, b, hx, hy, hab⟩ | ⟨e, e', hx, hy⟩⟩ := hxy.outcomes hw
  · rw [hx, hy]
    exact hfg a b hab w' v' hafter
  · rw [hx, hy]
    exact ⟨.error e e', hafter⟩

theorem relates_foldlM {γ δ : Type} {S : γ → δ → Prop} {f : γ → α → Job σ γ} {g : δ → β → Job σ δ}
    (hfg : ∀ c d a b, S c d → R a b → Relates I S (f c a) (g d b)) {xs : List α} {ys : List β}
    (h : List.Forall₂ R xs ys) {c : γ} {d : δ} (hcd : S c d) :
    Relates I S (xs.foldlM f c) (ys.foldlM g d) := by
  induction h generalizing c d with
  | nil => exact relates_pure hcd
  | cons hab _ ih =>
    rw [List.foldlM_cons, List.foldlM_cons]
    exact relates_bind (hfg c d _ _ hcd hab) fun _ _ hnext => ih hnext

theorem Relates.exists_returns (h : Relates I R x y) {v : World σ} (hI : I w v) (hx : Returns x w a w') :
    ∃ b v', Returns y v b v' ∧ R a b ∧ I w' v' := by
  obtain ⟨_, v', hafter, ⟨_, b, hrun, hy, hab⟩ | ⟨_, _, hrun, -⟩⟩ := h.outcomes hI
  · cases hrun.symm.trans hx
    exact ⟨b, v', hy, hab, hafter⟩
  · cases hrun.symm.trans hx

/-- From a world with the property `I` the job goes to such a world again, and what it returns has the
property `P`. -/
def Ensures (I : World σ → Prop) (P : α → Prop) (x : Job σ α) : Prop :=
  ∀ w, I w → ∀ a w', Returns x w a w' → P a ∧ I w'

theorem ensures_pure {I : World σ → Prop} (h : P a) : Ensures I P (pure a) := by
  intro w hw b w' hrun
  obtain ⟨rfl, rfl⟩ := returns_pure.mp hrun
  exact ⟨h, hw⟩

theorem ensures_lift {I : World σ → Prop} {e : Except Failure α} (h : ∀ a, e = .ok a → P a) :
    Ensures I P (liftM e) := by
  intro w hw a w' hrun
  obtain ⟨he, rfl⟩ := returns_lift.mp hrun
  exact ⟨h a he, hw⟩

theorem ensures_bind {I : World σ → Prop} (hx : Ensures I P x) (hf : ∀ a, P a → Ensures I Q (f a)) :
    Ensures I Q (x >>= f) := by
  intro w hw b w'' hrun
  obtain ⟨a, w', hrun, hrest⟩ := returns_bind.mp hrun
  obtain ⟨ha, hw'⟩ := hx w hw a w' hrun
  exact hf a ha w' hw' b w'' hrest

theorem ensures_foldlM {I : World σ → Prop} {P : β → Prop} {f : β → α → Job σ β} {xs : List α}
    (hf : ∀ b, P b → ∀ x ∈ xs, Ensures I P (f b x)) (hb : P b) : Ensures I P (xs.foldlM f b) := by
  induction xs generalizing b with
  | nil => exact ensures_pure hb
  | cons x xs ih =>
    rw [List.foldlM_cons]
    refine ensures_bind (hf b hb x List.mem_cons_self) fun c hc => ?_
    exact ih (fun b hb y hy => hf b hb y (List.mem_cons_of_mem x hy)) hc

theorem Relates.ensuring {J : World σ → Prop} (h : Relates I R x y) (hx : Ensures J P x) (hy : Ensures J Q y)
    (hIJ : ∀ w w', I w w' → J w ∧ J w') : Relates I (fun a b => R a b ∧ P a ∧ Q b) x y := by
  intro w v hw
  obtain ⟨hleft, hright⟩ := hIJ w v hw
  obtain ⟨w', v', hafter, ⟨a, b, hrun, hrun', hab⟩ | ⟨e, e', hrun, hrun'⟩⟩ := h.outcomes hw
  · rw [hrun, hrun']
    exact ⟨.ok ⟨hab, (hx w hleft a w' hrun).1, (hy v hright b v' hrun').1⟩, hafter⟩
  · rw [hrun, hrun']
    exact ⟨.error e e', hafter⟩

/-- From worlds in the relation `I`, and unless one of the two jobs is interrupted, both fail or return
results in the relation `R`. -/
def Ends (I : World σ → World σ → Prop) (R : α → β → Prop) (x : Job σ α) (y : Job σ β) : Prop :=
  ∀ w w', I w w' → (outcome x w).1 = .error .interrupted ∨ (outcome y w').1 = .error .interrupted ∨
    Agree R (outcome x w).1 (outcome y w').1

theorem Relates.ends (h : Relates I R x y) : Ends I R x y :=
  fun w w' hw => .inr (.inr (h w w' hw).1)

theorem ends_bind {γ δ : Type} {S : γ → δ → Prop} {f : α → Job σ γ} {g : β → Job σ δ} (hxy : Relates I R x y)
    (hfg : ∀ a b, R a b → Ends I S (f a) (g b)) : Ends I S (x >>= f) (y >>= g) := by
  intro w v hw
  rw [outcome_bind, outcome_bind]
  obtain ⟨w', v', hafter, ⟨a, b, hx, hy, hab⟩ | ⟨e, e', hx, hy⟩⟩ := hxy.outcomes hw
  · rw [hx, hy]
    exact hfg a b hab w' v' hafter
  · rw [hx, hy]
    exact .inr (.inr (.error e e'))

/-- Whatever it comes to, the job leaves the session as it was, and what it returns has the property
`P`. -/
def Reads (P : α → Prop) (job : Job σ α) : Prop :=
  ∀ w, (outcome job w).2.session = w.session ∧ ∀ a, (outcome job w).1 = .ok a → P a

theorem reads_pure (h : P a) : Reads P (pure a : Job σ α) := by
  intro w
  refine ⟨rfl, ?_⟩
  intro b hb
  cases hb
  exact h

theorem reads_throw (e : Failure) : Reads P (throw e : Job σ α) := by
  intro w
  refine ⟨rfl, ?_⟩
  intro a ha
  cases ha

theorem reads_lift {e : Except Failure α} (h : ∀ a, e = .ok a → P a) : Reads P (liftM e : Job σ α) :=
  fun _ => ⟨rfl, h⟩

theorem reads_checked (e : Except Failure α) : Reads (fun _ => True) (liftM e : Job σ α) :=
  reads_lift fun _ _ => trivial

theorem Reads.mono {Q : α → Prop} (h : Reads P job) (hPQ : ∀ a, P a → Q a) : Reads Q job :=
  fun w => ⟨(h w).1, fun a ha => hPQ a ((h w).2 a ha)⟩

theorem reads_bind (hx : Reads P x) (hf : ∀ a, P a → Reads Q (f a)) : Reads Q (x >>= f) := by
  intro w
  obtain ⟨hsession, hresult⟩ := hx w
  rw [outcome_bind]
  rcases hrun : outcome x w with ⟨r, w₁⟩
  rw [hrun] at hsession hresult
  cases r with
  | ok a =>
    obtain ⟨hsession₁, hresult₁⟩ := hf a (hresult a rfl) w₁
    exact ⟨hsession₁.trans hsession, hresult₁⟩
  | error e =>
    refine ⟨hsession, ?_⟩
    intro b hb
    cases hb

theorem session_recover (h : ∀ e, Reads P (onError e)) (w : World σ) :
    (outcome (recover job onError) w).2.session = (outcome job w).2.session := by
  rw [outcome_recover]
  rcases outcome job w with ⟨r, w₁⟩
  cases r with
  | ok a => rfl
  | error e =>
    dsimp only
    split
    · exact (h e w₁).1
    · rfl

section

variable [Outside σ]

theorem outcome_send (q : Query) (w : World σ) :
    outcome (send q) w = (.ok (Outside.query q w.outside).1, w.querying q) := rfl

theorem outcome_ask (text : String) (params : Fields) (w : World σ) :
    outcome (ask text params) w =
      if w.connected then
        match (Outside.query ⟨text, params⟩ w.outside).1 with
        | .rows rows => (.ok rows, w.querying ⟨text, params⟩)
        | .failed why =>
          (.ok [], (w.querying ⟨text, params⟩).printing (s!"[!] Query Error: {why}" ++ "\n"))
        | .lost _ why => (.error (.graph why), w.querying ⟨text, params⟩)
      else (.ok [], w) := by
  unfold ask
  rw [outcome_bind]
  change outcome (if w.connected then _ else _) w = _
  split
  · rw [outcome_bind, outcome_send]
    cases (Outside.query ⟨text, params⟩ w.outside).1 <;> rfl
  · rfl

theorem keeps_ask (text : String) (params : Fields) : Keeps (ask text params : Job σ (List Row)) := by
  intro w
  rw [outcome_ask]
  split
  · split <;> exact ⟨rfl, rfl⟩
  · exact ⟨rfl, rfl⟩

theorem reads_ask {P : List Row → Prop} (hnone : P [])
    (hrows : ∀ (q : Query) (s : σ) (rows : List Row), (Outside.query q s).1 = .rows rows → P rows)
    (text : String) (params : Fields) : Reads P (ask text params : Job σ (List Row)) := by
  intro w
  rw [outcome_ask]
  by_cases hconnected : w.connected = true
  · rw [if_pos hconnected]
    cases hanswer : (Outside.query ⟨text, params⟩ w.outside).1 with
    | rows rows =>
      refine ⟨rfl, ?_⟩
      intro a ha
      cases ha
      exact hrows _ _ rows hanswer
    | failed why =>
      refine ⟨rfl, ?_⟩
      intro a ha
      cases ha
      exact hnone
    | lost rows why =>
      refine ⟨rfl, ?_⟩
      intro a ha
      cases ha
  · rw [if_neg hconnected]
    refine ⟨rfl, ?_⟩
    intro a ha
    cases ha
    exact hnone

theorem outcome_consult (c : ModelCall) (w : World σ) :
    outcome (consult c) w =
      match (Outside.model c w.outside).1 with
      | .failed why => (.error (.model why), w.consulting c)
      | .interrupted => (.error .interrupted, w.consulting c)
      | r => (.ok r, w.consulting c) := by
  change outcome (match (Outside.model c w.outside).1 with
    | .failed why => throw (.model why)
    | .interrupted => throw .interrupted
    | r => pure r) (w.consulting c) = _
  cases (Outside.model c w.outside).1 <;> rfl

theorem reads_consult (c : ModelCall) :
    Reads (fun _ => True) (consult c : Job σ ModelReply) := by
  intro w
  rw [outcome_consult]
  cases (Outside.model c w.outside).1 <;> exact ⟨rfl, fun _ _ => trivial⟩

theorem reads_consultText (c : ModelCall) :
    Reads (fun _ => True) (consultText c : Job σ Value) := by
  apply reads_bind (reads_consult c)
  intro reply _
  cases reply <;> exact reads_pure trivial

end

end Job

end ThreatAtlas
