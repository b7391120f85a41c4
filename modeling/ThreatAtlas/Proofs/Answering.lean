import ThreatAtlas.Proofs.Job

/-!
# A graph whose answers depend on the queries alone

Where a query has one answer, however often it is sent and whatever was sent before it, a job that does
nothing but ask the graph comes to a result that is determined by the answers.
-/

namespace ThreatAtlas

variable {σ α β : Type}

/-- The graph answers every query as `f` does, whatever queries it had before. -/
def Answering [Outside σ] (f : Query → Answer) (s : σ) : Prop :=
  ∀ (earlier : List Query) (q : Query), (Outside.query q (earlier.foldl
    (fun s q => (Outside.query q s).2) s)).1 = f q

/-- Services with a graph that answers by a function, and models that fail. -/
structure Tabulated where
  answer : Query → Answer

instance : Outside Tabulated where
  query q s := (s.answer q, s)
  model _ s := (.failed "", s)
  web _ s := (.failed "", s)
  draw s := (0, s)
  answer s := (none, s)

theorem answering_tabulated (f : Query → Answer) : Answering f (Tabulated.mk f) := by
  intro earlier q
  have hsame : earlier.foldl (fun s q => (Outside.query q s).2) (Tabulated.mk f) = ⟨f⟩ := by
    induction earlier with
    | nil => rfl
    | cons _ earlier ih => exact ih
  rw [hsame]
  rfl

/-- What the client makes of an answer. Without a connection no query has rows. -/
def answered (f : Query → Answer) (connected : Bool) (q : Query) : Except Failure (List Row) :=
  if connected then
    match f q with
    | .rows rows => .ok rows
    | .failed _ => .ok []
    | .lost _ why => .error (.graph why)
  else .ok []

namespace Job

variable [Outside σ]

structure Sees (f : Query → Answer) (connected : Bool) (w : World σ) : Prop where
  answering : Answering f w.outside
  connected : w.connected = connected

variable {f : Query → Answer} {connected : Bool}

private theorem Sees.querying {w : World σ} (h : Sees f connected w) (q : Query) :
    Sees f connected (w.querying q) :=
  ⟨fun earlier => h.answering (q :: earlier), h.connected⟩

/-- With the answers of `f` the job has the result of `e`, or fails if `e` does. -/
def Settles (f : Query → Answer) (connected : Bool) (job : Job σ α) (e : Except Failure α) : Prop :=
  ∀ w, Sees f connected w →
    (outcome job w).1.toOption = e.toOption ∧ Sees f connected (outcome job w).2

theorem settles_lift (e : Except Failure α) : Settles (σ := σ) f connected (liftM e) e :=
  fun _ hw => ⟨rfl, hw⟩

theorem settles_pure (a : α) : Settles (σ := σ) f connected (pure a) (.ok a) :=
  fun _ hw => ⟨rfl, hw⟩

theorem settles_throw (e : Failure) :
    Settles (σ := σ) f connected (throw e : Job σ α) (.error e) :=
  fun _ hw => ⟨rfl, hw⟩

variable {e : Except Failure α} {g : α → Job σ β} {x : Job σ α}

theorem settles_bind {k : α → Except Failure β} (hx : Settles f connected x e)
    (hg : ∀ a, e = .ok a → Settles f connected (g a) (k a)) : Settles f connected (x >>= g) (e >>= k) := by
  intro w hw
  obtain ⟨hresult, hafter⟩ := hx w hw
  rw [outcome_bind]
  rcases hrun : outcome x w with ⟨r, w₁⟩
  rw [hrun] at hresult hafter
  cases r with
  | ok a =>
    obtain rfl := toOption_eq_some_iff.mp hresult.symm
    exact hg a rfl w₁ hafter
  | error _ =>
    cases e with
    | ok a => cases hresult
    | error _ => exact ⟨rfl, hafter⟩

theorem settles_bind_ok {a : α} {r : Except Failure β} (hx : Settles f connected x (.ok a))
    (hg : Settles f connected (g a) r) : Settles f connected (x >>= g) r := by
  refine settles_bind (e := .ok a) (k := fun _ => r) hx ?_
  rintro _ ⟨⟩
  exact hg

theorem settles_ask (text : String) (params : Fields) :
    Settles (σ := σ) f connected (ask text params) (answered f connected ⟨text, params⟩) := by
  intro w hw
  rw [outcome_ask, hw.connected, answered, show (Outside.query _ w.outside).1 = _ from hw.answering [] _]
  cases connected with
  | false => exact ⟨rfl, hw⟩
  | true =>
    have hafter := hw.querying ⟨text, params⟩
    cases f ⟨text, params⟩ with
    | rows rows => exact ⟨rfl, hafter⟩
    | failed why => exact ⟨rfl, hafter.answering, hafter.connected⟩
    | lost rows why => exact ⟨rfl, hafter⟩

theorem exists_settles_bind (hx : ∃ e, Settles f connected x e) (hg : ∀ a, ∃ e, Settles f connected (g a) e) :
    ∃ e, Settles f connected (x >>= g) e := by
  obtain ⟨e, he⟩ := hx
  choose k hk using hg
  exact ⟨e >>= k, settles_bind he fun a _ => hk a⟩

theorem Settles.congr {job : Job σ α} {e' : Except Failure α} (h : Settles f connected job e)
    (he : e.toOption = e'.toOption) : Settles f connected job e' :=
  fun w hw => ⟨(h w hw).1.trans he, (h w hw).2⟩

theorem Settles.returns_iff {job : Job σ α} (h : Settles f connected job e) {w : World σ}
    (hw : Sees f connected w) {a : α} : (∃ w', Returns job w a w') ↔ e = .ok a := by
  rw [← toOption_eq_some_iff, ← (h w hw).1, toOption_eq_some_iff]
  unfold Returns
  constructor
  · rintro ⟨w', hrun⟩
    rw [hrun]
  · intro hresult
    exact ⟨_, Prod.ext hresult rfl⟩

def SeeAlike (f : Query → Answer) (connected : Bool) (w w' : World σ) : Prop :=
  Sees f connected w ∧ Sees f connected w'

/-- Where the answers are those of `f`, two jobs that settle are in the relation of what they settle to. -/
theorem Settles.relates {R : α → β → Prop} {y : Job σ β} {e' : Except Failure β}
    (hx : Settles f connected x e) (hy : Settles f connected y e') (h : Agree R e e') :
    Relates (SeeAlike f connected) R x y := by
  intro w w' hw
  obtain ⟨hresult, hafter⟩ := hx w hw.1
  obtain ⟨hresult', hafter'⟩ := hy w' hw.2
  refine ⟨?_, hafter, hafter'⟩
  generalize (outcome x w).1 = r at hresult
  generalize (outcome y w').1 = r' at hresult'
  cases h with
  | ok h =>
    rw [toOption_eq_some_iff.mp hresult, toOption_eq_some_iff.mp hresult']
    exact .ok h
  | error _ _ =>
    cases r with
    | ok a => cases hresult
    | error e =>
      cases r' with
      | ok b => cases hresult'
      | error e' => exact .error e e'

theorem Settles.relates_self (h : Settles f connected x e) : Relates (SeeAlike f connected) Eq x x :=
  h.relates h (.refl (fun _ => rfl) e)

/-- Where the answers are those of `f`, a job that settles returns nothing else. -/
theorem Settles.ensures (h : Settles f connected x e) :
    Ensures (Sees f connected) (fun a => e = .ok a) x := by
  intro w hw a w' hrun
  refine ⟨(h.returns_iff hw).mp ⟨w', hrun⟩, ?_⟩
  have hafter := (h w hw).2
  rwa [show outcome x w = _ from hrun] at hafter

theorem Relates.ensures (h : Relates (SeeAlike f connected) Eq x x) :
    Ensures (Sees f connected) (fun _ => True) x := by
  intro w hw a w' hrun
  have hafter := (h w w ⟨hw, hw⟩).2.1
  rw [show outcome x w = _ from hrun] at hafter
  exact ⟨trivial, hafter⟩

def fetched (f : Query → Answer) (connected : Bool) (q : Query) : List Row :=
  match answered f connected q with
  | .ok rows => rows
  | .error _ => []

theorem settles_recover_ask (text : String) (params : Fields) :
    Settles (σ := σ) f connected (recover (ask text params) fun _ => pure [])
      (.ok (fetched f connected ⟨text, params⟩)) := by
  intro w hw
  unfold fetched answered
  rw [outcome_recover, outcome_ask, hw.connected,
    show (Outside.query _ w.outside).1 = _ from hw.answering [] _]
  cases connected with
  | false => exact ⟨rfl, hw⟩
  | true =>
    have hafter := hw.querying ⟨text, params⟩
    cases f ⟨text, params⟩ with
    | rows rows => exact ⟨rfl, hafter⟩
    | failed why => exact ⟨rfl, hafter.answering, hafter.connected⟩
    | lost rows why => exact ⟨rfl, hafter⟩

end Job

end ThreatAtlas
