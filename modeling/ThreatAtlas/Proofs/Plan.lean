import ThreatAtlas.Plan
import ThreatAtlas.Proofs.Job

/-!
# Carrying plans out

The queries of a plan are sent whatever the answers are. The graph decides only how far they get.
-/

namespace ThreatAtlas

namespace Plan

variable {α β : Type}

/-- The plan has these queries and comes to the result `a`. -/
def Yields (p : Plan α) (a : α) (qs : List Query) : Prop :=
  p.result = .ok a ∧ p.queries = qs

variable {qs : List Query} {a : α}

theorem yields_unique {p : Plan α} {b : α} {rs : List Query} (hqs : Yields p a qs) (hrs : Yields p b rs) :
    a = b ∧ qs = rs :=
  ⟨Except.ok.inj (hqs.1.symm.trans hrs.1), hqs.2.symm.trans hrs.2⟩

theorem yields_pure {b : α} : Yields (pure a) b qs ↔ a = b ∧ [] = qs := by
  change Except.ok a = .ok b ∧ [] = qs ↔ _
  rw [Except.ok.injEq]

theorem yields_lift {e : Except Failure α} : Yields (liftM e) a qs ↔ e = .ok a ∧ [] = qs :=
  Iff.rfl

theorem bind_of_ok {p : Plan α} (h : p.result = .ok a) (f : α → Plan β) :
    p >>= f = ⟨p.queries ++ (f a).queries, (f a).result⟩ := by
  obtain ⟨queries, result⟩ := p
  obtain rfl : result = .ok a := h
  rfl

theorem bind_of_error {p : Plan α} {e : Failure} (h : p.result = .error e) (f : α → Plan β) :
    p >>= f = ⟨p.queries, .error e⟩ := by
  obtain ⟨queries, result⟩ := p
  obtain rfl : result = .error e := h
  rfl

theorem yields_bind {p : Plan α} {f : α → Plan β} {b : β} : Yields (p >>= f) b qs ↔
      ∃ a qs₁ qs₂, Yields p a qs₁ ∧ Yields (f a) b qs₂ ∧ qs₁ ++ qs₂ = qs := by
  constructor
  · intro h
    cases hresult : p.result with
    | ok a =>
      rw [bind_of_ok hresult] at h
      exact ⟨a, _, _, ⟨hresult, rfl⟩, ⟨h.1, rfl⟩, h.2⟩
    | error e =>
      rw [bind_of_error hresult] at h
      cases h.1
  · intro h
    obtain ⟨a, _, _, ⟨hresult, rfl⟩, ⟨hrest, rfl⟩, hqs⟩ := h
    rw [bind_of_ok hresult]
    exact ⟨hrest, hqs⟩

end Plan

namespace Answer

def isFailed : Answer → Bool
  | .failed _ => true
  | _ => false

def isLost : Answer → Bool
  | .lost _ _ => true
  | _ => false

/-- The query ran and the connection was given back. -/
def isSound : Answer → Bool
  | .rows _ => true
  | _ => false

theorem isSound_eq (a : Answer) : a.isSound = (!a.isFailed && !a.isLost) := by
  cases a <;> rfl

end Answer

section

variable {σ α β : Type} [Outside σ]

def answers : List Query → σ → List Answer
  | [], _ => []
  | q :: qs, s => (Outside.query q s).1 :: answers qs (Outside.query q s).2

namespace Job

variable {w : World σ} {qs : List Query}

/-- A query stops the job only where the connection is lost. -/
theorem askAll_returns_iff : (∃ w', Returns (askAll qs) w () w') ↔
      (w.connected = true → ∀ a ∈ answers qs w.outside, a.isLost = false) := by
  induction qs generalizing w with
  | nil => simp [askAll, returns_pure, answers]
  | cons q qs ih =>
    rw [askAll, answers, List.forall_mem_cons]
    have hask := outcome_ask q.text q.params w
    by_cases hconnected : w.connected = true
    · rw [if_pos hconnected] at hask
      -- A query that failed gives no rows and the job goes on; only a lost connection ends it.
      rcases hanswer : (Outside.query q w.outside).1 with rows | why | ⟨rows, why⟩
      all_goals rw [hanswer] at hask
      case rows =>
        simp only [returns_bind_of_returns hask, ih, Answer.isLost, true_and]
        rfl
      case failed =>
        simp only [returns_bind_of_returns hask, ih, Answer.isLost, true_and]
        rfl
      case lost => simp [not_returns_bind_of_fails hask, hconnected, Answer.isLost]
    · rw [if_neg hconnected] at hask
      simp [returns_bind_of_returns hask, ih, hconnected]

theorem keeps_askAll (qs : List Query) : Keeps (askAll qs : Job σ Unit) := by
  induction qs with
  | nil => exact keeps_pure ()
  | cons q qs ih => exact keeps_bind (keeps_ask q.text q.params) fun _ => ih

end Job

namespace Plan

variable {p : Plan α} {w w' : World σ} {a : α}

theorem keeps_run (p : Plan α) : Job.Keeps (p.run : Job σ α) :=
  Job.keeps_bind (Job.keeps_askAll _) fun _ => Job.keeps_lift _

/-- A plan that is carried out sends its queries, and comes to its result when it gets to their end. -/
theorem run_returns_iff :
    Job.Returns p.run w a w' ↔ ∃ qs, p.Yields a qs ∧ Job.Returns (Job.askAll qs) w () w' := by
  unfold Plan.run
  rw [Job.returns_bind]
  constructor
  · intro h
    obtain ⟨_, w₁, hall, hend⟩ := h
    obtain ⟨hresult, rfl⟩ := Job.returns_lift.mp hend
    exact ⟨_, ⟨hresult, rfl⟩, hall⟩
  · intro h
    obtain ⟨_, ⟨hresult, rfl⟩, hall⟩ := h
    exact ⟨(), w', hall, Job.returns_lift.mpr ⟨hresult, rfl⟩⟩

end Plan

end

end ThreatAtlas
