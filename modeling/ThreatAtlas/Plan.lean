import ThreatAtlas.Job

/-!
# Plans of queries

Work that looks at none of the answers it gets can be planned: its queries follow from its data alone.
-/

namespace ThreatAtlas

/-- The queries that a piece of work takes, and what it comes to when they have been sent. -/
structure Plan (α : Type) where
  queries : List Query
  result : Except Failure α

namespace Plan

instance : Monad Plan where
  pure a := ⟨[], .ok a⟩
  bind p f :=
    match p.result with
    | .ok a =>
      let rest := f a
      ⟨p.queries ++ rest.queries, rest.result⟩
    | .error e => ⟨p.queries, .error e⟩

instance : MonadLift (Except Failure) Plan where
  monadLift e := ⟨[], e⟩

def ask (text : String) (params : Fields) : Plan Unit :=
  ⟨[⟨text, params⟩], .ok ()⟩

end Plan

variable {σ : Type} [Outside σ]

def Job.askAll : List Query → Job σ Unit
  | [] => return
  | q :: qs => do
    let _ ← ask q.text q.params
    askAll qs

/-- Carries the plan out. -/
def Plan.run (p : Plan α) : Job σ α := do
  Job.askAll p.queries
  p.result

end ThreatAtlas
