import ThreatAtlas.Proofs.Sending
import ThreatAtlas.Toolbox.Catalogue

/-!
# Queries that fail

The shared client answers a query that fails, and one for which there is no connection, with no rows. A
tool takes that for an answer and says that nothing was found; its text for errors, and the second
question for paths, are reached only when the connection is lost as it is given back.
-/

namespace ThreatAtlas

namespace World

variable {σ : Type} [Outside σ]

def answerTo (w : World σ) (q : Query) : Option Answer :=
  if w.connected then some (Outside.query q w.outside).1 else none

/-- There are no rows for the query because it cannot be asked, cannot be run, or its connection is
lost. -/
def failsAt (w : World σ) (q : Query) : Bool :=
  match w.answerTo q with
  | some (.rows _) => false
  | _ => true

def losesAt (w : World σ) (q : Query) : Bool :=
  match w.answerTo q with
  | some (.lost _ _) => true
  | _ => false

end World

namespace Job

variable {σ : Type} [Outside σ]

def heard : Option Answer → Except Failure (List Row)
  | some (.rows rows) => .ok rows
  | some (.failed _) => .ok []
  | some (.lost _ why) => .error (.graph why)
  | none => .ok []

private theorem outcome_ask_fst (q : Query) (w : World σ) :
    (outcome (ask q.text q.params) w).1 = heard (w.answerTo q) := by
  rw [outcome_ask, World.answerTo]
  by_cases hconnected : w.connected = true
  · rw [if_pos hconnected, if_pos hconnected]
    cases (Outside.query q w.outside).1 <;> rfl
  · rw [if_neg hconnected, if_neg hconnected]
    rfl

variable {q : Query} {w : World σ}

private theorem heard_of_failsAt (hfails : w.failsAt q = true) (hkept : w.losesAt q = false) :
    heard (w.answerTo q) = .ok [] := by
  unfold World.failsAt at hfails
  unfold World.losesAt at hkept
  cases h : w.answerTo q with
  | none => rfl
  | some a =>
    rw [h] at hfails hkept
    cases a with
    | rows rows => cases hfails
    | failed why => rfl
    | lost rows why => cases hkept

private theorem exists_heard (h : w.losesAt q = false) : ∃ rows, heard (w.answerTo q) = .ok rows := by
  unfold World.losesAt at h
  rcases ha : w.answerTo q with _ | ⟨rows⟩ | ⟨why⟩ | ⟨rows, why⟩
  case some.lost =>
    rw [ha] at h
    cases h
  all_goals exact ⟨_, rfl⟩

theorem heard_of_losesAt (h : w.losesAt q = true) : ∃ why, heard (w.answerTo q) = .error (.graph why) := by
  unfold World.losesAt at h
  cases ha : w.answerTo q with
  | none =>
    rw [ha] at h
    cases h
  | some a =>
    rw [ha] at h
    cases a with
    | lost rows why => exact ⟨why, rfl⟩
    | _ => cases h

private theorem isError_of_heard {a : Option Answer} {e : Failure} (h : heard a = .error e) :
    e.isError = true := by
  rcases a with _ | ⟨rows⟩ | ⟨why⟩ | ⟨rows, why⟩ <;> cases h
  rfl

private theorem connected_of_losesAt (h : w.losesAt q = true) : w.connected = true := by
  unfold World.losesAt World.answerTo at h
  by_contra hnot
  rw [if_neg hnot] at h
  cases h

end Job

namespace Toolbox

open Job (outcome Returns Sends heard)

def Tool.executing : List Tool :=
  [.incidentsWith, .runQuery, .listLabels, .listProperties, .sampleNodes, .expandNeighbourhood,
    .findExact, .findFuzzy, .entityHistory]

/-- The answer of such a tool to what the client brings back. -/
def told : Except Failure (List Row) → String
  | .ok rows => if rows.isEmpty then nothingFound else cutJson 4000 (rowsValue rows)
  | .error e => s!"Cypher Error: {e.message}"

private theorem told_error_ne (e : Failure) : told (.error e) ≠ nothingFound := by
  intro h
  have hchars := congrArg String.toList h
  simp [told, nothingFound, toString] at hchars

variable {σ : Type} [Outside σ]

private theorem outcome_execute_fst (q : Query) (w : World σ) :
    (outcome (execute q.text q.params) w).1 = .ok (told (heard (w.answerTo q))) := by
  unfold execute
  rw [Job.outcome_recover, Job.outcome_bind, ← Job.outcome_ask_fst]
  rcases hrun : outcome (Job.ask q.text q.params) w with ⟨r, w'⟩
  cases r with
  | ok rows => rfl
  | error e =>
    have herror : e.isError = true := by
      have hheard := Job.outcome_ask_fst q w
      rw [hrun] at hheard
      exact Job.isError_of_heard hheard.symm
    dsimp only
    rw [if_pos herror]
    rfl

theorem sends_execute (q : Query) (w : World σ) :
    Sends (execute q.text q.params) w (if w.connected then [q] else []) := by
  apply Job.sends_recover_of_silent
  · exact Job.sends_bind_of_silent (Job.sends_ask q.text q.params w) fun _ _ => Job.sends_pure _ _
  · exact fun _ _ => Job.sends_pure _ _

/-- The job executes one query, or comes to a result without one. -/
def ExecutesOne (job : Job σ String) : Prop :=
  (∃ q : Query, job = execute q.text q.params) ∨ ∃ r : Except Failure String, job = liftM r

private theorem executesOne_execute (text : String) (params : Fields) :
    ExecutesOne (execute text params : Job σ String) :=
  .inl ⟨⟨text, params⟩, rfl⟩

private theorem executesOne_lift_bind {α : Type} {e : Except Failure α} {f : α → Job σ String}
    (h : ∀ a, ExecutesOne (f a)) : ExecutesOne (liftM e >>= f) := by
  cases e with
  | error why => exact .inr ⟨.error why, rfl⟩
  | ok a => exact h a

private theorem executesOne_runQuery (query : Value) : ExecutesOne (runQuery query : Job σ String) := by
  refine executesOne_lift_bind fun text => ?_
  split
  · exact .inr ⟨.ok "Error: Read-only only.", rfl⟩
  · exact executesOne_execute text []

private theorem executesOne_run {tool : Tool} (htool : tool ∈ Tool.executing) (args : Fields) :
    ExecutesOne (tool.run args : Job σ String) := by
  refine executesOne_lift_bind fun given => ?_
  simp only [Tool.executing, List.mem_cons, List.not_mem_nil, or_false] at htool
  rcases htool with rfl | rfl | rfl | rfl | rfl | rfl | rfl | rfl | rfl
  case inr.inl => exact executesOne_runQuery _
  case inr.inr.inr.inr.inr.inr.inr.inl =>
    exact executesOne_lift_bind fun keyword => executesOne_execute _ _
  all_goals exact executesOne_execute _ _

variable {w w₁ : World σ} {q : Query} {r : PathRequest}

/-- A tool that executes one query tells its failure exactly if the connection is lost; else the answer
is as for no rows. -/
theorem execute_ne_iff_losesAt {v : World σ} (hfails : w.failsAt q = true)
    (hempty : v.answerTo q = some (.rows [])) :
    (outcome (execute q.text q.params) w).1 ≠ (outcome (execute q.text q.params) v).1 ↔
      w.losesAt q = true := by
  have hnothing : told (heard (v.answerTo q)) = nothingFound := by
    rw [hempty]
    rfl
  rw [outcome_execute_fst, outcome_execute_fst, hnothing]
  cases hlost : w.losesAt q with
  | true =>
    obtain ⟨why, hwhy⟩ := Job.heard_of_losesAt hlost
    rw [hwhy]
    refine iff_of_true (fun heq => ?_) rfl
    exact told_error_ne (.graph why) (Except.ok.inj heq)
  | false =>
    rw [Job.heard_of_failsAt hfails hlost]
    exact iff_of_false (fun hne => hne rfl) Bool.false_ne_true

/-- The question for paths without procedures for properties. -/
def plainly (q : Query) : Query :=
  ⟨Queries.withPlainProperties q.text, q.params⟩

theorem askPaths_of_ok {w' : World σ} {rows : List Row} (h : Returns (Job.ask q.text q.params) w rows w') :
    Returns (askPaths q.text q.params) w (.ok (rows, q.text)) w' :=
  Job.returns_recover.mpr (.inl ((Job.returns_bind_of_returns h).mpr rfl))

private theorem askPaths_of_fails {e : Failure} (h : Job.Fails (Job.ask q.text q.params) w e w₁)
    (herror : e.isError = true) : outcome (askPaths q.text q.params) w =
      outcome (Job.recover
        (do return .ok (← Job.ask (plainly q).text (plainly q).params, (plainly q).text))
        fun e => return .error e.message) w₁ := by
  unfold askPaths
  rw [Job.outcome_recover, Job.outcome_bind, show outcome (Job.ask q.text q.params) w = _ from h]
  exact if_pos herror

/-- The second question for paths is asked exactly if the connection is lost at the first. -/
theorem sends_askPaths (q : Query) (w : World σ) :
    Sends (askPaths q.text q.params) w
      (if w.losesAt q then [q, plainly q] else if w.connected then [q] else []) := by
  have hfirst := Job.sends_ask q.text q.params w
  have hheard := Job.outcome_ask_fst q w
  have hkept := (Job.keeps_ask q.text q.params w).2
  rcases hrun : outcome (Job.ask q.text q.params) w with ⟨r, w₁⟩
  rw [Sends, hrun] at hfirst
  rw [hrun] at hheard hkept
  cases hlost : w.losesAt q with
  | false =>
    obtain ⟨rows, hrows⟩ := Job.exists_heard hlost
    obtain rfl : r = .ok rows := hheard.trans hrows
    rw [Sends, show outcome (askPaths q.text q.params) w = _ from askPaths_of_ok hrun]
    exact hfirst
  | true =>
    obtain ⟨why, hwhy⟩ := Job.heard_of_losesAt hlost
    obtain rfl : r = .error (.graph why) := hheard.trans hwhy
    have hconnected := Job.connected_of_losesAt hlost
    have hsecond : Sends (Job.recover
        (do return .ok (← Job.ask (plainly q).text (plainly q).params, (plainly q).text))
        fun e => return .error e.message : Job σ (Except String (List Row × String))) w₁
        [plainly q] := by
      refine Job.sends_recover_of_silent (Job.sends_bind_of_silent ?_ fun _ _ => Job.sends_pure _ _)
        fun _ _ => Job.sends_pure _ _
      have hask := Job.sends_ask (plainly q).text (plainly q).params w₁
      rwa [if_pos (hkept.trans hconnected)] at hask
    rw [Sends, askPaths_of_fails hrun rfl, hsecond, hfirst, if_pos hconnected, if_pos rfl,
      List.append_assoc]
    rfl

private theorem outcome_findPaths (h : Returns (pathQuestion r) w (.ok q) w₁) : outcome (findPaths r) w =
      outcome (do liftM (pathReport r q (← askPaths q.text q.params))) w₁ := by
  unfold findPaths
  rw [Job.outcome_bind, show outcome (pathQuestion r) w = _ from h]

private theorem findPaths_queries (h : Returns (pathQuestion r) w (.ok q) w₁) :
    (outcome (findPaths r) w).2.trace.queries = w₁.trace.queries ++
      if w₁.losesAt q then [q, plainly q] else if w₁.connected then [q] else [] := by
  rw [outcome_findPaths h]
  exact Job.sends_bind_of_silent (sends_askPaths q w₁) fun _ _ => Job.sends_nil_of_outcome rfl

private theorem findPaths_of_nothing_heard (h : Returns (pathQuestion r) w (.ok q) w₁)
    (hnothing : heard (w₁.answerTo q) = .ok []) :
    (outcome (findPaths r) w).1 = pathReport r q (.ok ([], q.text)) := by
  rw [outcome_findPaths h, Job.outcome_bind]
  have hheard := Job.outcome_ask_fst q w₁
  rcases hrun : outcome (Job.ask q.text q.params) w₁ with ⟨result, w₂⟩
  rw [hrun] at hheard
  obtain rfl : result = .ok [] := hheard.trans hnothing
  rw [show outcome (askPaths q.text q.params) w₁ = _ from askPaths_of_ok hrun]
  rfl

/-- A tool that answers with the rows of one query executes one, or comes to a result without any. If the
query fails, the answer differs from the one for no rows exactly if the connection is lost. The plain
question for paths follows the first exactly if the connection is lost at that; where the first fails
otherwise, the answer is as for no rows. -/
theorem failed_query_told_iff_lost :
    (∀ tool ∈ Tool.executing, ∀ args : Fields,
      (∃ r, ∀ w : World σ, outcome (tool.run args) w = (r, w)) ∨
      ∃ q : Query,
        (∀ w : World σ, Sends (tool.run args) w (if w.connected then [q] else [])) ∧
        ∀ w v : World σ, w.failsAt q = true → v.answerTo q = some (.rows []) →
          ((outcome (tool.run args) w).1 ≠ (outcome (tool.run args) v).1 ↔ w.losesAt q = true)) ∧
    ∀ (r : PathRequest) (q : Query) (w w₁ : World σ), Returns (pathQuestion r) w (.ok q) w₁ →
      (outcome (findPaths r) w).2.trace.queries = w₁.trace.queries ++
        (if w₁.losesAt q then [q, plainly q] else if w₁.connected then [q] else []) ∧
      ∀ v v₁ : World σ, Returns (pathQuestion r) v (.ok q) v₁ → v₁.answerTo q = some (.rows []) →
        w₁.failsAt q = true → w₁.losesAt q = false →
          (outcome (findPaths r) w).1 = (outcome (findPaths r) v).1 := by
  constructor
  · intro tool htool args
    have hone : ExecutesOne (tool.run args : Job σ String) := executesOne_run htool args
    rcases hone with ⟨q, hq⟩ | ⟨r, hr⟩
    · rw [hq]
      exact .inr ⟨q, sends_execute q, fun w v => execute_ne_iff_losesAt⟩
    · rw [hr]
      exact .inl ⟨r, Job.outcome_lift r⟩
  · intro r q w w₁ hw
    refine ⟨findPaths_queries hw, ?_⟩
    intro v v₁ hv hempty hfails hkept
    have hnothing : heard (v₁.answerTo q) = .ok [] := by
      rw [hempty]
      rfl
    rw [findPaths_of_nothing_heard hw (Job.heard_of_failsAt hfails hkept),
      findPaths_of_nothing_heard hv hnothing]

/-- The labels of a graph that cannot read them are reported as none, and so are paths whose query calls
an unknown procedure, without a plain question. -/
theorem failed_query_told_as_nothing :
    let failing : World Scripted := { outside := ⟨[.failed "disk full"]⟩ }
    let empty : World Scripted := { outside := ⟨[.rows []]⟩ }
    let found : List Answer := [.rows [[("c", .int 1)]], .rows [[("nid", .text "n")]]]
    let unknown : World Scripted := { outside := ⟨found ++ [.failed "Unknown function"]⟩ }
    (outcome (Tool.run .listLabels []) failing).1 = (outcome (Tool.run .listLabels []) empty).1 ∧
      ∃ q w, Returns (pathQuestion { start := .text "A" }) unknown (.ok q) w ∧ w.failsAt q = true ∧
        (outcome (findPaths { start := .text "A" }) unknown).2.trace.queries =
          w.trace.queries ++ [q] := by
  intro failing empty found unknown
  obtain ⟨htools, hpaths⟩ := @failed_query_told_iff_lost Scripted _
  constructor
  · rcases htools .listLabels (by decide) [] with ⟨r, hr⟩ | ⟨q, -, htold⟩
    · have hsent := congrArg (fun run => run.2.trace.queries.length) (hr failing)
      cases hsent
    · by_contra hne
      exact Bool.false_ne_true ((htold failing empty rfl rfl).mp hne)
  · have hasked : ∃ q w, Returns (pathQuestion { start := .text "A" }) unknown (.ok q) w ∧
        w.failsAt q = true ∧ w.losesAt q = false ∧ w.connected = true :=
      ⟨_, _, rfl, rfl, rfl, rfl⟩
    obtain ⟨q, w, hquestion, hfails, hkept, hconnected⟩ := hasked
    have hsent := (hpaths _ q unknown w hquestion).1
    rw [hkept, hconnected] at hsent
    exact ⟨q, w, hquestion, hfails, hsent⟩

end Toolbox

end ThreatAtlas
