import ThreatAtlas.Dashboard.Conversation
import ThreatAtlas.Proofs.Job
import ThreatAtlas.Proofs.Value

/-!
# What a conversation leaves behind

The page keeps a conversation twice: as messages that it shows, and as the history that the agent is
given. A question is shown at once; its answer goes to both when the agent came to the end and had one.
-/

namespace ThreatAtlas.Dashboard.Conversation

open Job (outcome Reads Returns)

/-! Answers -/

def canShow (call : Value) : Bool :=
  (call.item "name").isOk && (call.item "args").isOk

/-- Whether a message lets the agent be followed; tools that it calls must be such as can be shown. -/
def canFollow (m : Message) : Bool :=
  !(m.role == .ai && m.toolCalls.truthy) || m.toolCalls.elements.toOption.any (·.all canShow)

/-- The answer a message gives: what the model says when it calls no tool. -/
def answerOf (m : Message) : Option Value :=
  if m.role == .ai && !m.toolCalls.truthy && m.content.truthy then some m.content else none

def isFollowed : Except String (List Message) → Bool
  | .ok ms => ms.getLast?.all canFollow
  | .error _ => false

def answerIn : Except String (List Message) → Option Value
  | .ok ms => ms.getLast?.bind answerOf
  | .error _ => none

/-- The answer of a turn: the last one there is, if the agent can be followed to the end. -/
def finalAnswer (events : List (Except String (List Message))) : Option Value :=
  if events.all isFollowed then (events.filterMap answerIn).getLast? else none

private theorem truthy_of_answerIn {event : Except String (List Message)} {a : Value}
    (h : answerIn event = some a) : a.truthy = true := by
  cases event with
  | error why => cases h
  | ok ms =>
    obtain ⟨m, _, hm⟩ := Option.bind_eq_some_iff.mp h
    unfold answerOf at hm
    split at hm
    case isTrue hsays =>
      cases hm
      rw [Bool.and_eq_true] at hsays
      exact hsays.2
    case isFalse => cases hm

private theorem finalAnswer_of_followed {events : List (Except String (List Message))} {last : Value}
    (h : events.all isFollowed = true) (hlast : last = (events.filterMap answerIn).getLastD (.text "")) :
    finalAnswer events = if last.truthy then some last else none := by
  rw [finalAnswer, if_pos h, hlast, List.getLastD_eq_getLast?]
  cases hanswers : (events.filterMap answerIn).getLast? with
  | none => rfl
  | some a =>
    have hmem : a ∈ events.filterMap answerIn := List.mem_of_getLast? hanswers
    obtain ⟨event, _, hevent⟩ := List.mem_filterMap.mp hmem
    exact (if_pos (truthy_of_answerIn hevent)).symm

/-! Following the agent -/

variable {σ α : Type}

/-- Whatever the world, the job leaves the session as it was, and comes to a turn with this answer or
fails. -/
def Brings (job : Job σ Turn) (answer : Option Value) : Prop :=
  ∀ w, (outcome job w).2.session = w.session ∧ (outcome job w).1.toOption.map Turn.answer = answer

private theorem brings_pure (t : Turn) : Brings (pure t : Job σ Turn) (some t.answer) :=
  fun _ => ⟨rfl, rfl⟩

private theorem brings_throw (e : Failure) : Brings (throw e : Job σ Turn) none :=
  fun _ => ⟨rfl, rfl⟩

private theorem brings_bind {x : Job σ Turn} {f : Turn → Job σ Turn} {can canToo : Bool} {a b : Value}
    (hx : Brings x (if can then some a else none))
    (hf : ∀ t, t.answer = a → Brings (f t) (if canToo then some b else none)) :
    Brings (x >>= f) (if can && canToo then some b else none) := by
  intro w
  have hfirst := hx w
  rw [Job.outcome_bind]
  rcases hrun : outcome x w with ⟨r, w₁⟩
  rw [hrun] at hfirst
  cases r with
  | ok t =>
    cases can with
    | true =>
      have hsecond := hf t (Option.some.inj hfirst.2) w₁
      exact ⟨hsecond.1.trans hfirst.1, hsecond.2⟩
    | false => cases hfirst.2
  | error e =>
    cases can with
    | true => cases hfirst.2
    | false => exact ⟨hfirst.1, rfl⟩

private theorem brings_callTool (t : Turn) (call : Value) :
    Brings (callTool t call : Job σ Turn) (if canShow call then some t.answer else none) := by
  unfold callTool canShow
  cases call.item "name" with
  | error e => exact brings_throw e
  | ok name =>
    cases call.item "args" with
    | error e => exact fun _ => ⟨rfl, rfl⟩
    | ok args => exact fun _ => ⟨rfl, rfl⟩

private theorem brings_callTools (t : Turn) (calls : List Value) :
    Brings (callTools t calls : Job σ Turn) (if calls.all canShow then some t.answer else none) := by
  induction calls generalizing t with
  | nil => exact brings_pure t
  | cons call calls ih =>
    rw [List.all_cons]
    apply brings_bind (brings_callTool t call)
    intro t' ht'
    rw [← ht']
    exact ih t'

private theorem brings_takeResult (t : Turn) (m : Message) :
    Brings (takeResult t m : Job σ Turn) (some t.answer) := by
  unfold takeResult showDocument
  cases parsed? (m.content.orElse (.text "")) with
  | none => exact fun _ => ⟨rfl, rfl⟩
  | some v => exact fun _ => ⟨rfl, rfl⟩

private theorem brings_takeMessage (t : Turn) (m : Message) :
    Brings (takeMessage t m : Job σ Turn)
      (if canFollow m then some ((answerOf m).getD t.answer) else none) := by
  unfold takeMessage canFollow answerOf
  cases hrole : m.role with
  | ai =>
    cases hcalls : m.toolCalls.truthy with
    | true =>
      cases m.toolCalls.elements with
      | error e => exact brings_throw e
      | ok calls => exact brings_callTools t calls
    | false =>
      cases hcontent : m.content.truthy with
      | true => exact brings_pure _
      | false => exact brings_pure t
  | tool => exact brings_takeResult t m
  | _ => exact brings_pure t

/-- The agent is followed to its last answer, unless an event is an error or calls a tool that cannot be
shown. -/
theorem brings_follow (t : Turn) (events : List (Except String (List Message))) :
    Brings (follow t events : Job σ Turn)
      (if events.all isFollowed then some ((events.filterMap answerIn).getLastD t.answer) else none) := by
  induction events generalizing t with
  | nil => exact brings_pure t
  | cons event events ih =>
    rw [List.all_cons]
    cases event with
    | error why => exact brings_throw _
    | ok ms =>
      cases hlast : ms.getLast? with
      | none =>
        have hquiet : follow t (.ok ms :: events) = (follow t events : Job σ Turn) := by
          rw [follow, hlast]
        have hfollowed : isFollowed (.ok ms) = true := by simp [isFollowed, hlast]
        have hanswer : answerIn (.ok ms) = none := by simp [answerIn, hlast]
        rw [hquiet, hfollowed, Bool.true_and, List.filterMap_cons_none hanswer]
        exact ih t
      | some m =>
        have htaken : follow t (.ok ms :: events) =
            (takeMessage t m >>= fun t' => follow t' events : Job σ Turn) := by
          rw [follow, hlast]
        have hfollowed : isFollowed (.ok ms) = canFollow m := by simp [isFollowed, hlast]
        have hanswer : answerIn (.ok ms) = answerOf m := by simp [answerIn, hlast]
        rw [htaken, hfollowed]
        apply brings_bind (brings_takeMessage t m)
        intro t' ht'
        have hlater : ((.ok ms :: events).filterMap answerIn).getLastD t.answer =
            (events.filterMap answerIn).getLastD t'.answer := by
          rw [List.filterMap_cons, hanswer, ht']
          cases answerOf m with
          | none => rfl
          | some a => exact List.getLastD_cons
        rw [hlater]
        exact ih t'

/-! What a turn leaves in the session -/

def Shows (s : Session) (entries : List Value) : Prop :=
  s.entries.lookup "messages" = some (.list entries)

def remembering (s : Session) (name : String) (v : Value) : Session :=
  { s with entries := s.entries.set name v }

private theorem shows_remembering (s : Session) (entries : List Value) :
    Shows (remembering s "messages" (.list entries)) entries :=
  Fields.lookup_set_self _ _ _

variable {entries : List Value} {w : World σ}

theorem Shows.remembering {s : Session} (h : Shows s entries) {name : String} (hname : "messages" ≠ name)
    (v : Value) : Shows (remembering s name v) entries := by
  unfold Shows Conversation.remembering
  rw [Fields.lookup_set_of_ne _ _ hname]
  exact h

private theorem outcome_addEntry (h : Shows w.session entries) (entry : Value) : outcome (addEntry entry) w =
      (.ok (), { w with session := remembering w.session "messages" (.list (entries ++ [entry])) }) := by
  have hread : outcome (remembered "messages") w = (.ok (.list entries), w) := by
    change (Except.ok (w.session.entries.get "messages"), w) = _
    rw [Fields.get, h, Option.getD_some]
  unfold addEntry
  rw [Job.outcome_bind, hread]
  rfl

private theorem outcome_historyWith (h : w.session.otherHistory = none) (m : Message) :
    outcome (historyWith m) w = (.ok (w.session.history.getD [] ++ [.message m]), w) := by
  unfold historyWith
  rw [Job.outcome_bind, Job.outcome_get]
  dsimp only
  rw [h]
  rfl

private theorem returns_suggest [Outside σ] (question answer : Value) (w : World σ) :
    ∃ suggestions w', Returns (suggest question answer) w suggestions w' ∧ w'.session = w.session := by
  have hreads : Reads (fun _ => True) (do
      let reply ← Job.consultText
        { model := adviser (← Job.settings)
          prompt := .template [(.system, adviserRole), (.human, suggestionRequest question answer)] [] }
      return questionsIn (← reply.asText "split") : Job σ (List String)) := by
    apply Job.reads_bind (fun _ => ⟨rfl, fun _ _ => trivial⟩ : Reads (fun _ => True) Job.settings)
    intro settings _
    apply Job.reads_bind (Job.reads_consultText _)
    intro reply _
    apply Job.reads_bind (Job.reads_lift fun _ _ => trivial : Reads (fun _ => True) _)
    intro text _
    exact Job.reads_pure trivial
  have hsession := (hreads w).1
  unfold Returns suggest Job.recoverAll
  rw [Job.outcome_tryCatch]
  generalize outcome _ w = run at hsession ⊢
  obtain ⟨r, w'⟩ := run
  cases r with
  | ok suggestions => exact ⟨suggestions, w', rfl, hsession⟩
  | error e => exact ⟨[], w', rfl, hsession⟩

/-- The session in which a turn is kept: its answer is shown, and goes to the history. -/
def keeping (s : Session) (entries : List Value) (question : Message) (t : Turn) : Session :=
  { remembering s "messages" (.list (entries ++ [assistantEntry t])) with
    history := some (s.history.getD [] ++
      [.message question, .message { role := .ai, content := t.answer }]) }

private theorem outcome_finish [Outside σ] (h : Shows w.session entries) (question : Message) (t : Turn) :
    (outcome (finish question t) w).1 = .error .rerun ∧
      ∃ suggestions, (outcome (finish question t) w).2.session =
        remembering (keeping w.session entries question t) "followup_suggestions" suggestions := by
  let shown : World σ := (outcome (put "markdown" [t.answer]) w).2
  let kept : World σ := { shown with session := keeping w.session entries question t }
  have hkept : outcome (finish question t) w = outcome (do
      let suggestions ← suggest question.content t.answer
      remember "followup_suggestions" (.texts suggestions)
      rerun : Job σ Unit) kept := by
    have hshown : Shows shown.session entries := h
    unfold finish
    change outcome (addEntry (assistantEntry t) >>= _) shown = _
    rw [Job.outcome_bind, outcome_addEntry hshown]
    rfl
  obtain ⟨suggestions, w', hsuggest, hsession⟩ := returns_suggest question.content t.answer kept
  rw [hkept, Job.outcome_bind, show outcome (suggest question.content t.answer) kept = _ from hsuggest]
  refine ⟨rfl, .texts suggestions, ?_⟩
  change remembering w'.session "followup_suggestions" (.texts suggestions) = _
  rw [hsession]

private theorem brings_runAgent (conversation : List Remark) :
    (outcome (runAgent conversation) w).2.session = w.session ∧
      (outcome (runAgent conversation) w).1.toOption.map Turn.answer =
        if w.agentEvents.all isFollowed then
          some ((w.agentEvents.filterMap answerIn).getLastD (.text "")) else none :=
  brings_follow {} w.agentEvents
    { w with trace := { w.trace with consultations := w.trace.consultations ++ [.agent conversation] } }

/-- What a turn makes of a session: without an answer it is as before; else the turn is kept, and
suggestions are remembered. -/
def Concludes (s : Session) (entries : List Value) (message : Message) : Option Value → Session → Prop
  | none, s' => s' = s
  | some a, s' => ∃ t suggestions, t.answer = a ∧
      s' = remembering (keeping s entries message t) "followup_suggestions" suggestions

theorem concludes_reply [Outside σ] (h : Shows w.session entries) (hother : w.session.otherHistory = none)
    (message : Message) : Concludes w.session entries message (finalAnswer w.agentEvents)
      (outcome (reply message) w).2.session := by
  have hagent := brings_runAgent (w := w) (w.session.history.getD [] ++ [.message message])
  unfold reply
  rw [Job.outcome_bind, outcome_historyWith hother]
  dsimp only
  rw [Job.outcome_bind]
  generalize outcome (runAgent (w.session.history.getD [] ++ [.message message])) w = run at hagent ⊢
  obtain ⟨r, w₁⟩ := run
  obtain ⟨hsession, hanswer⟩ := hagent
  dsimp only at hsession hanswer ⊢
  cases hfollowed : w.agentEvents.all isFollowed with
  | false =>
    rw [hfollowed] at hanswer
    rw [finalAnswer, hfollowed]
    cases r with
    | ok t => cases hanswer
    | error e => exact hsession
  | true =>
    rw [hfollowed] at hanswer
    cases r with
    | error e => cases hanswer
    | ok t =>
      rw [finalAnswer_of_followed hfollowed (Option.some.inj hanswer)]
      let told : World σ := (outcome (put "update" []
        [("label", .text "✅ Analysis Complete"), ("state", .text "complete")]) w₁).2
      change Concludes _ _ _ _
        (outcome (if t.answer.truthy = true then finish message t else _) told).2.session
      cases t.answer.truthy with
      | false => exact hsession
      | true =>
        have hshown : Shows told.session entries := by
          rw [← hsession] at h
          exact h
        obtain ⟨-, suggestions, hfinish⟩ := outcome_finish hshown message t
        refine ⟨t, suggestions, rfl, ?_⟩
        rw [← hsession]
        exact hfinish

theorem concludes_ask [Outside σ] (h : Shows w.session entries) (hother : w.session.otherHistory = none)
    (question : Value) :
    Concludes (remembering w.session "messages" (.list (entries ++ [userEntry question])))
      (entries ++ [userEntry question]) { role := .human, content := question }
      (finalAnswer w.agentEvents) (outcome (ask question) w).2.session := by
  let asked : World σ :=
    { w with session := remembering w.session "messages" (.list (entries ++ [userEntry question])) }
  let shown : World σ := (outcome (do
    write "chat_message" "user"
    put "markdown" [question]
    write "chat_message" "assistant"
    put "empty"
    write "status" "🧠 Agent is reasoning...") asked).2
  have hshown : Shows shown.session (entries ++ [userEntry question]) := shows_remembering _ _
  have hreply := concludes_reply hshown hother { role := .human, content := question }
  have hrecover : (outcome (ask question) w).2.session =
      (outcome (reply { role := .human, content := question }) shown).2.session := by
    unfold ask
    rw [Job.outcome_bind, outcome_addEntry h]
    change (outcome (Job.recover (reply { role := .human, content := question }) _) shown).2.session = _
    apply Job.session_recover
    intro e w'
    exact ⟨rfl, fun _ _ => trivial⟩
  rw [hrecover]
  exact hreply

/-! Whole conversations -/

/-- A turn: the question, and what the agent yielded. -/
structure Exchange where
  question : Value
  events : List (Except String (List Message))

/-- What a turn leaves in the history: the question and its answer, if there is one. -/
def Exchange.remarks (x : Exchange) : List Remark :=
  match finalAnswer x.events with
  | none => []
  | some a => [.message { role := .human, content := x.question }, .message { role := .ai, content := a }]

/-- Who says what in a turn: the user asks, and the assistant answers if there is an answer. -/
def Exchange.said (x : Exchange) : List (Value × Value) :=
  match finalAnswer x.events with
  | none => [(.text "user", x.question)]
  | some a => [(.text "user", x.question), (.text "assistant", a)]

def saidIn : Value → Value × Value
  | .record fields => (Fields.get fields "role", Fields.get fields "content")
  | v => (.null, v)

/-- The page has come to this world by these turns, from a conversation in which nothing was said.
Whatever else happens meanwhile leaves the conversation alone. -/
inductive Talked [Outside σ] : List Exchange → World σ → Prop
  | start {w : World σ} (hentries : Shows w.session []) (hhistory : w.session.history.getD [] = [])
      (hother : w.session.otherHistory = none) : Talked [] w
  | turn {xs : List Exchange} {w : World σ} (question : Value) (hw : Talked xs w) :
      Talked (xs ++ [⟨question, w.agentEvents⟩]) (outcome (ask question) w).2
  | meanwhile {xs : List Exchange} {w w' : World σ}
      (hentries : w'.session.entries.lookup "messages" = w.session.entries.lookup "messages")
      (hhistory : w'.session.history = w.session.history)
      (hother : w'.session.otherHistory = w.session.otherHistory) (hw : Talked xs w) : Talked xs w'

/-- Both records of a conversation agree with its turns. -/
structure Records (xs : List Exchange) (s : Session) : Prop where
  history : s.history.getD [] = xs.flatMap Exchange.remarks
  entries : ∃ entries, Shows s entries ∧ entries.map saidIn = xs.flatMap Exchange.said
  other : s.otherHistory = none

private theorem Records.concludes {xs : List Exchange} {s s' : Session} {x : Exchange} (h : Records xs s)
    (hentries : entries.map saidIn = xs.flatMap Exchange.said)
    (hturn : Concludes (remembering s "messages" (.list (entries ++ [userEntry x.question])))
      (entries ++ [userEntry x.question]) { role := .human, content := x.question }
      (finalAnswer x.events) s') : Records (xs ++ [x]) s' := by
  have hasked : (entries ++ [userEntry x.question]).map saidIn =
      xs.flatMap Exchange.said ++ [(.text "user", x.question)] := by
    rw [List.map_append, hentries]
    rfl
  cases hanswer : finalAnswer x.events with
  | none =>
    rw [hanswer] at hturn
    have hremarks : x.remarks = [] := by rw [Exchange.remarks, hanswer]
    have hsaid : x.said = [(.text "user", x.question)] := by rw [Exchange.said, hanswer]
    rw [show s' = _ from hturn]
    constructor
    · rw [List.flatMap_append, List.flatMap_singleton, hremarks, List.append_nil]
      exact h.history
    · refine ⟨_, shows_remembering _ _, ?_⟩
      rw [List.flatMap_append, List.flatMap_singleton, hsaid, hasked]
    · exact h.other
  | some a =>
    rw [hanswer] at hturn
    obtain ⟨t, suggestions, rfl, rfl⟩ := hturn
    have hremarks : x.remarks = [.message { role := .human, content := x.question },
        .message { role := .ai, content := t.answer }] := by
      rw [Exchange.remarks, hanswer]
    have hsaid : x.said = [(.text "user", x.question), (.text "assistant", t.answer)] := by
      rw [Exchange.said, hanswer]
    constructor
    · rw [List.flatMap_append, List.flatMap_singleton, hremarks, ← h.history]
      rfl
    · refine ⟨_, Shows.remembering (shows_remembering _ _) (by decide) _, ?_⟩
      rw [List.map_append, hasked, List.flatMap_append, List.flatMap_singleton, hsaid,
        List.append_assoc]
      rfl
    · exact h.other

theorem records_of_talked [Outside σ] {xs : List Exchange} (h : Talked xs w) : Records xs w.session := by
  induction h with
  | start hentries hhistory hother => exact ⟨hhistory, ⟨[], hentries, rfl⟩, hother⟩
  | turn question _ ih =>
    obtain ⟨entries, hshows, hentries⟩ := ih.entries
    exact ih.concludes (x := ⟨question, _⟩) hentries (concludes_ask hshows ih.other question)
  | meanwhile hentries hhistory hother _ ih =>
    obtain ⟨entries, hshows, hsaid⟩ := ih.entries
    refine ⟨?_, ⟨entries, hentries.trans hshows, hsaid⟩, hother.trans ih.other⟩
    rw [hhistory]
    exact ih.history

/-- The history that the agent is given is made of the questions that were answered, each with its answer,
in order; a turn without an answer leaves it as it was. The entries that are shown are all the questions,
each with its answer behind it if there is one. -/
theorem conversation_recorded [Outside σ] {xs : List Exchange} {w : World σ} (h : Talked xs w) :
    w.session.history.getD [] = xs.flatMap Exchange.remarks ∧
    (∃ entries, Shows w.session entries ∧ entries.map saidIn = xs.flatMap Exchange.said) ∧
    ∀ question, finalAnswer w.agentEvents = none →
      (outcome (ask question) w).2.session.history = w.session.history := by
  have hrecords := records_of_talked h
  refine ⟨hrecords.history, hrecords.entries, ?_⟩
  intro question hnone
  obtain ⟨entries, hshows, _⟩ := hrecords.entries
  have hturn := concludes_ask hshows hrecords.other question
  rw [hnone] at hturn
  rw [show (outcome (ask question) w).2.session = _ from hturn]
  rfl

/-- A question is answered after the call of a tool. The next one has an answer, but then the agent
fails, and only the question is shown. -/
theorem conversation_recorded_after_failure :
    let speaks : Value → Message := fun content => { role := .ai, content }
    let calls : Message :=
      { role := .ai, content := "", toolCalls := .list [.record [("name", "t"), ("args", .record [])]] }
    let answered : List (Except String (List Message)) :=
      [.ok [calls], .ok [calls, { role := .tool, content := "r" }], .ok [speaks "yes"]]
    let broken : List (Except String (List Message)) := [.ok [speaks "no"], .error "limit"]
    let first : World Steady :=
      { outside := ⟨.rows [], .failed "down"⟩, agentEvents := answered
        session := { entries := [("messages", .list [])] } }
    let second : World Steady := { (outcome (ask "a") first).2 with agentEvents := broken }
    let w := (outcome (ask "b") second).2
    Talked [⟨"a", answered⟩, ⟨"b", broken⟩] w ∧
      w.session.history.getD [] = [.message { role := .human, content := "a" }, .message (speaks "yes")] ∧
      ∃ entries, Shows w.session entries ∧
        entries.map saidIn =
          [(.text "user", .text "a"), (.text "assistant", .text "yes"), (.text "user", .text "b")] := by
  intro speaks calls answered broken first second w
  have hfirst : Talked [] first := .start rfl rfl rfl
  have hasked : Talked [⟨"a", answered⟩] (outcome (ask "a") first).2 := .turn "a" hfirst
  have hsecond : Talked [⟨"a", answered⟩] second := by
    apply Talked.meanwhile _ _ _ hasked <;> rfl
  have hw : Talked [⟨"a", answered⟩, ⟨"b", broken⟩] w := .turn "b" hsecond
  obtain ⟨hhistory, hentries, _⟩ := conversation_recorded hw
  exact ⟨hw, hhistory, hentries⟩

end ThreatAtlas.Dashboard.Conversation
