import ThreatAtlas.Proofs.Sending
import ThreatAtlas.Proofs.Text.Case
import ThreatAtlas.Toolbox.Catalogue
import ThreatAtlas.Toolbox.Server

/-!
# Guards of queries

A model may hand in a query of its own to the tools of the agent and to the server, if it only reads.
Each of them has a list of words it refuses. The words of the server are those of all clauses that write;
the agent's tool lacks two of them, and sends what the server refuses on their account.
-/

namespace ThreatAtlas.Toolbox

open Job (outcome Sends)
open Text (Spelled)

/-- The words that begin a clause which changes nodes, relationships or the schema. -/
def clauseWords : List String :=
  ["CREATE", "DELETE", "DETACH", "SET", "MERGE", "REMOVE", "DROP"]

private theorem mentions_of_spelled {words : List String} {word q : String} (hword : word ∈ words)
    (hplain : ∀ c ∈ word.toList, c.toNat < 128) (h : Spelled word q) : mentions words q = true :=
  List.any_eq_true.mpr ⟨word, hword, Text.contains_upper_of_spelled hplain h⟩

private theorem clauseWords_plain : ∀ word ∈ clauseWords, ∀ c ∈ word.toList, c.toNat < 128 := by
  simp [clauseWords]

private theorem mentions_append (words more : List String) (q : String) :
    mentions (words ++ more) q = (mentions words q || mentions more q) :=
  List.any_append

section

variable {σ : Type} [Outside σ]

theorem run_runQuery (query : Value) :
    (Tool.run .runQuery [("query", query)] : Job σ String) = runQuery query := rfl

private theorem call_runQuery (query : Value) :
    (Server.call "run_cypher_query" [("query", query)] : Job σ String) = Server.runQuery query := rfl

theorem outcome_runQuery_of_mentions {q : String} (w : World σ)
    (h : mentions writingWords q = true) :
    outcome (runQuery (.text q)) w = (.ok "Error: Read-only only.", w) := by
  unfold runQuery
  rw [Job.outcome_bind, Job.outcome_lift]
  dsimp only [Value.asText]
  rw [if_pos h, Job.outcome_pure]

private theorem Server.outcome_runQuery_of_mentions {q : String} (w : World σ)
    (h : mentions Server.writingWords q = true) :
    outcome (Server.runQuery (.text q)) w =
      (.ok "Error: Only read-only queries are allowed.", w) := by
  unfold Server.runQuery
  rw [Job.outcome_bind, Job.outcome_lift]
  dsimp only [Value.asText]
  rw [if_pos h, Job.outcome_pure]

private theorem sends_runQuery {q : String} (w : World σ) (h : mentions writingWords q = false) :
    Sends (runQuery (.text q)) w (if w.connected then [⟨q, []⟩] else []) := by
  unfold runQuery Sends
  rw [Job.outcome_bind, Job.outcome_lift]
  dsimp only [Value.asText]
  rw [if_neg (Bool.eq_false_iff.mp h)]
  apply Job.sends_recover_of_silent
  · exact Job.sends_bind_of_silent (Job.sends_ask q [] w) fun _ _ => Job.sends_pure _ _
  · exact fun _ _ => Job.sends_pure _ _

/-- The server refuses a query in which the word of any writing clause stands, in whatever case, and sends
nothing. The agent's tool refuses it on account of every word but two. It sends the query, as it is,
exactly when there is a graph and none of its own words is in the query; what it refuses the server
refuses as well, and the server refuses more only for the two words. -/
theorem guards_refuse_writing (q : String) (w : World σ) :
    (∀ word ∈ clauseWords, Spelled word q →
      outcome (Server.call "run_cypher_query" [("query", .text q)]) w =
        (.ok "Error: Only read-only queries are allowed.", w)) ∧
    (∀ word ∈ clauseWords, Spelled word q → word ≠ "REMOVE" → word ≠ "DROP" →
      outcome (Tool.run .runQuery [("query", .text q)]) w = (.ok "Error: Read-only only.", w)) ∧
    Sends (Tool.run .runQuery [("query", .text q)]) w
      (if w.connected && !mentions writingWords q then [⟨q, []⟩] else []) ∧
    mentions Server.writingWords q =
      (mentions writingWords q || mentions ["DROP", "REMOVE"] q) := by
  rw [run_runQuery, call_runQuery]
  refine ⟨?_, ?_, ?_, mentions_append _ _ q⟩
  · intro word hword hspelled
    have hlisted : word ∈ Server.writingWords := by
      revert hword
      simp only [clauseWords, Server.writingWords, writingWords, List.mem_append, List.mem_cons]
      tauto
    exact Server.outcome_runQuery_of_mentions w
      (mentions_of_spelled hlisted (clauseWords_plain word hword) hspelled)
  · intro word hword hspelled hremove hdrop
    have hlisted : word ∈ writingWords := by
      revert hword
      simp only [clauseWords, writingWords, List.mem_cons]
      tauto
    exact outcome_runQuery_of_mentions w
      (mentions_of_spelled hlisted (clauseWords_plain word hword) hspelled)
  · cases hmentions : mentions writingWords q with
    | true =>
      rw [Bool.not_true, Bool.and_false]
      exact Job.sends_nil_of_outcome (outcome_runQuery_of_mentions w hmentions)
    | false =>
      rw [Bool.not_false, Bool.and_true]
      exact sends_runQuery w hmentions

end

/-- A query that takes a property away is sent by the agent's tool, although the server refuses it. -/
theorem guards_disagree_on_remove :
    let q := "MATCH (n) Remove n.x RETURN n"
    let w : World Steady := { outside := ⟨.rows [], .content .null⟩ }
    Spelled "REMOVE" q ∧ Sends (Tool.run .runQuery [("query", .text q)]) w [⟨q, []⟩] ∧
      outcome (Server.call "run_cypher_query" [("query", .text q)]) w =
        (.ok "Error: Only read-only queries are allowed.", w) := by
  intro q w
  have hspelled : Spelled "REMOVE" q :=
    ⟨"MATCH (n) ".toList, "Remove".toList, " n.x RETURN n".toList, by decide +kernel,
      by decide +kernel⟩
  have hmentions : mentions writingWords q = false := by decide +kernel
  obtain ⟨hserver, -, hsends, -⟩ := guards_refuse_writing q w
  rw [hmentions] at hsends
  exact ⟨hspelled, hsends, hserver "REMOVE" (by simp [clauseWords]) hspelled⟩

end ThreatAtlas.Toolbox
