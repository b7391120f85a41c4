import ThreatAtlas.Dashboard.Clues
import ThreatAtlas.Dashboard.Conversation
import ThreatAtlas.Dashboard.Exploration
import ThreatAtlas.Dashboard.Extraction
import ThreatAtlas.Dashboard.Overview
import ThreatAtlas.Dashboard.Profiles

/-!
# The pages of the dashboard
-/

namespace ThreatAtlas.Dashboard

inductive Page where
  | overview | profiles | clues | exploration | extraction | conversation
deriving Repr, DecidableEq

variable {σ : Type} [Outside σ]

def Page.run : Page → Job σ Unit
  | .overview => Overview.run
  | .profiles => Profiles.run
  | .clues => Clues.run
  | .exploration => Exploration.run
  | .extraction => Extraction.run
  | .conversation => Conversation.run

/-- Runs a part of a page. Asking for the page to be run again ends it, and is not a failure; then there
is no result. -/
def untilRerun (job : Job σ α) : Job σ (Option α) :=
  tryCatch (some <$> job) fun e => match e with
    | .rerun => return none
    | e => throw e

end ThreatAtlas.Dashboard
