import ThreatAtlas.Job

/-!
# What the console shows
-/

namespace ThreatAtlas.Console

inductive Edition where
  | classic
  | reasoning
deriving Repr, DecidableEq

def Edition.version : Edition → String
  | .classic => "v9.0"
  | .reasoning => "v9.5 - Reasoning"

def isMargin (c : Char) : Bool :=
  c == ' ' || c == '\t'

def commonStart : List Char → List Char → List Char
  | c :: cs, d :: ds => if c == d then c :: commonStart cs ds else []
  | _, _ => []

/-- Lines without the margin that all lines but blank ones share; blank lines become empty. -/
def dedent (lines : List String) : List String :=
  let chars := lines.map String.toList
  let chars := chars.map fun cs => if cs.all isMargin then [] else cs
  let margins := (chars.filter (!·.isEmpty)).map (·.takeWhile isMargin)
  let margin := match margins with
    | [] => []
    | m :: ms => ms.foldl commonStart m
  chars.map fun cs => String.ofList (if margin.isPrefixOf cs then cs.drop margin.length else cs)

/-- The head of every screen, which names the graph. The graph must be set. -/
def banner (edition : Edition) (s : Settings) : Except Failure String := do
  match s.dataGraph with
  | none => .error (.noMember "Settings" "CYBER_DATA_GRAPH")
  | some graph =>
    let provider ← s.provider.asText "upper"
    let text := "
        ============================================================
         🛡️ Cyber Ontology Intelligence CLI (" ++ edition.version ++ ")
         - Target Graph: " ++ graph.display ++ "
         - LLM Provider: " ++ Text.upper provider ++ "
        ============================================================
    "
    return Text.strip ("\n".intercalate (dedent (Text.split '\n' text)))

def rule : String := Text.repeated '-' 60

variable {σ : Type}

def showBanner (edition : Edition) : Job σ Unit := do
  Job.say (← banner edition (← Job.settings))

def showSection (title : String) : Job σ Unit :=
  Job.say s!"\n{rule}\n 🔍 {title}\n{rule}"

def showEvidence (facts : Value) : Job σ Unit := do
  showSection "Evidence Trace (Ontology Facts)"
  (← facts.elements).zipIdx.forM fun (fact, i) => Job.say s!" {i + 1}. {fact.display}"
  Job.say (rule ++ "\n")

def showAnalysis (text : Value) : Job σ Unit := do
  Job.say " 🤖 [AI Analyst Report]"
  Job.say rule
  Job.say text.display
  Job.say (rule ++ "\n")

end ThreatAtlas.Console
