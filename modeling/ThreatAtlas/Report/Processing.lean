import ThreatAtlas.Indicator.Extract
import ThreatAtlas.Indicator.Validity
import ThreatAtlas.Report.Grounding
import ThreatAtlas.Report.Observed

/-!
# From text to report

A model reads the text into a report; indicators it left out are added; then every entity is checked,
cleaned, checked again and grounded.
-/

namespace ThreatAtlas.Report

def extractionInstructions : String := "
            You are a CTI Analyst performing 'Exhaustive Entity Extraction'.
            
            [STEP 1: CLASSIFICATION]
            Determine the `category` of the text:
            - **Incident**: A specific breach event targeting a specific organization (e.g., \"Bithumb Hacked\").
            - **MalwareReport**: Technical analysis of a malware family (e.g., \"Analysis of EtherRAT\").
            - **ThreatReport**: Tracking a threat group's campaign (e.g., \"Lazarus Group's new campaign\").
            - **VulnerabilityReport**: Analysis of a specific CVE (e.g., \"Deep dive into Log4Shell\").

            [STEP 2: EXTRACTION]
            1. **EXTRACT EVERYTHING**: Extract all domains, hashes, IPs individually.
            2. **Mappings**: Assign entities to the most relevant Attack Step.
            3. **Context**: If it's a 'MalwareReport', the steps should describe the malware's execution flow.
            
            [EXCLUSION RULES]
            - Ignore placeholders like '\x7b\x7b IP Address \x7d\x7d'.
            - Ignore generic terms like 'Malware', 'Unknown'.
            "

variable {σ : Type} [Outside σ]

def read (model : Model) (text : String) : Job σ (Option Report) :=
  Job.consultShaped
    { model
      prompt := .template [(.system, extractionInstructions), (.human, "\x7btext\x7d")]
        [("text", .text text)]
      shape := some "IntelligenceReport" }
    decode

def settle (model : Model) : List Entity → Job σ (List Entity)
  | [] => return []
  | e :: es => do
    if e.isValid && e.cleaned.isValid then
      let grounded ← e.cleaned.ground model
      return grounded :: (← settle model es)
    else settle model es

def settleSteps (model : Model) : List Step → Job σ (List Step)
  | [] => return []
  | s :: ss => do
    let entities ← settle model s.entities
    return { s with entities } :: (← settleSteps model ss)

/-- Reads, completes and settles the report of a text, with the model of these settings. -/
def process (s : Settings) (text : String) : Job σ Report := do
  let model := Model.ofSettings s (.int 0)
  match ← read model text with
  | none => throw (.noMember Value.Kind.null.word "attack_flow")
  | some r =>
    let r := r.addObserved (Indicator.extract text)
    return { r with steps := ← settleSteps model r.steps }

end ThreatAtlas.Report
