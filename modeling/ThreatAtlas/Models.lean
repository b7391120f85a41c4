import ThreatAtlas.Job

/-!
# Setting up language models
-/

namespace ThreatAtlas

namespace Model

def ofSettings (s : Settings) (temperature : Value) : Model :=
  if s.usesOpenAI then
    ⟨.openAI, [("model", s.openAIModel), ("api_key", s.openAIKey), ("temperature", temperature)]⟩
  else
    ⟨.ollama, [("model", s.ollamaModel), ("temperature", temperature), ("base_url", s.ollamaUrl)]⟩

def bare (s : Settings) : Model :=
  if s.usesOpenAI then ⟨.openAI, [("model", s.openAIModel), ("temperature", .int 0)]⟩
  else ⟨.ollama, [("model", s.ollamaModel), ("temperature", .int 0)]⟩

end Model

variable {σ : Type} [Outside σ]

/-- Has a model write an analysis. An error takes the place of its text. -/
def Job.analyse (instructions question : String) : Job σ Value := do
  let s ← Job.settings
  Job.recover
    (Job.consultText
      { model := .ofSettings s (.int 0)
        prompt := .messages [(.system, instructions), (.human, question)] })
    fun e => return .text s!"AI Analysis Failed: {e.message}"

end ThreatAtlas
