import ThreatAtlas.Value.Access

/-!
# Settings

What the environment may set, and what holds when it does not. The environment gives texts and numbers;
a setting that is overridden may be any value.
-/

namespace ThreatAtlas

structure Settings where
  projectName : Value := "Cyber Ontology Graph"
  graphUri : Value := "bolt://localhost:7687"
  graphUser : Value := "neo4j"
  graphPassword : Value := "password1234!"
  graphDatabase : Value := "neo4j"
  provider : Value := "ollama"
  ollamaUrl : Value := "http://localhost:11434"
  ollamaModel : Value := "llama3.1"
  ollamaContext : Value := .int 8192
  openAIKey : Value := ""
  openAIModel : Value := "gpt-4o"
  temperature : Value := .real 0.0
  schemaLimit : Value := .int 50
  /-- The graph named on the console's banner; the environment does not set it. -/
  dataGraph : Option Value := none

namespace Settings

def usesOpenAI (s : Settings) : Bool :=
  s.provider == .text "openai"

def usesOllama (s : Settings) : Bool :=
  s.provider == .text "ollama"

def readFloat (s : String) : Except Failure Float :=
  match Number.readFloat? s with
  | some x => .ok x
  | none => .error (.malformed s!"could not convert string to float: {Text.quoted s}")

def ofEnvironment (env : List (String × String)) : Except Failure Settings := do
  let get (name : String) (usual : Value) : Value := ((env.lookup name).map .text).getD usual
  let plain : Settings := {}
  let context ← (get "OLLAMA_NUM_CTX" "8192").toInt
  let temperature ← readFloat ((env.lookup "LLM_TEMPERATURE").getD "0.0")
  return {
    projectName := get "PROJECT_NAME" plain.projectName
    graphUri := get "NEO4J_URI" plain.graphUri
    graphUser := get "NEO4J_USER" plain.graphUser
    graphPassword := get "NEO4J_PASSWORD" plain.graphPassword
    graphDatabase := get "NEO4J_DATABASE" plain.graphDatabase
    provider := .text (Text.lower (get "LLM_PROVIDER" plain.provider).display)
    ollamaUrl := get "OLLAMA_BASE_URL" plain.ollamaUrl
    ollamaModel := get "OLLAMA_MODEL" plain.ollamaModel
    ollamaContext := .int context
    openAIKey := get "OPENAI_API_KEY" plain.openAIKey
    openAIModel := get "OPENAI_MODEL" plain.openAIModel
    temperature := .real temperature }

def toFields (s : Settings) : Fields :=
  [("PROJECT_NAME", s.projectName),
    ("NEO4J_URI", s.graphUri),
    ("NEO4J_USERNAME", s.graphUser),
    ("NEO4J_PASSWORD", s.graphPassword),
    ("NEO4J_DATABASE", s.graphDatabase),
    ("LLM_PROVIDER", s.provider),
    ("OLLAMA_BASE_URL", s.ollamaUrl),
    ("OLLAMA_MODEL", s.ollamaModel),
    ("OLLAMA_NUM_CTX", s.ollamaContext),
    ("OPENAI_API_KEY", s.openAIKey),
    ("OPENAI_MODEL", s.openAIModel),
    ("LLM_TEMPERATURE", s.temperature),
    ("SCHEMA_LOOKUP_LIMIT", s.schemaLimit)]

def override (s : Settings) : Fields → Settings
  | [] => s
  | (name, v) :: rest =>
    let s := match name with
      | "PROJECT_NAME" => { s with projectName := v }
      | "NEO4J_URI" => { s with graphUri := v }
      | "NEO4J_USERNAME" => { s with graphUser := v }
      | "NEO4J_PASSWORD" => { s with graphPassword := v }
      | "NEO4J_DATABASE" => { s with graphDatabase := v }
      | "LLM_PROVIDER" => { s with provider := v }
      | "OLLAMA_BASE_URL" => { s with ollamaUrl := v }
      | "OLLAMA_MODEL" => { s with ollamaModel := v }
      | "OLLAMA_NUM_CTX" => { s with ollamaContext := v }
      | "OPENAI_API_KEY" => { s with openAIKey := v }
      | "OPENAI_MODEL" => { s with openAIModel := v }
      | "LLM_TEMPERATURE" => { s with temperature := v }
      | "SCHEMA_LOOKUP_LIMIT" => { s with schemaLimit := v }
      | "CYBER_DATA_GRAPH" => { s with dataGraph := some v }
      | _ => s
    s.override rest

end Settings

end ThreatAtlas
