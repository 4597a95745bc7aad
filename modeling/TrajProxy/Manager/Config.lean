import TrajProxy.Library.OrderedDict

/-! Model configurations and the Processors built from them.
A `ConfigRef` is one `ModelConfig` object: the address makes two objects with
the same fields different for `is`. The source never assigns to a field of a
`ModelConfig`, so equality of references is equality of both parts. -/

namespace TrajProxy.Manager

/-- `(run_id, model_name)` -/
abbrev Key := String × String

instance : LawfulBEq Key := inferInstance

structure ModelConfig where
  url : String
  apiKey : String
  tokenizerPath : Option String
  runId : String
  modelName : String
  tokenInTokenOut : Bool
  toolParser : String
  reasoningParser : String
  updatedAt : Option Nat
  deriving DecidableEq

def ModelConfig.key (config : ModelConfig) : Key := (config.runId, config.modelName)

structure ConfigRef where
  address : Nat
  config : ModelConfig
  deriving DecidableEq

def ConfigRef.key (ref : ConfigRef) : Key := ref.config.key

/-- The comparison `full_sync` makes between a stored and a fetched row. -/
def ModelConfig.SameFields (existing config : ModelConfig) : Prop :=
  existing.tokenizerPath = config.tokenizerPath ∧
    existing.tokenInTokenOut = config.tokenInTokenOut ∧
    existing.url = config.url ∧
    existing.apiKey = config.apiKey ∧
    existing.toolParser = config.toolParser ∧
    existing.reasoningParser = config.reasoningParser

instance (c d : ModelConfig) : Decidable (c.SameFields d) :=
  inferInstanceAs (Decidable (_ ∧ _))

/-- A string argument that Python takes for false. -/
def blank : Option String → Bool
  | none => true
  | some s => s = ""

structure InferClient where
  baseUrl : String
  apiKey : String
  deriving DecidableEq

structure Processor where
  model : String
  runId : String
  tokenizerPath : Option String
  inferClient : InferClient
  tokenInTokenOut : Bool
  toolParserName : String
  reasoningParserName : String
  updatedAt : Option Nat
  deriving DecidableEq

/-- `base_url.rstrip("/")` -/
def rstripSlash (s : String) : String :=
  String.ofList (s.toList.reverse.dropWhile (· = '/')).reverse

/-- `_build_processor`: the only argument check is `_create_processor`'s; a
tokenizer that does not load is a failure of the step that builds. -/
def buildProcessor (config : ModelConfig) : Option Processor :=
  if config.tokenInTokenOut && blank config.tokenizerPath then none
  else some
    { model := config.modelName
      runId := config.runId
      tokenizerPath := config.tokenizerPath
      inferClient := ⟨rstripSlash config.url, config.apiKey⟩
      tokenInTokenOut := config.tokenInTokenOut
      toolParserName := config.toolParser
      reasoningParserName := config.reasoningParser
      updatedAt := config.updatedAt }

/-- A Processor together with the configuration it was built from. -/
structure Loaded where
  config : ModelConfig
  processor : Processor
  built : buildProcessor config = some processor

def load (config : ModelConfig) : Option Loaded :=
  match h : buildProcessor config with
  | some processor => some ⟨config, processor, h⟩
  | none => none

theorem load_config {config : ModelConfig} {loaded : Loaded} (h : load config = some loaded) :
    loaded.config = config := by
  unfold load at h
  split at h
  · cases h
    rfl
  · cases h

theorem SameFields.refl (c : ModelConfig) : c.SameFields c := ⟨rfl, rfl, rfl, rfl, rfl, rfl⟩

theorem SameFields.symm {c d : ModelConfig} (h : c.SameFields d) : d.SameFields c := by
  obtain ⟨path, tito, url, key, tool, reasoning⟩ := h
  exact ⟨path.symm, tito.symm, url.symm, key.symm, tool.symm, reasoning.symm⟩

end TrajProxy.Manager
