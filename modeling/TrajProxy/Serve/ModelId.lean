import TrajProxy.Library.Separator
import TrajProxy.Manager.Coherence

/-! The ids of models: `list_models_openai` writes `model_name,run_id`, and
`chat_completions` reads them. A name may have commas and outer spaces, which
`validate_run_id` and `register_model` keep out of a run id only. -/

namespace TrajProxy.Serve
open Manager

/-- `DEFAULT_RUN_ID` -/
def defaultRunId : String := "DEFAULT"

def normalizeRunId : Option String → String
  | none => defaultRunId
  | some runId => if runId = "" then defaultRunId else runId

def validateRunId (runId : String) : Bool × String :=
  if ',' ∈ runId.toList then (false, "run_id 不能包含逗号")
  else if 50 < runId.length then
    (false, "run_id 长度不能超过 50 个字符，当前 " ++ toString runId.length ++ " 个字符")
  else (true, "")

def validateModelName (modelName : String) : Bool × String :=
  if Text.isBlank modelName then (false, "model_name 不能为空") else (true, "")

def validateModelForInference (model : String) : Bool × String × String :=
  if Text.isBlank model then (false, "model 不能为空", "")
  else match Text.splitOnce ',' model with
    | some (before, _) =>
      if Text.strip before = "" then (false, "model 格式无效，逗号前不能为空", "")
      else (true, "", Text.strip before)
    | none => (true, "", Text.strip model)

/-- `_extract_run_id` -/
def extractRunId (model : String) (xRunId runId : Option String) : String :=
  if Text.strip (runId.getD "") ≠ "" then normalizeRunId (some (Text.strip (runId.getD "")))
  else if xRunId.getD "" ≠ "" then normalizeRunId (some (Text.strip (xRunId.getD "")))
  else match Text.splitOnce ',' model with
    | some (_, after) => normalizeRunId (some (Text.strip after))
    | none => normalizeRunId none

/-- `_extract_actual_model` -/
def extractActualModel (model : String) : String :=
  match Text.splitOnce ',' model with
  | some (before, _) => Text.strip before
  | none => Text.strip model

/-- The key under which `chat_completions` looks for a Processor, or the text of its
422. -/
def requestedKey (model : String) (xRunId runId : Option String) : Except String Key :=
  let valid := validateModelForInference model
  if valid.1 then .ok (extractRunId model xRunId runId, extractActualModel model)
  else .error valid.2.1

/-- A body of `register_model` that its validators let through. -/
structure RegisterModelRequest where
  fields : State.Registration
  runIdValid : (validateRunId fields.runId).1 = true
  modelNameValid : (validateModelName fields.modelName).1 = true

namespace RegisterModelRequest

/-- `normalize_run_id(req.run_id.strip())` -/
def runId (req : RegisterModelRequest) : String :=
  normalizeRunId (some (Text.strip req.fields.runId))

def key (req : RegisterModelRequest) : Key := (req.runId, req.fields.modelName)

def registration (req : RegisterModelRequest) : State.Registration :=
  { req.fields with runId := req.runId }

end RegisterModelRequest

/-- `register_model` up to the DB write. -/
def registerModel (s : State) (req : RegisterModelRequest) (resolve : String → Option String)
    (address now : Nat) : State :=
  s.registerDynamic req.registration resolve true address now

/-- The id of a model in the OpenAI format. -/
def modelId (key : Key) : String := if key.1 = "" then key.2 else key.2 ++ "," ++ key.1

/-- The ids of `list_models_openai`; the order of a set is left open by the source. -/
def listModelsOpenai (s : State) : List String :=
  (s.configConfigs.keys ++ s.dynamicConfigs.keys).dedup.filterMap fun key =>
    (s.effective key).map fun config => modelId config.key

variable {req : RegisterModelRequest}

section RunId

theorem notMem_runId (req : RegisterModelRequest) : ',' ∉ req.runId.toList := by
  have valid := req.runIdValid
  have fresh : ',' ∉ req.fields.runId.toList := by
    intro mem
    rw [validateRunId, if_pos mem] at valid
    nomatch valid
  unfold RegisterModelRequest.runId normalizeRunId
  dsimp only
  split_ifs
  · decide
  · exact fun mem => fresh (Text.mem_of_mem_strip mem)

theorem normalizeRunId_ne (runId : Option String) : normalizeRunId runId ≠ "" := by
  unfold normalizeRunId
  cases runId with
  | none => decide
  | some runId =>
    dsimp only
    split_ifs with empty
    · decide
    · exact empty

theorem runId_ne (req : RegisterModelRequest) : req.runId ≠ "" := normalizeRunId_ne _

@[simp] theorem strip_runId (req : RegisterModelRequest) : Text.strip req.runId = req.runId := by
  unfold RegisterModelRequest.runId normalizeRunId
  dsimp only
  split_ifs
  · decide
  · exact Text.strip_strip _

theorem normalizeRunId_of_ne {runId : String} (nonempty : runId ≠ "") :
    normalizeRunId (some runId) = runId := if_neg nonempty

end RunId

section Ids

theorem toList_modelId (req : RegisterModelRequest) :
    (modelId req.key).toList = req.fields.modelName.toList ++ ',' :: req.runId.toList := by
  unfold RegisterModelRequest.key
  rw [modelId, if_neg (runId_ne req), String.toList_append, String.toList_append]
  simp

/-- No two keys share an id: the run id is what follows the last comma. -/
theorem modelId_injective {req other : RegisterModelRequest}
    (same : modelId req.key = modelId other.key) : req.key = other.key := by
  have texts := congrArg String.toList same
  rw [toList_modelId, toList_modelId] at texts
  obtain ⟨names, runIds⟩ := Text.join_inj (notMem_runId req) (notMem_runId other) texts
  unfold RegisterModelRequest.key
  rw [String.toList_injective runIds, String.toList_injective names]

theorem not_isBlank_modelName (req : RegisterModelRequest) :
    Text.isBlank req.fields.modelName = false := by
  have valid := req.modelNameValid
  rw [validateModelName] at valid
  by_contra blank
  rw [if_pos (Bool.eq_true_of_not_eq_false blank)] at valid
  nomatch valid

theorem not_isBlank_modelId (req : RegisterModelRequest) :
    Text.isBlank (modelId req.key) = false := by
  have name := not_isBlank_modelName req
  rw [Text.isBlank] at name ⊢
  rw [toList_modelId, List.all_append, name, Bool.false_and]

/-- An id whose name has no comma is read at that comma. -/
theorem requestedKey_of_notMem (fresh : ',' ∉ req.fields.modelName.toList) :
    requestedKey (modelId req.key) none none =
      .ok (req.runId, Text.strip req.fields.modelName) := by
  have split := Text.splitOnce_join fresh (toList_modelId req)
  have name : Text.strip req.fields.modelName ≠ "" := fun empty =>
    Bool.false_ne_true ((not_isBlank_modelName req).symm.trans (Text.strip_eq_empty_iff.mp empty))
  have runId : extractRunId (modelId req.key) none none = req.runId := by
    rw [extractRunId, if_neg (by decide), if_neg (by decide), split]
    dsimp only
    rw [strip_runId, normalizeRunId_of_ne (runId_ne req)]
  have model : extractActualModel (modelId req.key) = Text.strip req.fields.modelName := by
    rw [extractActualModel, split]
  unfold requestedKey validateModelForInference
  rw [not_isBlank_modelId, split, runId, model]
  dsimp only
  rw [if_neg name]
  rfl

/-- What is read as the name has no comma. -/
theorem notMem_requestedKey {model : String} {key : Key}
    (read : requestedKey model none none = .ok key) : ',' ∉ key.2.toList := by
  unfold requestedKey at read
  dsimp only at read
  split_ifs at read
  cases read
  unfold extractActualModel
  cases split : Text.splitOnce ',' model with
  | none => exact fun mem => Text.splitOnce_eq_none_iff.mp split (Text.mem_of_mem_strip mem)
  | some parts => exact fun mem => (Text.splitOnce_eq_some split).2 (Text.mem_of_mem_strip mem)

/-- The condition on a name: no comma and no outer spaces. -/
def Plain (modelName : String) : Prop :=
  ',' ∉ modelName.toList ∧ Text.strip modelName = modelName

theorem requestedKey_modelId_iff (req : RegisterModelRequest) :
    requestedKey (modelId req.key) none none = .ok req.key ↔ Plain req.fields.modelName := by
  constructor
  · intro read
    have fresh : ',' ∉ req.fields.modelName.toList := notMem_requestedKey read
    rw [requestedKey_of_notMem fresh] at read
    exact ⟨fresh, congrArg Prod.snd (Except.ok.inj read)⟩
  · rintro ⟨fresh, plain⟩
    rw [requestedKey_of_notMem fresh, plain]
    rfl

end Ids

section Listed

variable {s : State} {resolve : String → Option String} {address now : Nat}

theorem effective_registerModel (address : Nat)
    (accepted : (s.newConfig req.registration resolve now).isSome) :
    ∃ config, (registerModel s req resolve address now).effective req.key = some config ∧
      config.key = req.key ∧
      req.key ∈ (registerModel s req resolve address now).dynamicConfigs := by
  obtain ⟨config, made⟩ := Option.isSome_iff_exists.mp accepted
  have key : config.key = req.key := by
    rw [State.newConfig_key made, RegisterModelRequest.key, RegisterModelRequest.registration]
  have fresh := (State.newConfig_absent made).1
  rw [key] at fresh
  refine ⟨⟨address, config⟩, ?_, key, ?_⟩
  · unfold registerModel State.registerDynamic State.registerFromConfig State.effective
    rw [made]
    dsimp only
    rw [fresh, Option.none_or, ← key]
    exact OrderedDict.get_setItem_self _ _ _
  · unfold registerModel State.registerDynamic State.registerFromConfig
    rw [made]
    exact (OrderedDict.mem_setItem _ _ _ _).mpr (.inl key.symm)

/-- A model that was registered is listed under its id. -/
theorem mem_listModelsOpenai (accepted : (s.newConfig req.registration resolve now).isSome) :
    modelId req.key ∈ listModelsOpenai (registerModel s req resolve address now) := by
  obtain ⟨config, effective, key, mem⟩ := effective_registerModel address accepted
  rw [listModelsOpenai, List.mem_filterMap]
  refine ⟨req.key, ?_, by rw [effective, Option.map_some, key]⟩
  rw [List.mem_dedup, List.mem_append]
  exact .inr (AList.mem_keys.mp mem)

end Listed

/-- The id of a registered model, sent as the model of a request, leads back to it. -/
structure IdLeadsBack (req : RegisterModelRequest) : Prop where
  listed : ∀ (s : State) (resolve : String → Option String) (address now : Nat),
    (s.newConfig req.registration resolve now).isSome →
      modelId req.key ∈ listModelsOpenai (registerModel s req resolve address now)
  read : requestedKey (modelId req.key) none none = .ok req.key
  unshared : ∀ other : RegisterModelRequest, modelId other.key = modelId req.key →
    other.key = req.key

/-- The ids that lead back are those of names without commas and outer spaces. -/
theorem idLeadsBack_iff (req : RegisterModelRequest) :
    IdLeadsBack req ↔ Plain req.fields.modelName := by
  rw [← requestedKey_modelId_iff]
  constructor
  · exact IdLeadsBack.read
  · exact fun read => ⟨fun _ _ _ _ => mem_listModelsOpenai, read, fun _ => modelId_injective⟩

/-- A model of this name and run id. -/
def namedRequest (modelName runId : String) (runIdValid : (validateRunId runId).1 = true)
    (modelNameValid : (validateModelName modelName).1 = true) : RegisterModelRequest where
  fields := ⟨modelName, "http://infer", "key", none, false, runId, "", ""⟩
  runIdValid := runIdValid
  modelNameValid := modelNameValid

/-- A comma in the name is taken for the one before the run id. -/
theorem comma_not_read_back : ¬∀ req : RegisterModelRequest, IdLeadsBack req := by
  intro all
  have runId : (validateRunId "r").1 = true := by decide +kernel
  have modelName : (validateModelName "org,model").1 = true := by decide +kernel
  have plain : Plain "org,model" :=
    (requestedKey_modelId_iff (namedRequest "org,model" "r" runId modelName)).mp (all _).read
  exact plain.1 (by decide)

end TrajProxy.Serve
