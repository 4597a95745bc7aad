import TrajProxy.Library.Json

/-! The request bodies of `InferClient`: `_transform_chat_params_to_completion`,
`_build_completion_body` and `_build_chat_body`. A dictionary of keyword
arguments keeps the order in which the client's keys came. -/

namespace TrajProxy.Infer

/-- `_CHAT_TO_COMPLETION_INCOMPATIBLE` -/
def chatToCompletionIncompatible : List String :=
  ["response_format", "logit_bias", "echo", "tools", "tool_choice", "parallel_tool_calls",
    "reasoning_effort", "include_reasoning", "add_generation_prompt", "continue_final_message",
    "documents", "chat_template", "chat_template_kwargs", "mm_processor_kwargs"]

/-- `_CHAT_TO_COMPLETION_MAPPINGS` -/
def chatToCompletionMappings : Items String := [("max_completion_tokens", "max_tokens")]

/-- The first loop of the transformation: a mapped key is written under its new
name. -/
def mapParam (result : Items Json) (item : String × Json) : Items Json :=
  match chatToCompletionMappings.get? item.1 with
  | some newKey => result.set newKey item.2
  | none => result

/-- The second loop: the other keys, where none of that name is there yet. -/
def keepParam (result : Items Json) (item : String × Json) : Items Json :=
  if item.1 ∈ chatToCompletionIncompatible then result
  else if (chatToCompletionMappings.get? item.1).isSome then result
  else if (result.get? item.1).isSome then result
  else result.set item.1 item.2

/-- `_transform_chat_params_to_completion` -/
def transformChatParamsToCompletion (kwargs : Items Json) : Items Json :=
  kwargs.foldl keepParam (kwargs.foldl mapParam [])

/-- The last loop of both bodies: what is not `None` and has no field of its own
is passed on. -/
def passOn (handledParams : List String) (params body : Items Json) : Items Json :=
  params.foldl (fun body item =>
    if item.1 ∉ handledParams ∧ !item.2.isNull then body.set item.1 item.2 else body) body

/-- The body both functions start from; `input` is the name of the prompt or of
the messages. -/
def ownFields (input : String) (value model : Json) (stream : Bool) : Items Json :=
  [("model", model), (input, value), ("stream", .bool stream), ("logprobs", .int 1),
    ("return_token_ids", .bool true)]

/-- `_build_completion_body` -/
def buildCompletionBody (prompt model : Json) (stream : Bool) (kwargs : Items Json) : Items Json :=
  passOn ["model", "prompt", "stream", "logprobs"] (transformChatParamsToCompletion kwargs)
    (ownFields "prompt" prompt model stream)

/-- `_build_chat_body` -/
def buildChatBody (messages model : Json) (stream : Bool) (kwargs : Items Json) : Items Json :=
  passOn ["model", "messages", "stream", "logprobs", "return_token_ids"] kwargs
    (ownFields "messages" messages model stream)

theorem get?_ownFields_of_notMem {input key : String} (value model : Json) (stream : Bool)
    (other : key ∉ ["model", input, "stream", "logprobs", "return_token_ids"]) :
    (ownFields input value model stream).get? key = none :=
  Items.get?_eq_none_of_notMem other

theorem get?_passOn (handledParams : List String) {params : Items Json}
    (unique : (params.map Prod.fst).Nodup) (body : Items Json) (key : String) :
    (passOn handledParams params body).get? key =
      ((params.get? key).filter fun value => key ∉ handledParams ∧ !value.isNull).or
        (body.get? key) := by
  have filtered : passOn handledParams params body =
      body.update (params.filter fun item => item.1 ∉ handledParams ∧ !item.2.isNull) := by
    unfold passOn Items.update
    rw [List.foldl_filter]
    simp only [decide_eq_true_eq]
  have keys : ((params.filter fun item => item.1 ∉ handledParams ∧ !item.2.isNull).map
      Prod.fst).Nodup := (List.filter_sublist.map _).nodup unique
  rw [filtered, Items.get?_update, Items.lastValue_of_nodup keys, Items.get?_filter unique]

theorem get?_mappings (key : String) :
    chatToCompletionMappings.get? key =
      if key = "max_completion_tokens" then some "max_tokens" else none := by
  simp [chatToCompletionMappings, Items.get?, eq_comm]

theorem get?_mapParams {kwargs : Items Json} (unique : (kwargs.map Prod.fst).Nodup)
    (result : Items Json) (key : String) :
    (kwargs.foldl mapParam result).get? key =
      if key = "max_tokens" then (kwargs.get? "max_completion_tokens").or (result.get? key)
      else result.get? key := by
  induction kwargs generalizing result with
  | nil => simp
  | cons item kwargs ih =>
    obtain ⟨k, v⟩ := item
    rw [List.map_cons, List.nodup_cons] at unique
    rw [List.foldl_cons, ih unique.2, mapParam, get?_mappings]
    dsimp only
    by_cases mapped : k = "max_completion_tokens"
    · subst mapped
      rw [if_pos rfl, Items.get?_cons_self, Items.get?_eq_none_of_notMem unique.1, Items.get?_set]
      split_ifs <;> rfl
    · rw [if_neg mapped, Items.get?_cons_ne v kwargs mapped]

/-- The keys the second loop looks at. -/
def keptParam (key : String) : Bool :=
  key ∉ chatToCompletionIncompatible ∧ key ≠ "max_completion_tokens"

theorem keepParam_eq (result : Items Json) (item : String × Json) :
    keepParam result item =
      if keptParam item.1 then result.setdefault item.1 item.2 else result := by
  unfold keepParam keptParam Items.setdefault
  rw [get?_mappings]
  by_cases incompatible : item.1 ∈ chatToCompletionIncompatible
  · simp [incompatible]
  · by_cases mapped : item.1 = "max_completion_tokens"
    · simp [mapped]
    · cases result.get? item.1 <;> simp [incompatible, mapped]

theorem transform_eq (kwargs : Items Json) :
    transformChatParamsToCompletion kwargs =
      (kwargs.filter fun item => keptParam item.1).foldl
        (fun result item => result.setdefault item.1 item.2) (kwargs.foldl mapParam []) := by
  rw [List.foldl_filter]
  unfold transformChatParamsToCompletion
  congr
  funext result item
  exact keepParam_eq result item

theorem get?_transform {kwargs : Items Json} (unique : (kwargs.map Prod.fst).Nodup)
    (key : String) :
    (transformChatParamsToCompletion kwargs).get? key =
      (if key = "max_tokens" then kwargs.get? "max_completion_tokens" else none).or
        (if keptParam key then kwargs.get? key else none) := by
  rw [transform_eq, Items.get?_foldl_setdefault, get?_mapParams unique, Items.get?_filter unique]
  congr 1
  · split_ifs <;> simp
  · dsimp only
    cases keptParam key <;> cases kwargs.get? key <;> rfl

theorem nodup_transform (kwargs : Items Json) :
    ((transformChatParamsToCompletion kwargs).map Prod.fst).Nodup := by
  have mapped : ((kwargs.foldl mapParam []).map Prod.fst).Nodup := by
    refine Items.nodup_foldl ?_ kwargs List.nodup_nil
    intro result item unique
    unfold mapParam
    cases chatToCompletionMappings.get? item.1 with
    | some newKey => exact Items.nodup_set unique newKey item.2
    | none => exact unique
  rw [transform_eq]
  refine Items.nodup_foldl ?_ _ mapped
  intro result item unique
  exact Items.nodup_setdefault unique item.1 item.2

/-- A parameter the client set; `null` is none. -/
def given (kwargs : Items Json) (key : String) : Option Json :=
  (kwargs.get? key).filter fun value => !value.isNull

/-- What a body of `/completions` is to hold, whatever the client sent. -/
structure CompletionBody (prompt model : Json) (stream : Bool) (kwargs body : Items Json) :
    Prop where
  model : body.get? "model" = some model
  prompt : body.get? "prompt" = some prompt
  stream : body.get? "stream" = some (.bool stream)
  logprobs : body.get? "logprobs" = some (.int 1)
  returnTokenIds : body.get? "return_token_ids" = some (.bool true)
  maxTokens : body.get? "max_tokens" =
    (given kwargs "max_completion_tokens").or (given kwargs "max_tokens")
  incompatible : ∀ key ∈ chatToCompletionIncompatible, body.get? key = none
  others : ∀ key ∉ ["model", "prompt", "stream", "logprobs", "return_token_ids", "max_tokens",
    "max_completion_tokens"], key ∉ chatToCompletionIncompatible →
    body.get? key = given kwargs key

/-- What a body of `/chat/completions` is to hold. -/
structure ChatBody (messages model : Json) (stream : Bool) (kwargs body : Items Json) :
    Prop where
  model : body.get? "model" = some model
  messages : body.get? "messages" = some messages
  stream : body.get? "stream" = some (.bool stream)
  logprobs : body.get? "logprobs" = some (.int 1)
  returnTokenIds : body.get? "return_token_ids" = some (.bool true)
  others : ∀ key ∉ ["model", "messages", "stream", "logprobs", "return_token_ids"],
    body.get? key = given kwargs key

theorem get?_chatBody (kwargs : Dict Json) (messages model : Json) (stream : Bool)
    (key : String) :
    (buildChatBody messages model stream kwargs.items).get? key =
      (if key ∈ ["model", "messages", "stream", "logprobs", "return_token_ids"] then none
        else given kwargs.items key).or
      ((ownFields "messages" messages model stream).get? key) := by
  rw [buildChatBody, get?_passOn _ kwargs.unique]
  congr 1
  split_ifs with handled
  · simp [handled]
  · simp [handled, given]

theorem chatBody (kwargs : Dict Json) (messages model : Json) (stream : Bool) :
    ChatBody messages model stream kwargs.items
      (buildChatBody messages model stream kwargs.items) where
  model := get?_chatBody kwargs messages model stream "model"
  messages := get?_chatBody kwargs messages model stream "messages"
  stream := get?_chatBody kwargs messages model stream "stream"
  logprobs := get?_chatBody kwargs messages model stream "logprobs"
  returnTokenIds := get?_chatBody kwargs messages model stream "return_token_ids"
  others := by
    intro key other
    rw [get?_chatBody, if_neg other, get?_ownFields_of_notMem messages model stream other,
      Option.or_none]

theorem get?_completionBody (kwargs : Dict Json) (prompt model : Json) (stream : Bool)
    (key : String) :
    (buildCompletionBody prompt model stream kwargs.items).get? key =
      (if key ∈ ["model", "prompt", "stream", "logprobs"] then none
        else given (transformChatParamsToCompletion kwargs.items) key).or
      ((ownFields "prompt" prompt model stream).get? key) := by
  rw [buildCompletionBody, get?_passOn _ (nodup_transform kwargs.items)]
  congr 1
  split_ifs with handled
  · simp [handled]
  · simp [handled, given]

theorem given_transform (kwargs : Dict Json) {key : String} (kept : keptParam key = true)
    (other : key ≠ "max_tokens") :
    given (transformChatParamsToCompletion kwargs.items) key = given kwargs.items key := by
  unfold given
  rw [get?_transform kwargs.unique, if_neg other, if_pos kept, Option.none_or]

theorem filter_or_filter (mapped direct : Option Json) :
    (mapped.or direct).filter (fun value => !value.isNull) =
        (mapped.filter fun value => !value.isNull).or (direct.filter fun value => !value.isNull) ↔
      (mapped = some .null → direct.filter (fun value => !value.isNull) = none) := by
  cases mapped with
  | none => simp
  | some value =>
    cases value with
    | null => exact ⟨fun h _ => h.symm, fun h => (h rfl).symm⟩
    | _ => exact ⟨fun _ h => (nomatch h), fun _ => rfl⟩

/-- `max_tokens` is the first of the two given exactly if no `null` under the
newer name hides the older one. -/
theorem maxTokens_iff (kwargs : Dict Json) (prompt model : Json) (stream : Bool) :
    (buildCompletionBody prompt model stream kwargs.items).get? "max_tokens" =
        (given kwargs.items "max_completion_tokens").or (given kwargs.items "max_tokens") ↔
      (kwargs.items.get? "max_completion_tokens" = some .null →
        given kwargs.items "max_tokens" = none) := by
  have lookup : (buildCompletionBody prompt model stream kwargs.items).get? "max_tokens" =
      ((kwargs.items.get? "max_completion_tokens").or (kwargs.items.get? "max_tokens")).filter
        fun value => !value.isNull := by
    rw [get?_completionBody, given, get?_transform kwargs.unique]
    exact Option.or_none
  rw [lookup]
  exact filter_or_filter _ _

theorem returnTokenIds_iff (kwargs : Dict Json) (prompt model : Json) (stream : Bool) :
    (buildCompletionBody prompt model stream kwargs.items).get? "return_token_ids" =
        some (.bool true) ↔
      ∀ value, given kwargs.items "return_token_ids" = some value → value = .bool true := by
  have lookup : (buildCompletionBody prompt model stream kwargs.items).get? "return_token_ids" =
      (given kwargs.items "return_token_ids").or (some (.bool true)) := by
    rw [get?_completionBody, given_transform kwargs (by decide) (by decide)]
    rfl
  rw [lookup]
  cases given kwargs.items "return_token_ids" <;> simp

/-- The client neither turns the recording of token ids off nor hides its
`max_tokens` behind a `null`. -/
structure KeepsRecording (kwargs : Items Json) : Prop where
  returnTokenIds : ∀ value, given kwargs "return_token_ids" = some value → value = .bool true
  maxTokens : kwargs.get? "max_completion_tokens" = some .null → given kwargs "max_tokens" = none

theorem completionBody_iff (kwargs : Dict Json) (prompt model : Json) (stream : Bool) :
    CompletionBody prompt model stream kwargs.items
        (buildCompletionBody prompt model stream kwargs.items) ↔
      KeepsRecording kwargs.items := by
  refine ⟨?_, ?_⟩
  · intro body
    exact ⟨(returnTokenIds_iff kwargs prompt model stream).mp body.returnTokenIds,
      (maxTokens_iff kwargs prompt model stream).mp body.maxTokens⟩
  · intro keeps
    refine ⟨get?_completionBody kwargs prompt model stream "model",
      get?_completionBody kwargs prompt model stream "prompt",
      get?_completionBody kwargs prompt model stream "stream",
      get?_completionBody kwargs prompt model stream "logprobs",
      (returnTokenIds_iff kwargs prompt model stream).mpr keeps.returnTokenIds,
      (maxTokens_iff kwargs prompt model stream).mpr keeps.maxTokens, ?_, ?_⟩
    · intro key incompatible
      have notOwn : key ∉ ["model", "prompt", "stream", "logprobs", "return_token_ids"] := by
        revert key
        decide
      have dropped : given (transformChatParamsToCompletion kwargs.items) key = none := by
        have other : key ≠ "max_tokens" := by
          rintro rfl
          exact absurd incompatible (by decide)
        rw [given, get?_transform kwargs.unique, if_neg other, if_neg]
        · rfl
        · simp [keptParam, incompatible]
      rw [get?_completionBody, dropped, get?_ownFields_of_notMem prompt model stream notOwn]
      split_ifs <;> rfl
    · intro key other compatible
      simp only [List.mem_cons, List.not_mem_nil, or_false, not_or] at other
      obtain ⟨hmodel, hprompt, hstream, hlogprobs, hreturn, hmax, hmapped⟩ := other
      have notOwn : key ∉ ["model", "prompt", "stream", "logprobs", "return_token_ids"] := by
        simp [hmodel, hprompt, hstream, hlogprobs, hreturn]
      have kept : keptParam key = true := by simp [keptParam, compatible, hmapped]
      rw [get?_completionBody, get?_ownFields_of_notMem prompt model stream notOwn,
        given_transform kwargs kept hmax, Option.or_none, if_neg]
      simp [hmodel, hprompt, hstream, hlogprobs]

/-- Both bodies of a request hold what they are to hold exactly if the client's
parameters keep the recording. -/
theorem bodies_iff (kwargs : Dict Json) (prompt messages model : Json) (stream : Bool) :
    CompletionBody prompt model stream kwargs.items
        (buildCompletionBody prompt model stream kwargs.items) ∧
      ChatBody messages model stream kwargs.items
        (buildChatBody messages model stream kwargs.items) ↔
      KeepsRecording kwargs.items :=
  (and_iff_left (chatBody kwargs messages model stream)).trans
    (completionBody_iff kwargs prompt model stream)

/-- A client that sends `return_token_ids: false` gets no token ids recorded. -/
theorem returnTokenIds_overridden :
    ¬∀ (kwargs : Dict Json) (prompt messages model : Json) (stream : Bool),
      CompletionBody prompt model stream kwargs.items
          (buildCompletionBody prompt model stream kwargs.items) ∧
        ChatBody messages model stream kwargs.items
          (buildChatBody messages model stream kwargs.items) := by
  intro h
  let kwargs : Dict Json := ⟨[("return_token_ids", .bool false)], List.pairwise_singleton _ _⟩
  have body := (h kwargs (.str "Hi") (.arr []) (.str "m") false).1
  have sent : (buildCompletionBody (.str "Hi") (.str "m") false kwargs.items).get?
      "return_token_ids" = some (.bool false) := rfl
  have forced := sent.symm.trans body.returnTokenIds
  simp at forced

end TrajProxy.Infer
