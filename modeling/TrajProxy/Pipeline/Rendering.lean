import TrajProxy.Pipeline.TokenRecord

/-! The dictionaries of `TokenPipeline`: completions as they are stored, and what
its clients get. The keys `id`, `object`, `created` and `model`, which are the
same for every response of a request, are left out. -/

namespace TrajProxy.Pipeline

def tokenIdsJson (ids : List Int) : Json := .arr (ids.map .int)

section Stored

def InferChoice.toItems (choice : InferChoice) : Items Json :=
  let d := choice.extras.set "index" (.int 0)
  let d := d.setField "text" .str choice.text
  let d := d.setField "token_ids" tokenIdsJson choice.tokenIds
  let d := d.setField "output_token_ids" tokenIdsJson choice.outputTokenIds
  let d := d.setField "finish_reason" .str choice.finishReason
  let d := d.setField "logprobs" .obj choice.logprobs
  d.setField "tool_calls" .arr choice.toolCalls

def InferResponse.toItems (response : InferResponse) : Items Json :=
  (response.extras.set "choices" (.arr (response.choices.map fun c => .obj c.toItems))).setField
    "usage" .obj response.usage

end Stored

section Client

/-- The message of `OpenAIResponseBuilder.build`. -/
def RawResponse.messageItems (response : RawResponse) : Items Json :=
  let d : Items Json := [("role", .str "assistant"),
    ("content", .ofOption .str response.message.content), ("annotations", .null),
    ("audio", response.audio), ("function_call", response.functionCall),
    ("refusal", response.refusal)]
  let d :=
    match response.message.reasoning with
    | none => d
    | some text => d ++ [("reasoning", .str text), ("reasoning_content", .str text)]
  if response.message.toolCalls.isEmpty then d
  else d ++ [("tool_calls", .arr response.message.toolCalls)]

def RawResponse.choiceItems (response : RawResponse) : Items Json :=
  [("index", .int 0), ("message", .obj response.messageItems),
    ("logprobs", .ofOption .obj response.logprobs),
    ("token_ids", .ofOption tokenIdsJson response.tokenIds),
    ("finish_reason", .ofOption .str response.message.finishReason)]

def RawUsage.toItems (usage : RawUsage) : Items Json :=
  [("prompt_tokens", usage.promptTokens), ("completion_tokens", usage.completionTokens),
    ("total_tokens", usage.totalTokens), ("prompt_tokens_details", usage.promptTokensDetails),
    ("completion_tokens_details", usage.completionTokensDetails)]

def RawResponse.toItems (response : RawResponse) : Items Json :=
  [("choices", .arr [.obj response.choiceItems]), ("usage", .obj response.usage.toItems),
    ("kv_transfer_params", .null), ("prompt_logprobs", .null), ("prompt_token_ids", .null),
    ("service_tier", .null), ("system_fingerprint", .null)]

def OpenAIChunk.deltaItems (chunk : OpenAIChunk) : Items Json :=
  let item (key : String) (value : Option String) : Items Json :=
    match value with
    | some s => [(key, .str s)]
    | none => []
  item "role" chunk.role ++ item "content" chunk.content ++ item "reasoning" chunk.reasoning ++
    item "reasoning_content" chunk.reasoning ++
    if chunk.toolCalls.isEmpty then [] else [("tool_calls", .arr chunk.toolCalls)]

/-- The last chunk also has `logprobs` and `token_ids`, both `None`. -/
def OpenAIChunk.choiceItems (chunk : OpenAIChunk) : Items Json :=
  [("index", .int 0), ("delta", .obj chunk.deltaItems),
    ("finish_reason", .ofOption .str chunk.finishReason)] ++
    if chunk.finishReason.isSome then [("logprobs", .null), ("token_ids", .null)] else []

def OpenAIChunk.toItems (chunk : OpenAIChunk) : Items Json :=
  [("choices", .arr [.obj chunk.choiceItems])]

/-- The chunk `process_stream` adds after the last one. -/
def usageChunk (counts : TokenCounts) : Items Json :=
  [("choices", .arr []), ("usage", .obj [("prompt_tokens", orZero counts.promptTokens),
    ("completion_tokens", counts.completionTokens), ("total_tokens", orZero counts.totalTokens)])]

end Client

variable {key : String}

theorem get?_choiceItems (choice : InferChoice)
    (other : key ∉ ["text", "token_ids", "output_token_ids", "index", "finish_reason", "logprobs",
      "tool_calls"]) :
    choice.toItems.get? key = choice.extras.get? key := by
  simp only [List.mem_cons, List.not_mem_nil, or_false, not_or] at other
  simp [InferChoice.toItems, Items.get?_setField, Items.get?_set, other]

theorem get?_responseItems (response : InferResponse) (other : key ∉ ["choices", "usage"]) :
    response.toItems.get? key = response.extras.get? key := by
  simp only [List.mem_cons, List.not_mem_nil, or_false, not_or] at other
  simp [InferResponse.toItems, Items.get?_setField, Items.get?_set, other]

end TrajProxy.Pipeline
