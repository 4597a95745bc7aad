import TrajProxy.Library.Json
import TrajProxy.Library.OrderedDict

/-! The stream half of `DirectPipeline`: `_accumulate_stream_fields`, the
stripping of the chunk before it is sent, and `_finalize_stream`.
The context keeps values of keys of a chunk and of its choice, and it never
keeps the chunk or the choice itself. Stripping removes keys from those two
only, so it is a function of the chunk that leaves the context alone. -/

namespace TrajProxy.Direct

/-- In a fragment `extras` are the keys the merge does not look at. -/
structure FunctionDelta where
  name : Field String
  arguments : Field String
  extras : Items Json

structure ToolCallDelta where
  index : Field Nat
  id : Field String
  type : Field String
  function : Field FunctionDelta
  extras : Items Json

structure ChatDelta where
  role : Field String
  content : Field String
  reasoning : Field String
  reasoningContent : Field String
  toolCalls : Field (List ToolCallDelta)
  functionCall : Field FunctionDelta
  extras : Items Json

structure Logprobs where
  content : Field (List Json)
  extras : Items Json

/-- `stop_reason` is of any type; a missing one is `null`. -/
structure ChatChoice where
  delta : ChatDelta
  finishReason : Field String
  logprobs : Field Logprobs
  tokenIds : Field (List Int)
  stopReason : Json
  extras : Items Json

structure ChatChunk where
  choices : List ChatChoice
  usage : Field (Items Json)
  promptTokenIds : Field (List Int)
  metadata : Items Json

structure FunctionCall where
  name : String
  arguments : String
  deriving DecidableEq

/-- The fields of `ProcessContext` a stream accumulates into. -/
structure DirectContext where
  streamResponseMetadata : Items Json
  streamPromptTokenIds : Option (List Int)
  streamUsageFull : Option (Items Json)
  promptTokens : Json
  completionTokens : Json
  totalTokens : Json
  streamRole : String
  streamBufferText : String
  streamReasoning : String
  streamToolCalls : List ToolCallDelta
  streamFunctionCall : Option FunctionCall
  streamLogprobs : Option Logprobs
  streamStopReason : Json
  streamTokenIds : Option (List Int)
  streamFinishReason : String
  streamChoiceExtras : Items Json
  streamDeltaExtras : Items Json
  streamChunkCount : Nat

def DirectContext.initial : DirectContext where
  streamResponseMetadata := []
  streamPromptTokenIds := none
  streamUsageFull := none
  promptTokens := .null
  completionTokens := .null
  totalTokens := .null
  streamRole := ""
  streamBufferText := ""
  streamReasoning := ""
  streamToolCalls := []
  streamFunctionCall := none
  streamLogprobs := none
  streamStopReason := .null
  streamTokenIds := none
  streamFinishReason := ""
  streamChoiceExtras := []
  streamDeltaExtras := []
  streamChunkCount := 0

/-- `captured.update(…)` with the items that are not `null`. -/
def captureItems (captured items : Items Json) : Items Json :=
  captured.update (items.filter fun item => !item.2.isNull)

/-- A new value if it is true, the old one otherwise. -/
def keepTruthy (old new : String) : String := if new = "" then old else new

def FunctionDelta.isEmpty : FunctionDelta → Bool
  | ⟨.missing, .missing, []⟩ => true
  | _ => false

/-- The fragment of a field that counts: there and not an empty dictionary. -/
def functionDelta (field : Field FunctionDelta) : Option FunctionDelta :=
  field.get.filter fun f => !f.isEmpty

def FunctionCall.extend (call : FunctionCall) (f : FunctionDelta) : FunctionCall where
  name := keepTruthy call.name f.name.text
  arguments := call.arguments ++ f.arguments.text

/-- `stream_function_call` starts as a call without name and arguments. -/
def extendCall (call : Option FunctionCall) (f : FunctionDelta) : Option FunctionCall :=
  some ((call.getD ⟨"", ""⟩).extend f)

def ToolCallDelta.isEmpty : ToolCallDelta → Bool
  | ⟨.missing, .missing, .missing, .missing, []⟩ => true
  | _ => false

def Logprobs.isEmpty : Logprobs → Bool
  | ⟨.missing, []⟩ => true
  | _ => false

def choiceLogprobs (choice : ChatChoice) : Option Logprobs :=
  choice.logprobs.get.filter fun logprobs => !logprobs.isEmpty

/-- The first `logprobs` are kept, of later ones `content` is appended. -/
def accumulateLogprobs (acc : Option Logprobs) (choice : ChatChoice) : Option Logprobs :=
  match choiceLogprobs choice, acc with
  | none, acc => acc
  | some logprobs, none => some logprobs
  | some logprobs, some old =>
    match logprobs.content.get with
    | none | some [] => some old
    | some items => some { old with content := .value (old.content.get.getD [] ++ items) }

/-- `usage[key]` unless it is `None`. -/
def usageCount (usage : Items Json) (key : String) (old : Json) : Json :=
  if (Json.getD usage key).isNull then old else Json.getD usage key

def chunkUsage (chunk : ChatChunk) : Option (Items Json) :=
  chunk.usage.get.filter fun usage => !usage.isEmpty

/-- The top-level part of `_accumulate_stream_fields`. -/
def accumulateTop (ctx : DirectContext) (chunk : ChatChunk) : DirectContext :=
  let usage := (chunkUsage chunk).getD []
  { ctx with
    streamResponseMetadata := captureItems ctx.streamResponseMetadata chunk.metadata
    streamPromptTokenIds := chunk.promptTokenIds.get.or ctx.streamPromptTokenIds
    streamUsageFull := (chunkUsage chunk).or ctx.streamUsageFull
    promptTokens := usageCount usage "prompt_tokens" ctx.promptTokens
    completionTokens := usageCount usage "completion_tokens" ctx.completionTokens
    totalTokens := usageCount usage "total_tokens" ctx.totalTokens }

def deltaReasoning (delta : ChatDelta) : String :=
  keepTruthy delta.reasoningContent.text delta.reasoning.text

/-- Parts 1 to 5 and 10 of `_accumulate_stream_fields`. -/
def accumulateDelta (ctx : DirectContext) (delta : ChatDelta) : DirectContext :=
  { ctx with
    streamRole := keepTruthy ctx.streamRole delta.role.text
    streamBufferText := ctx.streamBufferText ++ delta.content.text
    streamReasoning := ctx.streamReasoning ++ deltaReasoning delta
    streamToolCalls := ctx.streamToolCalls ++ delta.toolCalls.get.getD []
    streamFunctionCall :=
      match functionDelta delta.functionCall with
      | none => ctx.streamFunctionCall
      | some f => extendCall ctx.streamFunctionCall f
    streamDeltaExtras := captureItems ctx.streamDeltaExtras delta.extras }

/-- Parts 6 to 9 of `_accumulate_stream_fields`. -/
def accumulateChoice (ctx : DirectContext) (choice : ChatChoice) : DirectContext :=
  { ctx with
    streamLogprobs := accumulateLogprobs ctx.streamLogprobs choice
    streamStopReason := if choice.stopReason.isNull then ctx.streamStopReason else choice.stopReason
    streamTokenIds :=
      match choice.tokenIds.get with
      | none | some [] => ctx.streamTokenIds
      | some ids => some (ctx.streamTokenIds.getD [] ++ ids)
    streamFinishReason := keepTruthy ctx.streamFinishReason choice.finishReason.text
    streamChoiceExtras := captureItems ctx.streamChoiceExtras choice.extras }

/-- `DirectPipeline._accumulate_stream_fields` -/
def accumulateStreamFields (ctx : DirectContext) (chunk : ChatChunk) : DirectContext :=
  let ctx := accumulateTop ctx chunk
  match chunk.choices with
  | [] => ctx
  | choice :: _ => accumulateChoice (accumulateDelta ctx choice.delta) choice

def stripChoice (choice : ChatChoice) : ChatChoice :=
  { choice with
    logprobs := .missing
    tokenIds := .missing
    extras := choice.extras.erase "routed_experts" }

/-- `_strip_injected_fields` and the filter after it: what the client gets. -/
def stripChunk (chunk : ChatChunk) : ChatChunk :=
  { chunk with
    choices := chunk.choices.map stripChoice
    promptTokenIds := .missing }

/-- The loop of `process_stream`: the chunks sent and the context it leaves. -/
def processStream (ctx : DirectContext) : List ChatChunk → List ChatChunk × DirectContext
  | [] => ([], ctx)
  | chunk :: rest =>
    let ctx := accumulateStreamFields ctx chunk
    let result := processStream { ctx with streamChunkCount := ctx.streamChunkCount + 1 } rest
    (stripChunk chunk :: result.1, result.2)

/-- A tool call being merged; an id or type may be `None`. -/
structure MergedToolCall where
  id : Option String
  type : Option String
  name : String
  arguments : String
  deriving DecidableEq

/-- The key of the merge, `tc.get("index", 0)`. -/
def ToolCallDelta.key (tc : ToolCallDelta) : Option Nat := tc.index.getOr 0

def keepTruthyField (old : Option String) (new : Field String) : Option String :=
  if new.text = "" then old else new.get

def MergedToolCall.start (tc : ToolCallDelta) : MergedToolCall where
  id := tc.id.getOr ""
  type := tc.type.getOr "function"
  name := ""
  arguments := ""

def MergedToolCall.merge (entry : MergedToolCall) (tc : ToolCallDelta) : MergedToolCall :=
  let entry := { entry with
    id := keepTruthyField entry.id tc.id
    type := keepTruthyField entry.type tc.type }
  match functionDelta tc.function with
  | none => entry
  | some f => { entry with
    name := keepTruthy entry.name f.name.text
    arguments := entry.arguments ++ f.arguments.text }

def mergeEntry (entry : Option MergedToolCall) (tc : ToolCallDelta) : MergedToolCall :=
  (entry.getD (.start tc)).merge tc

/-- `_merge_stream_tool_calls` -/
def mergeStreamToolCalls (toolCalls : List ToolCallDelta) : List MergedToolCall :=
  OrderedDict.values ((toolCalls.filter fun tc => !tc.isEmpty).foldl
    (OrderedDict.updateItem ToolCallDelta.key mergeEntry) ∅)

structure RawMessage where
  role : String
  content : Option String
  reasoning : Option String
  toolCalls : List MergedToolCall
  functionCall : Option FunctionCall
  extras : Items Json

/-- `reasoning` is stored under `reasoning` and `reasoning_content`. -/
structure RawChoice where
  message : RawMessage
  logprobs : Option Logprobs
  tokenIds : Option (List Int)
  finishReason : String
  stopReason : Json
  extras : Items Json

structure RawResponse where
  metadata : Items Json
  choice : RawChoice
  usage : Items Json

/-- `value or None` -/
def nonemptyText (text : String) : Option String := if text = "" then none else some text

def finalMessage (ctx : DirectContext) : RawMessage where
  role := keepTruthy "assistant" ctx.streamRole
  content :=
    match nonemptyText ctx.streamBufferText with
    | some text => some text
    | none =>
      if ctx.streamToolCalls.isEmpty ∧ ctx.streamFunctionCall = none then none else some ""
  reasoning := nonemptyText ctx.streamReasoning
  toolCalls := mergeStreamToolCalls ctx.streamToolCalls
  functionCall := ctx.streamFunctionCall
  extras := ctx.streamDeltaExtras

def finalChoice (ctx : DirectContext) : RawChoice where
  message := finalMessage ctx
  logprobs := ctx.streamLogprobs
  tokenIds := ctx.streamTokenIds
  finishReason := keepTruthy "stop" ctx.streamFinishReason
  stopReason := ctx.streamStopReason
  extras := ctx.streamChoiceExtras

/-- Without a usage from upstream the completion is estimated from its text. -/
def estimateTokens (ctx : DirectContext) : DirectContext :=
  if ctx.completionTokens.truthy ∨ ctx.streamBufferText = "" then ctx
  else
    let completionTokens := ctx.streamBufferText.length / 4
    { ctx with
      completionTokens := .int completionTokens
      totalTokens := .int
        ((match ctx.promptTokens with
          | .int n => n
          | _ => 0) + completionTokens) }

def finalUsage (ctx : DirectContext) : Items Json :=
  let ctx := estimateTokens ctx
  let usage := ctx.streamUsageFull.getD [("prompt_tokens", ctx.promptTokens),
    ("completion_tokens", ctx.completionTokens), ("total_tokens", ctx.totalTokens)]
  (usage.setdefault "prompt_tokens_details" .null).setdefault "completion_tokens_details" .null

def topLevelKeys : List String :=
  ["kv_transfer_params", "prompt_logprobs", "prompt_token_ids", "service_tier",
    "system_fingerprint"]

/-- `_finalize_stream` up to the store; `generated` are the `id`, `created` and
`model` of a response that came without metadata. -/
def finalizeStream (generated : Items Json) (ctx : DirectContext) : RawResponse where
  metadata :=
    let captured := if ctx.streamResponseMetadata.isEmpty then generated
      else ctx.streamResponseMetadata
    topLevelKeys.foldl (fun d key => d.setdefault key .null)
      (captured.set "object" (.str "chat.completion"))
  choice := finalChoice ctx
  usage := finalUsage ctx

end TrajProxy.Direct
