import TrajProxy.Pipeline.Completion

/-! The stream half of `TokenPipeline` up to the end of the stream:
`decode_streaming`, `_process_stream_chunk` and the loop over the chunks.
The tokenizer and the per-request parser are parameters. A parser raises or
returns a `DeltaMessage` or `None`, and keeps a state of its own. -/

namespace TrajProxy.Pipeline
open Text

/-- The three uses of a tokenizer: `encode(text, add_special_tokens=False)` and
`decode(ids, skip_special_tokens=…)` with `False` and with `True`. -/
structure Tokenizer where
  encode : String → List Int
  decode : List Int → String
  decodeClean : List Int → String

structure DeltaToolCall where
  index : Nat
  id : Option String
  type : Option String
  name : Option String
  arguments : Option String

structure DeltaMessage where
  content : Option String
  reasoning : Option String
  toolCalls : List DeltaToolCall

/-- What the pipeline calls on the per-request parser. `parseDelta` gets the
text and the token ids of the delta and, until a chunk was sent, the prompt's
token ids; `toolCallsSeen` tells whether the tool parser there is has entries in
`prev_tool_call_arr`. -/
structure RequestParser (π : Type) where
  start : π
  parseDelta : π → String → List Int → Option (List Int) → Except String (Option DeltaMessage × π)
  toolCallsSeen : π → Bool

/-- The fields of `ProcessContext` a stream accumulates into. `usage` is
`token_response["usage"]`, the only key `token_response` has before the end. -/
structure StreamContext (π : Type) where
  parser : π
  streamInferMetadata : Items Json
  usage : Option (Items Json)
  streamInferChoiceExtras : Items Json
  streamBufferIds : List Int
  streamBufferText : String
  streamDecodeCheckpointLen : Nat
  streamLogprobs : Option (Items Json)
  streamChunkCount : Nat
  streamFinished : Bool

variable {π : Type}

def StreamContext.initial (P : RequestParser π) : StreamContext π where
  parser := P.start
  streamInferMetadata := []
  usage := none
  streamInferChoiceExtras := []
  streamBufferIds := []
  streamBufferText := ""
  streamDecodeCheckpointLen := 0
  streamLogprobs := none
  streamChunkCount := 0
  streamFinished := false

def decodeOverlapWindow : Nat := 4

def decodeCommitInterval : Nat := 32

/-- `TokenConverter.decode_streaming` -/
def decodeStreaming (tok : Tokenizer) (tokenIds : List Int) (ctx : StreamContext π) :
    String × StreamContext π :=
  let ids := ctx.streamBufferIds ++ tokenIds
  let checkpoint := ctx.streamDecodeCheckpointLen
  let ctx := { ctx with streamBufferIds := ids, streamDecodeCheckpointLen := ids.length }
  let realign :=
    let fullText := tok.decodeClean ids
    (dropFirst fullText ctx.streamBufferText.length, { ctx with streamBufferText := fullText })
  if checkpoint = 0 ∨ decodeCommitInterval ≤ ids.length - checkpoint then realign
  else
    let start := checkpoint - decodeOverlapWindow
    let segmentText := tok.decodeClean (ids.drop start)
    let overlapText := tok.decodeClean ((ids.take checkpoint).drop start)
    if startsWith segmentText overlapText then
      let newText := dropFirst segmentText overlapText.length
      (newText, { ctx with streamBufferText := ctx.streamBufferText ++ newText })
    else realign

/-- The items of a chunk that are kept, the last value of a key wins. -/
def captureExtras (captured extras : Items Json) : Items Json :=
  captured.update (extras.filter fun item => !item.2.isNull)

def logprobKeys : List String := ["tokens", "text_offset", "top_logprobs", "token_logprobs"]

/-- `stream_logprobs.setdefault(key, []).extend(chunk_lp[key])` -/
def extendLogprob (chunkLp acc : Items Json) (key : String) : Except String (Items Json) :=
  match chunkLp.get? key with
  | some (.arr items) =>
    match acc.get? key with
    | none => .ok (acc.set key (.arr items))
    | some (.arr old) => .ok (acc.set key (.arr (old ++ items)))
    | some _ => .error "AttributeError"
  | _ => .ok acc

def chunkLogprobs (chunk : InferResponse) : Option (Items Json) :=
  (chunk.choices.head?.bind fun choice => choice.logprobs.get).filter fun lp => !lp.isEmpty

/-- The first `logprobs` are copied, of later ones the four list keys are
appended. -/
def accumulateLogprobs (acc : Option (Items Json)) (chunk : InferResponse) :
    Except String (Option (Items Json)) :=
  match chunkLogprobs chunk, acc with
  | none, acc => .ok acc
  | some chunkLp, none => .ok (some chunkLp)
  | some chunkLp, some old => (logprobKeys.foldlM (extendLogprob chunkLp) old).map some

def DeltaToolCall.toJson (tc : DeltaToolCall) : Json :=
  let item (key : String) (value : Option String) : Items Json :=
    match value with
    | some s => [(key, .str s)]
    | none => []
  let function := item "name" tc.name ++ item "arguments" tc.arguments
  .obj ([("index", .int tc.index)] ++ item "id" tc.id ++ item "type" tc.type ++
    if function.isEmpty then [] else [("function", .obj function)])

/-- A chunk sent to the client; `role` is set on the first one only. -/
structure OpenAIChunk where
  role : Option String
  content : Option String
  reasoning : Option String
  toolCalls : List Json
  finishReason : Option String

/-- `StreamChunkBuilder.build_chunk`: the first chunk has a role and a content,
an empty reasoning or tool-call delta is no delta. -/
def buildChunk (streamChunkCount : Nat) (content finishReason : Option String)
    (toolCallsDelta : Option (List Json)) (reasoningDelta : Option String) : OpenAIChunk where
  role := if streamChunkCount = 0 then some "assistant" else none
  content := if streamChunkCount = 0 then some (content.getD "") else content
  reasoning := reasoningDelta.filter (· ≠ "")
  toolCalls := toolCallsDelta.getD []
  finishReason := finishReason

/-- The usage of a chunk, if it is one that counts. -/
def chunkUsage (chunk : InferResponse) : Option (Items Json) :=
  chunk.usage.get.filter fun usage => !usage.isEmpty

def choiceExtras (chunk : InferResponse) : Items Json :=
  (chunk.choices.head?.map InferChoice.extras).getD []

/-- The custom fields and the usage, taken before anything is parsed. -/
def captureFields (ctx : StreamContext π) (chunk : InferResponse) : StreamContext π :=
  { ctx with
    streamInferMetadata := captureExtras ctx.streamInferMetadata chunk.extras
    usage := (chunkUsage chunk).or ctx.usage
    streamInferChoiceExtras := captureExtras ctx.streamInferChoiceExtras (choiceExtras chunk) }

def decodeChunk (tok : Tokenizer) (parsed : ParsedChunk) (ctx : StreamContext π) :
    String × StreamContext π :=
  if parsed.tokenIds.isEmpty then (parsed.content, ctx)
  else decodeStreaming tok parsed.tokenIds ctx

/-- `parsed_tool_calls or tool_calls_delta` -/
def effectiveToolCalls (delta : Option DeltaMessage) (parsed : ParsedChunk) : Option (List Json) :=
  match (delta.map DeltaMessage.toolCalls).getD [] with
  | [] => parsed.toolCallsDelta
  | toolCalls => some (toolCalls.map DeltaToolCall.toJson)

/-- The finish reason sent with a chunk. -/
def chunkFinishReason (P : RequestParser π) (parser : π) (chunk : InferResponse) : Option String :=
  if isStreamFinished chunk then
    if P.toolCallsSeen parser then some "tool_calls" else getFinishReason chunk
  else none

/-- Empty deltas are not sent, the first one is. -/
def sentChunk (streamChunkCount : Nat) (delta : Option DeltaMessage)
    (toolCalls : Option (List Json)) (finishReason : Option String) : Option OpenAIChunk :=
  let content := delta.bind DeltaMessage.content
  let reasoning := delta.bind DeltaMessage.reasoning
  if content.getD "" = "" ∧ toolCalls = none ∧ reasoning = none ∧ finishReason = none ∧
      0 < streamChunkCount then none
  else some (buildChunk streamChunkCount content finishReason toolCalls reasoning)

/-- `_process_stream_chunk`; `tokenIds` are those of the prompt. -/
def processStreamChunk (tok : Tokenizer) (P : RequestParser π) (tokenIds : List Int)
    (ctx : StreamContext π) (chunk : InferResponse) :
    Except String (Option OpenAIChunk × StreamContext π) := do
  let parsed ← parseStreamChunk chunk
  let decoded := decodeChunk tok parsed (captureFields ctx chunk)
  let (delta, parser) ← P.parseDelta ctx.parser decoded.1 parsed.tokenIds
    (if ctx.streamChunkCount = 0 then some tokenIds else none)
  let streamLogprobs ← accumulateLogprobs ctx.streamLogprobs chunk
  pure (sentChunk ctx.streamChunkCount delta (effectiveToolCalls delta parsed)
      (chunkFinishReason P parser chunk),
    { decoded.2 with
      parser := parser
      streamLogprobs := streamLogprobs
      streamFinished := ctx.streamFinished || isStreamFinished chunk })

def StreamContext.countSent (ctx : StreamContext π) (sent : Option OpenAIChunk) :
    StreamContext π :=
  { ctx with streamChunkCount := ctx.streamChunkCount + sent.toList.length }

/-- The loop of `process_stream`: the chunks sent to the client and the context
the loop leaves. -/
def processChunks (tok : Tokenizer) (P : RequestParser π) (tokenIds : List Int) :
    StreamContext π → List InferResponse → Except String (List OpenAIChunk × StreamContext π)
  | ctx, [] => .ok ([], ctx)
  | ctx, chunk :: rest => do
    let (sent, ctx) ← processStreamChunk tok P tokenIds ctx chunk
    if ctx.streamFinished then pure (sent.toList, ctx.countSent sent)
    else
      let (more, ctx) ← processChunks tok P tokenIds (ctx.countSent sent) rest
      pure (sent.toList ++ more, ctx)

end TrajProxy.Pipeline
