import TrajProxy.Pipeline.Rendering
import TrajProxy.Record.Context

/-! `TokenPipeline.process` and `process_stream` on the context they hand to
`insert`. A call to a converter, to the infer service or to a parser's class
returns or raises; the tokenizer, the parsers and the builder are those of
`Pipeline.TokenRecord`. -/

namespace TrajProxy.Record

/-- `{"prompt": …, "model": …, **request_params}` -/
def ProcessContext.inferRequest (c : ProcessContext) (prompt : Json) : Items Json :=
  Items.update [("prompt", prompt), ("model", .str c.model)] c.requestParams

/-- `_transform_messages` -/
def transformMessages (convert : Except Raised String) : Py ProcessContext Unit := do
  let text ← Py.ofExcept convert
  Py.modify fun c => { c with
    promptText := some text
    textRequest := some (c.inferRequest (.str text)) }

/-- `_encode_text` -/
def encodeText (encode : Except Raised (List Int)) : Py ProcessContext Unit := do
  let ids ← Py.ofExcept encode
  Py.modify fun c => { c with
    tokenIds := some ids
    promptTokens := .int ids.length
    tokenRequest := some (c.inferRequest (Pipeline.tokenIdsJson ids)) }

def ProcessContext.counts (c : ProcessContext) : Pipeline.TokenCounts where
  promptTokens := c.promptTokens
  completionTokens := c.completionTokens
  totalTokens := c.totalTokens

def ProcessContext.withCounts (c : ProcessContext) (counts : Pipeline.TokenCounts) :
    ProcessContext :=
  { c with
    promptTokens := counts.promptTokens
    completionTokens := counts.completionTokens
    totalTokens := counts.totalTokens }

/-- A call of a function whose exceptions are texts. -/
def call {σ α : Type} (result : Except String α) : Py σ α :=
  Py.ofExcept (result.mapError .exception)

section NonStream

/-- The calls of one `process`. -/
structure TokenCalls where
  tok : Pipeline.Tokenizer
  build : Pipeline.BuildEnv
  convert : Except Raised String
  encode : Except Raised (List Int)
  complete : Except Raised Pipeline.InferResponse
  decode : Option Raised
  requestParser : Except Raised Pipeline.MessageParser
  redecode : Option Raised

variable (calls : TokenCalls)

/-- `_inference` -/
def TokenCalls.inference : Py ProcessContext Pipeline.InferResponse := do
  let response ← Py.ofExcept calls.complete
  Py.modify fun c => { c with tokenResponse := some response.toItems }
  pure response

/-- The ids are in the context before they are decoded. -/
def TokenCalls.decodeIds (ids : List Int) : Py ProcessContext Unit := do
  Py.modify fun c => { c with responseIds := some ids }
  Py.callAll [calls.decode]
  Py.modify fun c => { c with responseText := some (calls.tok.decode ids) }

/-- `_decode_response`; without a response text its log line raises. -/
def TokenCalls.decodeResponse (response : Pipeline.InferResponse) : Py ProcessContext Unit := do
  let (text, tokenIds) := Pipeline.parseTextResponse response
  match Pipeline.nonemptyIds tokenIds with
  | some ids => calls.decodeIds ids
  | none =>
    match text.filter (· ≠ "") with
    | none => Py.raise (.exception "TypeError")
    | some text =>
      match Pipeline.parseTokenIdsFromText text with
      | some ids => calls.decodeIds ids
      | none => Py.modify fun c => { c with responseText := some text, responseIds := none }
  Py.modify fun c => { c with textResponse := some ⟨c.responseText, c.responseIds⟩ }

/-- `_update_stats` -/
def updateStats (response : Pipeline.InferResponse) : Py ProcessContext Unit := do
  let c ← Py.read
  let counts ← call (Pipeline.updateStats (c.tokenIds.getD []) response c.responseIds)
  Py.modify (·.withCounts counts)

/-- The text the builder gets. -/
def TokenCalls.cleanText (c : ProcessContext) : String :=
  match Pipeline.nonemptyIds c.responseIds with
  | some ids => calls.tok.decodeClean ids
  | none => c.responseText.getD ""

/-- `context.response_text` after the second decoding. -/
def TokenCalls.finalText (c : ProcessContext) : Option String :=
  match Pipeline.nonemptyIds c.responseIds with
  | some ids => some (calls.tok.decode ids)
  | none => c.responseText

/-- `_build_response` -/
def TokenCalls.buildResponse (response : Pipeline.InferResponse) (parser : Pipeline.MessageParser) :
    Py ProcessContext Unit := do
  let c ← Py.read
  Py.callAll [calls.redecode]
  let raw ← call (Pipeline.build calls.build parser (calls.cleanText c) response c.counts)
  Py.modify fun c => { c with
    rawResponse := some raw.toItems
    responseText := calls.finalText c }
  match c.promptText, calls.finalText c with
  | some prompt, some text =>
    Py.modify fun c => { c with
      fullConversationText := some (prompt ++ text)
      fullConversationTokenIds :=
        match Pipeline.nonemptyIds c.tokenIds, Pipeline.nonemptyIds c.responseIds with
        | some prompt, some ids => some (prompt ++ ids)
        | _, _ => c.tokenIds }
  | _, _ => Py.raise (.exception "TypeError")

/-- `process` from the inference on. -/
def TokenCalls.answer : Py ProcessContext Unit := do
  let response ← calls.inference
  calls.decodeResponse response
  updateStats response
  let parser ← Py.ofExcept calls.requestParser
  calls.buildResponse response parser

def TokenCalls.stages : Py ProcessContext Unit := do
  transformMessages calls.convert
  encodeText calls.encode
  calls.answer

/-- `TokenPipeline.process` -/
def TokenCalls.process (env : Surroundings) : Py (World Unit) Unit :=
  runStages env calls.stages fun _ => pure ()

end NonStream

section Stream

/-- One round of the `async for` over the upstream chunks; `yielded` is how the
`yield` ends, when there is one. -/
structure TokenRound where
  received : Except Raised Pipeline.InferResponse
  yielded : Option Raised

/-- The calls of one `process_stream`; `exhausted` finds no more chunk. -/
structure TokenStreamCalls (π : Type) where
  tok : Pipeline.Tokenizer
  build : Pipeline.BuildEnv
  sharedParser : Pipeline.MessageParser
  requestParser : Pipeline.RequestParser π
  convert : Except Raised String
  encode : Except Raised (List Int)
  createParser : Option Raised
  rounds : List TokenRound
  exhausted : Option Raised
  redecode : Option Raised
  usageYield : Option Raised

variable {π : Type} (calls : TokenStreamCalls π) (env : Surroundings)

/-- `_process_stream_chunk` and, for a chunk that is passed on, its `yield`. -/
def TokenStreamCalls.takeChunk (round : TokenRound) :
    Py (World (Pipeline.StreamContext π)) Unit := do
  let chunk ← Py.ofExcept round.received
  let w ← Py.read
  let (sent, stream) ← call (Pipeline.processStreamChunk calls.tok calls.requestParser
    (w.context.tokenIds.getD []) w.stream chunk)
  Py.modify fun w => { w with stream := stream.countSent sent }
  match sent with
  | some chunk => yieldChunk chunk.toItems round.yielded
  | none => pure ()

def TokenStreamCalls.streamRounds : List TokenRound → Py (World (Pipeline.StreamContext π)) Unit
  | [] => Py.callAll [calls.exhausted]
  | round :: rest => do
    calls.takeChunk round
    let w ← Py.read
    if w.stream.streamFinished then pure () else TokenStreamCalls.streamRounds rest

/-- What `_finalize_stream` leaves in the context. -/
def ProcessContext.finalized (t : Pipeline.Trajectory) (c : ProcessContext) : ProcessContext :=
  { c.withCounts t.counts with
    responseText := some t.responseText
    responseIds := t.responseIds
    tokenResponse := some t.tokenResponse.toItems
    rawResponse := some t.rawResponse.toItems
    fullConversationText := some t.fullConversationText
    fullConversationTokenIds := t.fullConversationTokenIds.or c.fullConversationTokenIds
    textResponse := some ⟨some t.responseText, t.responseIds⟩ }

/-- `_finalize_stream`; without a prompt text it raises before the store. -/
def TokenStreamCalls.finalizeStream : Py (World (Pipeline.StreamContext π)) Unit := do
  let w ← Py.read
  Py.callAll [calls.redecode]
  match w.context.promptText with
  | none => Py.raise (.exception "TypeError")
  | some promptText =>
    let t ← call (Pipeline.finalizeStream calls.tok calls.build calls.sharedParser promptText
      w.context.tokenIds w.stream)
    onContext (Py.modify (·.finalized t))
    storeTrajectory env

/-- The chunk with the usage, sent if there are completion tokens. -/
def TokenStreamCalls.sendUsage : Py (World (Pipeline.StreamContext π)) Unit := do
  let w ← Py.read
  if w.context.completionTokens.truthy then
    yieldChunk (Pipeline.usageChunk w.context.counts) calls.usageYield
  else pure ()

/-- `process_stream` up to `_finalize_stream` -/
def TokenStreamCalls.receive : Py (World (Pipeline.StreamContext π)) Unit := do
  onContext (transformMessages calls.convert)
  onContext (encodeText calls.encode)
  Py.callAll [calls.createParser]
  calls.streamRounds calls.rounds

/-- `TokenPipeline.process_stream` -/
def TokenStreamCalls.processStream : Py (World (Pipeline.StreamContext π)) Unit :=
  Py.tryCancelled
    (do
      calls.receive
      calls.finalizeStream env
      calls.sendUsage)
    (do
      Py.tryExcept (calls.finalizeStream env) fun _ => pure ()
      Py.raise .cancelled)
    fun e => do
      onContext (Py.modify (·.failed env e))
      Py.raise e

end Stream

end TrajProxy.Record
