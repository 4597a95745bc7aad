import TrajProxy.Direct.Rendering
import TrajProxy.Pipeline.Completion
import TrajProxy.Record.Context

/-! `DirectPipeline.process` and `process_stream` on the context they hand to
`insert`. A response has the keys `process` reads as fields and its other items
apart; it is changed in place, so every change is written back to
`context.raw_response`. Streams use the functions of `Direct.Stream`. -/

namespace TrajProxy.Record

section Response

/-- A `message`: `content` and the other items. -/
structure ChatMessage where
  content : Field String
  items : Items Json

structure ResponseChoice where
  message : Field ChatMessage
  tokenIds : Field (List Int)
  items : Items Json

structure ChatResponse where
  choices : Field (List ResponseChoice)
  usage : Field (Items Json)
  promptTokenIds : Field (List Int)
  items : Items Json

def ChatMessage.toItems (message : ChatMessage) : Items Json :=
  message.items.setField "content" .str message.content

def ResponseChoice.toItems (choice : ResponseChoice) : Items Json :=
  (choice.items.setField "message" (fun m => .obj m.toItems) choice.message).setField "token_ids"
    Direct.tokenIdsJson choice.tokenIds

def ChatResponse.toItems (response : ChatResponse) : Items Json :=
  let d := response.items.setField "choices" (fun choices => .arr (choices.map (.obj ·.toItems)))
    response.choices
  let d := d.setField "usage" .obj response.usage
  d.setField "prompt_token_ids" Direct.tokenIdsJson response.promptTokenIds

/-- `reasoning` and `reasoning_content` are the same when only one is true. -/
def ChatMessage.mirrorReasoning (message : ChatMessage) : ChatMessage :=
  let content := Json.getD message.items "reasoning_content"
  let reasoning := Json.getD message.items "reasoning"
  if content.truthy ∧ ¬reasoning.truthy then
    { message with items := message.items.set "reasoning" content }
  else if reasoning.truthy ∧ ¬content.truthy then
    { message with items := message.items.set "reasoning_content" reasoning }
  else message

def ResponseChoice.mirrorReasoning (choice : ResponseChoice) : ResponseChoice :=
  { choice with message := choice.message.map ChatMessage.mirrorReasoning }

/-- `pop` of the three keys only kept for the trajectory. -/
def ResponseChoice.strip (choice : ResponseChoice) : ResponseChoice :=
  { choice with
    tokenIds := .missing
    items := (choice.items.erase "logprobs").erase "routed_experts" }

def ChatResponse.strip (response : ChatResponse) : ChatResponse :=
  { response with
    choices := response.choices.map (List.map ResponseChoice.strip)
    promptTokenIds := .missing }

def ChatMessage.isEmpty : ChatMessage → Bool
  | ⟨.missing, []⟩ => true
  | _ => false

def messageKeys : List String :=
  ["annotations", "audio", "function_call", "refusal", "reasoning", "reasoning_content"]

/-- The defaults of one message; an empty one is replaced by a dictionary of
which nothing is kept. -/
def ChatMessage.ensureDefaults (message : ChatMessage) : ChatMessage :=
  if message.isEmpty then message
  else
    let items := messageKeys.foldl (fun d key => d.setdefault key .null) message.items
    { content :=
        if (Json.getD items "tool_calls").truthy ∧ message.content.get = none then .value ""
        else message.content
      items := items }

def ResponseChoice.ensureDefaults (choice : ResponseChoice) : ResponseChoice :=
  { choice with message := choice.message.map ChatMessage.ensureDefaults }

/-- `_ensure_response_defaults` -/
def ChatResponse.ensureDefaults (response : ChatResponse) : ChatResponse :=
  match response.choices with
  | .missing => response
  | choices =>
    let usage := (response.usage.get.getD []).setdefault "prompt_tokens_details" .null
    { choices := choices.map (List.map ResponseChoice.ensureDefaults)
      usage := .value (usage.setdefault "completion_tokens_details" .null)
      promptTokenIds :=
        match response.promptTokenIds with
        | .missing => .null
        | ids => ids
      items := Direct.topLevelKeys.foldl (fun d key => d.setdefault key .null) response.items }

end Response

/-- `token_ids + response_ids`, once both are there and not empty. -/
def ProcessContext.joinIds (c : ProcessContext) : ProcessContext :=
  { c with
    fullConversationTokenIds :=
      match Pipeline.nonemptyIds c.tokenIds, Pipeline.nonemptyIds c.responseIds with
      | some prompt, some ids => some (prompt ++ ids)
      | _, _ => c.fullConversationTokenIds }

section NonStream

/-- The first choice as `process` reads it; a `null` message has no `get`. -/
def readChoice (response : ChatResponse) : Py ProcessContext ChatResponse :=
  match response.choices with
  | .value (choice :: rest) =>
    match choice.message.getOr ⟨.missing, []⟩ with
    | none => Py.raise (.exception "AttributeError")
    | some message => do
      let response := { response with choices := .value (choice.mirrorReasoning :: rest) }
      Py.modify fun c => { c with
        responseText := message.content.getOr ""
        rawResponse := some response.toItems
        responseIds := choice.tokenIds.get.or c.responseIds }
      pure response
  | _ => pure response

/-- The counts of `usage`; a `null` one has no `get`. -/
def readUsage (usage : Field (Items Json)) : Py ProcessContext Unit :=
  match usage with
  | .missing => pure ()
  | .null => Py.raise (.exception "AttributeError")
  | .value usage => Py.modify fun c => { c with
      promptTokens := (usage.get? "prompt_tokens").getD (.int 0)
      completionTokens := (usage.get? "completion_tokens").getD (.int 0)
      totalTokens := (usage.get? "total_tokens").getD (.int 0) }

/-- `process` up to the store. -/
def readResponse (inference : Except Raised ChatResponse) : Py ProcessContext ChatResponse := do
  let response ← Py.ofExcept inference
  Py.modify fun c => { c with rawResponse := some response.toItems }
  let response ← readChoice response
  Py.modify fun c => { c with tokenIds := response.promptTokenIds.get.or c.tokenIds }
  Py.modify ProcessContext.joinIds
  readUsage response.usage
  pure response

/-- `process` after the store; over `null` choices there is no loop. -/
def prepareResponse (response : ChatResponse) : Py ProcessContext Unit :=
  match response.choices with
  | .null => Py.raise (.exception "TypeError")
  | _ => Py.modify fun c => { c with rawResponse := some response.strip.ensureDefaults.toItems }

/-- `DirectPipeline.process` -/
def directProcess (env : Surroundings) (inference : Except Raised ChatResponse) :
    Py (World Unit) Unit :=
  runStages env (readResponse inference) prepareResponse

end NonStream

section Stream

structure DirectRound where
  received : Except Raised Direct.ChatChunk
  yielded : Option Raised

/-- The calls of one `process_stream`; `exhausted` finds no more chunk, and
`generated` are the items of a response that came without metadata. -/
structure DirectStreamCalls where
  rounds : List DirectRound
  exhausted : Option Raised
  generated : Items Json

variable (calls : DirectStreamCalls) (env : Surroundings)

def DirectRound.take (round : DirectRound) : Py (World Direct.DirectContext) Unit := do
  let chunk ← Py.ofExcept round.received
  Py.modify fun w =>
    let stream := Direct.accumulateStreamFields w.stream chunk
    { w with stream := { stream with streamChunkCount := stream.streamChunkCount + 1 } }
  yieldChunk (Direct.stripChunk chunk).toItems round.yielded

def DirectStreamCalls.streamRounds : List DirectRound → Py (World Direct.DirectContext) Unit
  | [] => Py.callAll [calls.exhausted]
  | round :: rest => do
    round.take
    DirectStreamCalls.streamRounds rest

/-- What `_finalize_stream` leaves in the context. -/
def ProcessContext.streamed (generated : Items Json) (stream : Direct.DirectContext)
    (c : ProcessContext) : ProcessContext :=
  let counts := Direct.estimateTokens stream
  ProcessContext.joinIds { c with
    responseText := some stream.streamBufferText
    promptTokens := counts.promptTokens
    completionTokens := counts.completionTokens
    totalTokens := counts.totalTokens
    rawResponse := some (Direct.finalizeStream generated stream).toItems
    tokenIds := stream.streamPromptTokenIds.or c.tokenIds
    responseIds := stream.streamTokenIds.or c.responseIds }

/-- `_finalize_stream` -/
def DirectStreamCalls.finalizeStream : Py (World Direct.DirectContext) Unit := do
  let w ← Py.read
  onContext (Py.modify (·.streamed calls.generated w.stream))
  storeTrajectory env

/-- `DirectPipeline.process_stream` -/
def DirectStreamCalls.processStream : Py (World Direct.DirectContext) Unit :=
  Py.tryExcept
    (do
      calls.streamRounds calls.rounds
      calls.finalizeStream env)
    fun e => do
      onContext (Py.modify (·.failed env e))
      Py.raise e

end Stream

end TrajProxy.Record
