import TrajProxy.Direct.Stream

/-! The values of `Direct.Stream` as the dictionaries they stand for.
What the pipeline builds is written key by key in the order of the source; of
what came from upstream the extras are written first. -/

namespace TrajProxy.Direct

section Upstream

def tokenIdsJson (ids : List Int) : Json := .arr (ids.map .int)

def FunctionDelta.toItems (f : FunctionDelta) : Items Json :=
  (f.extras.setField "name" .str f.name).setField "arguments" .str f.arguments

def ToolCallDelta.toItems (tc : ToolCallDelta) : Items Json :=
  (((tc.extras.setField "index" (fun n : Nat => .int n) tc.index).setField "id" .str
    tc.id).setField "type" .str tc.type).setField "function" (fun f => .obj f.toItems) tc.function

def ChatDelta.toItems (delta : ChatDelta) : Items Json :=
  let d := delta.extras.setField "role" .str delta.role
  let d := d.setField "content" .str delta.content
  let d := d.setField "reasoning" .str delta.reasoning
  let d := d.setField "reasoning_content" .str delta.reasoningContent
  let d := d.setField "tool_calls" (fun calls => .arr (calls.map fun tc => .obj tc.toItems))
    delta.toolCalls
  d.setField "function_call" (fun f => .obj f.toItems) delta.functionCall

def Logprobs.toItems (logprobs : Logprobs) : Items Json :=
  logprobs.extras.setField "content" .arr logprobs.content

def ChatChoice.toItems (choice : ChatChoice) : Items Json :=
  let d := choice.extras.set "delta" (.obj choice.delta.toItems)
  let d := d.setField "finish_reason" .str choice.finishReason
  let d := d.set "stop_reason" choice.stopReason
  let d := d.setField "logprobs" (fun logprobs => .obj logprobs.toItems) choice.logprobs
  d.setField "token_ids" tokenIdsJson choice.tokenIds

def ChatChunk.toItems (chunk : ChatChunk) : Items Json :=
  let d := chunk.metadata.set "choices" (.arr (chunk.choices.map fun choice => .obj choice.toItems))
  let d := d.setField "usage" .obj chunk.usage
  d.setField "prompt_token_ids" tokenIdsJson chunk.promptTokenIds

end Upstream

section Record

def FunctionCall.toItems (call : FunctionCall) : Items Json :=
  [("name", .str call.name), ("arguments", .str call.arguments)]

def MergedToolCall.toItems (call : MergedToolCall) : Items Json :=
  [("id", .ofOption .str call.id), ("type", .ofOption .str call.type),
    ("function", .obj [("name", .str call.name), ("arguments", .str call.arguments)])]

/-- The message of `_finalize_stream`: the extras first, the other keys over them. -/
def RawMessage.toItems (message : RawMessage) : Items Json :=
  let d := message.extras.set "role" (.str message.role)
  let d := d.set "content" (.ofOption .str message.content)
  let d := d.set "annotations" .null
  let d := d.set "audio" .null
  let d := d.set "function_call" (.ofOption (fun call => .obj call.toItems) message.functionCall)
  let d := d.set "refusal" .null
  let d :=
    match message.reasoning with
    | none => d
    | some text => (d.set "reasoning" (.str text)).set "reasoning_content" (.str text)
  -- without a call the source leaves the key out, or writes an empty list
  if message.toolCalls.isEmpty then d
  else d.set "tool_calls" (.arr (message.toolCalls.map fun call => .obj call.toItems))

def RawChoice.toItems (choice : RawChoice) : Items Json :=
  let d := Items.update [("index", .int 0)] choice.extras
  let d := d.set "message" (.obj choice.message.toItems)
  let d := d.set "logprobs" (.ofOption (fun logprobs => .obj logprobs.toItems) choice.logprobs)
  let d := d.set "token_ids" (.ofOption tokenIdsJson choice.tokenIds)
  let d := d.set "finish_reason" (.str choice.finishReason)
  if choice.stopReason.isNull then d else d.set "stop_reason" choice.stopReason

def RawResponse.toItems (response : RawResponse) : Items Json :=
  (response.metadata.set "choices" (.arr [.obj response.choice.toItems])).set "usage"
    (.obj response.usage)

end Record

variable {key : String}

theorem get?_messageItems (message : RawMessage)
    (other : key ∉ ["role", "content", "reasoning", "reasoning_content", "tool_calls",
      "function_call", "annotations", "audio", "refusal"]) :
    message.toItems.get? key = message.extras.get? key := by
  simp only [List.mem_cons, List.not_mem_nil, or_false, not_or] at other
  unfold RawMessage.toItems
  dsimp only
  split_ifs <;> split <;> simp [Items.get?_set, other]

theorem get?_choiceItems (choice : RawChoice) (unique : (choice.extras.map Prod.fst).Nodup)
    (other : key ∉ ["index", "message", "finish_reason", "logprobs", "token_ids",
      "stop_reason"]) :
    choice.toItems.get? key = choice.extras.get? key := by
  simp only [List.mem_cons, List.not_mem_nil, or_false, not_or] at other
  have base : (Items.update [("index", Json.int 0)] choice.extras).get? key =
      choice.extras.get? key := by
    rw [Items.get?_update, Items.lastValue_of_nodup unique,
      Items.get?_cons_ne _ _ (Ne.symm other.1), Items.get?_nil, Option.or_none]
  unfold RawChoice.toItems
  dsimp only
  split_ifs <;> simp [Items.get?_set, other, base]

theorem get?_responseItems (response : RawResponse) (other : key ∉ ["choices", "usage"]) :
    response.toItems.get? key = response.metadata.get? key := by
  simp only [List.mem_cons, List.not_mem_nil, or_false, not_or] at other
  simp [RawResponse.toItems, Items.get?_set, other]

end TrajProxy.Direct
