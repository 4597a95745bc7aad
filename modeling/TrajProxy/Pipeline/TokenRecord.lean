import TrajProxy.Library.Effect
import TrajProxy.Pipeline.TokenStream

/-! The record a request of `TokenPipeline` leaves: `OpenAIResponseBuilder.build`,
`process` from the upstream response on, and `_finalize_stream`.
`finalizeStream` is applied to the context of a stream that ended or was
cancelled; `_store_trajectory` writes the `Trajectory` either function returns. -/

namespace TrajProxy.Pipeline
open Text

structure FunctionCall where
  name : Option String
  arguments : Option String

/-- A tool call as a tool parser returns it; any of its fields may be `None`. -/
structure ToolCall where
  id : Option String
  type : Option String
  function : Option FunctionCall

/-- `ExtractedToolCallInformation`; `tool_calls` is empty where it is `None`. -/
structure ExtractedToolCalls where
  toolsCalled : Bool
  toolCalls : List ToolCall
  content : Option String

/-- What the builder calls on a `Parser`, for the request at hand. A tool parser
that returns `None` is one that raises: no branch tells the two apart. -/
structure MessageParser where
  extractReasoning : String → Except String (Option String × Option String)
  extractToolCalls : String → Except String ExtractedToolCalls
  supportsRequiredAndNamed : Bool

/-- The `tool_choice` of a request; a named one has a `function` of any kind. -/
inductive ToolChoice
  | named (function : Json)
  | required
  | auto

/-- `raw_request.get("tool_choice", "auto")`, sorted by `is_named_choice` and by
the comparison with `required`. -/
def ToolChoice.ofRequest (rawRequest : Items Json) : ToolChoice :=
  match rawRequest.get? "tool_choice" with
  | some (.str "required") => .required
  | some (.obj choice) =>
    match Json.getD choice "type" with
    | .str "function" => .named ((Items.get? choice "function").getD (.obj []))
    | _ => .auto
  | _ => .auto

/-- What `json.loads` raises: a `ValueError`, of which `JSONDecodeError` is one,
or a `RecursionError`. -/
inductive LoadsError
  | valueError
  | recursionError
  deriving DecidableEq

/-- The request's part of a build, with `json.loads`, `json.dumps` and the
generated `call_…` ids. -/
structure BuildEnv where
  toolChoice : ToolChoice
  includeReasoning : Bool
  loads : String → Except LoadsError Json
  dumps : Json → String
  newId : Nat → String

/-- The environment for the request of a client. -/
def BuildEnv.forRequest (env : BuildEnv) (rawRequest : Items Json) : BuildEnv :=
  { env with
    toolChoice := .ofRequest rawRequest
    includeReasoning := ((rawRequest.get? "include_reasoning").getD (.bool true)).truthy }

/-- The message parts the builder works on. -/
structure MessageParts where
  content : Option String
  reasoning : Option String
  toolCalls : List Json
  finishReason : Option String

def toolCallJson (id type name arguments : Json) : Json :=
  .obj [("id", id), ("type", type), ("function", .obj [("name", name), ("arguments", arguments)])]

/-- The dictionary of a tool call, which one without a function has none of. -/
def ToolCall.toJson? (tc : ToolCall) : Option Json :=
  tc.function.map fun function =>
    toolCallJson (.ofOption .str tc.id) (.ofOption .str tc.type) (.ofOption .str function.name)
      (.ofOption .str function.arguments)

/-- `item.get(key, default)`, which only a dictionary has. -/
def itemGet (item : Json) (key : String) (default : Json) : Except String Json :=
  match item with
  | .obj d => .ok ((Items.get? d key).getD default)
  | _ => .error "AttributeError"

/-- The reasoning step; a parser that raises leaves the text as it is. -/
def splitReasoning (env : BuildEnv) (parser : MessageParser) (content : String) :
    Option String × Option String :=
  match parser.extractReasoning content with
  | .ok (reasoning, content) => (if env.includeReasoning then reasoning else none, content)
  | .error _ => (none, some content)

/-- `tc.function.name == func_name` -/
def FunctionCall.isNamed (function : FunctionCall) (name : Json) : Bool :=
  match name with
  | .str name => function.name = some name
  | _ => false

/-- `next((tc for tc in tool_calls if tc.function.name == func_name), None)` -/
def findNamed (name : Json) : List ToolCall → Except String (Option (ToolCall × FunctionCall))
  | [] => .ok none
  | tc :: rest =>
    match tc.function with
    | none => .error "AttributeError"
    | some function => if function.isNamed name then .ok (some (tc, function)) else findNamed name rest

/-- `matched_tc.id or f"call_{…}"` -/
def idOr (id : Option String) (newId : String) : String :=
  match id with
  | none | some "" => newId
  | some id => id

/-- The one call of branch A whose arguments are the content itself. -/
def standardToolCall (env : BuildEnv) (name : Json) (content : String) (parts : MessageParts) :
    MessageParts :=
  { parts with
    toolCalls := [toolCallJson (.str (env.newId 0)) (.str "function") name (.str content)]
    content := none }

/-- Branch A, for a named function and a content. -/
def namedToolCall (env : BuildEnv) (parser : MessageParser) (name : Json) (content : String)
    (parts : MessageParts) : Except String MessageParts :=
  match parser.extractToolCalls content with
  | .error _ => .ok (standardToolCall env name content parts)
  | .ok result =>
    if result.toolsCalled then do
      match ← findNamed name result.toolCalls with
      | some (tc, function) => pure { parts with
          toolCalls := [toolCallJson (.str (idOr tc.id (env.newId 0))) (.str "function")
            (.ofOption .str function.name) (.ofOption .str function.arguments)]
          content := result.content }
      | none => pure (standardToolCall env name content parts)
    else .ok (standardToolCall env name content parts)

/-- One function of branch B's list. -/
def requiredToolCall (env : BuildEnv) (i : Nat) (item : Json) : Except String Json := do
  let name ← itemGet item "name" (.str "")
  let parameters ← itemGet item "parameters" (.obj [])
  pure (toolCallJson (.str (env.newId i)) (.str "function") name (.str (env.dumps parameters)))

/-- `final_content or "[]"` -/
def listText (content : Option String) : String :=
  match content with
  | none | some "" => "[]"
  | some content => content

/-- Branch B: the content is a JSON list of functions. Only a `ValueError` is
caught. -/
def requiredToolCalls (env : BuildEnv) (parts : MessageParts) : Except String MessageParts :=
  match env.loads (listText parts.content) with
  | .ok (.arr items) => do
    let toolCalls ← items.zipIdx.mapM fun (item, i) => requiredToolCall env i item
    pure { parts with toolCalls := toolCalls, content := none, finishReason := some "tool_calls" }
  | .ok _ | .error .valueError => pure parts
  | .error .recursionError => .error "RecursionError"

/-- Branch C: the tool parser reads the content, and whatever is raised is caught. -/
def autoToolCalls (env : BuildEnv) (parser : MessageParser) (parts : MessageParts) :
    MessageParts :=
  match parser.extractToolCalls (parts.content.getD "") with
  | .error _ => parts
  | .ok result =>
    if result.toolsCalled ∧ result.toolCalls ≠ [] then
      match result.toolCalls.mapM ToolCall.toJson? with
      | none => parts
      | some toolCalls => { parts with
          toolCalls := toolCalls
          content := result.content
          finishReason :=
            match env.toolChoice with
            | .named _ => parts.finishReason
            | _ => some "tool_calls" }
    else parts

/-- Branches A and B, for a parser that supports these tool choices. -/
def choiceToolCalls (env : BuildEnv) (parser : MessageParser) (parts : MessageParts) :
    Except String MessageParts :=
  match env.toolChoice, parser.supportsRequiredAndNamed with
  | .named function, true => do
    let name ← itemGet function "name" .null
    match parts.content.filter (· ≠ "") with
    | some content =>
      if name.truthy then namedToolCall env parser name content parts else pure parts
    | none => pure parts
  | .required, true => requiredToolCalls env parts
  | _, _ => .ok parts

/-- The three branches, each only while there is no tool call. -/
def extractToolCalls (env : BuildEnv) (parser : MessageParser) (parts : MessageParts) :
    Except String MessageParts :=
  if parts.toolCalls.isEmpty then do
    let parts ← choiceToolCalls env parser parts
    pure (if parts.toolCalls.isEmpty then autoToolCalls env parser parts else parts)
  else .ok parts

/-- A blank content is no content, or an empty one next to tool calls. -/
def MessageParts.normalized (parts : MessageParts) : MessageParts :=
  { parts with
    content :=
      match parts.content.filter fun content => !isBlank content with
      | some content => some content
      | none => if parts.toolCalls.isEmpty then none else some ""
    reasoning := parts.reasoning.filter (· ≠ "") }

/-- The message and finish reason `build` makes of the clean text and of the
`tool_calls` and `finish_reason` of the upstream choice. -/
def buildMessage (env : BuildEnv) (parser : MessageParser) (content : String)
    (toolCalls : List Json) (finishReason : Option String) : Except String MessageParts := do
  let split := splitReasoning env parser content
  let parts ← extractToolCalls env parser ⟨split.2, split.1, toolCalls, finishReason⟩
  pure parts.normalized

/-- `message.get(key)` of the upstream choice, which completions rarely have. -/
def upstreamMessage (choice : Option InferChoice) (key : String) : Except String Json :=
  let message := (choice.map fun c => Json.getD c.extras "message").getD .null
  if message.truthy then itemGet message key .null else .ok .null

structure RawUsage where
  promptTokens : Json
  completionTokens : Json
  totalTokens : Json
  promptTokensDetails : Json
  completionTokensDetails : Json

structure RawResponse where
  message : MessageParts
  audio : Json
  functionCall : Json
  refusal : Json
  logprobs : Option (Items Json)
  tokenIds : Option (List Int)
  usage : RawUsage

structure TokenCounts where
  promptTokens : Json
  completionTokens : Json
  totalTokens : Json

/-- `value or 0` -/
def orZero (value : Json) : Json := if value.truthy then value else .int 0

/-- `OpenAIResponseBuilder.build` -/
def build (env : BuildEnv) (parser : MessageParser) (content : String)
    (tokenResponse : InferResponse) (counts : TokenCounts) : Except String RawResponse := do
  let choice := tokenResponse.choices.head?
  let refusal ← upstreamMessage choice "refusal"
  let audio ← upstreamMessage choice "audio"
  let functionCall ← upstreamMessage choice "function_call"
  let message ← buildMessage env parser content
    ((choice.bind fun c => c.toolCalls.get).getD []) (getFinishReason tokenResponse)
  let rawUsage := tokenResponse.usage.get.getD []
  pure {
    message := message
    audio := audio
    functionCall := functionCall
    refusal := refusal
    logprobs := choice.bind fun c => c.logprobs.get
    tokenIds := choice.bind fun c => c.tokenIds.get
    usage := {
      promptTokens := orZero counts.promptTokens
      completionTokens := orZero counts.completionTokens
      totalTokens := orZero counts.totalTokens
      promptTokensDetails := Json.getD rawUsage "prompt_tokens_details"
      completionTokensDetails := Json.getD rawUsage "completion_tokens_details" } }

/-- The fields of the context that `insert` stores. -/
structure Trajectory where
  promptText : String
  tokenIds : Option (List Int)
  tokenResponse : InferResponse
  responseText : String
  responseIds : Option (List Int)
  rawResponse : RawResponse
  counts : TokenCounts
  fullConversationText : String
  fullConversationTokenIds : Option (List Int)

/-- `_decode_response`; without a response text its log line raises. -/
def decodeResponse (tok : Tokenizer) (response : InferResponse) :
    Except String (String × Option (List Int)) :=
  let (text, tokenIds) := parseTextResponse response
  match nonemptyIds tokenIds with
  | some ids => .ok (tok.decode ids, some ids)
  | none =>
    match text.filter (· ≠ "") with
    | none => .error "TypeError"
    | some text =>
      match parseTokenIdsFromText text with
      | some ids => .ok (tok.decode ids, some ids)
      | none => .ok (text, none)

/-- What is decoded is the text of the ids, or a text that is not empty. -/
theorem decodeResponse_ok {tok : Tokenizer} {response : InferResponse} {decoded : String}
    {ids : Option (List Int)} (h : decodeResponse tok response = .ok (decoded, ids)) :
    (∃ ids', ids = some ids' ∧ decoded = tok.decode ids') ∨ (ids = none ∧ decoded ≠ "") := by
  unfold decodeResponse at h
  dsimp only at h
  cases hids : nonemptyIds (parseTextResponse response).2 with
  | some ids' =>
    rw [hids] at h
    obtain ⟨rfl, rfl⟩ := Prod.mk.inj (Except.ok.inj h)
    exact Or.inl ⟨ids', rfl, rfl⟩
  | none =>
    rw [hids] at h
    cases htext : (parseTextResponse response).1.filter (· ≠ "") with
    | none =>
      rw [htext] at h
      nomatch h
    | some plain =>
      rw [htext] at h
      have nonempty : plain ≠ "" := by simpa using (Option.filter_eq_some_iff.mp htext).2
      cases hparsed : parseTokenIdsFromText plain with
      | some ids' =>
        simp only [hparsed] at h
        obtain ⟨rfl, rfl⟩ := Prod.mk.inj (Except.ok.inj h)
        exact Or.inl ⟨ids', rfl, rfl⟩
      | none =>
        simp only [hparsed] at h
        obtain ⟨rfl, rfl⟩ := Prod.mk.inj (Except.ok.inj h)
        exact Or.inr ⟨rfl, nonempty⟩

/-- `_update_stats` -/
def updateStats (tokenIds : List Int) (response : InferResponse) (responseIds : Option (List Int)) :
    Except String TokenCounts :=
  let promptTokens := tokenIds.length
  match response.usage with
  | .value usage => .ok {
      promptTokens := .int promptTokens
      completionTokens := (usage.get? "completion_tokens").getD (.int 0)
      totalTokens := (usage.get? "total_tokens").getD (.int 0) }
  | .null => .error "AttributeError"
  | .missing =>
    let completionTokens := (responseIds.getD []).length
    .ok {
      promptTokens := .int promptTokens
      completionTokens := .int completionTokens
      totalTokens := .int (promptTokens + completionTokens : Nat) }

/-- `process` from the upstream response on, with the per-request parser. -/
def process (tok : Tokenizer) (env : BuildEnv) (requestParser : MessageParser)
    (promptText : String) (tokenIds : List Int) (response : InferResponse) :
    Except String Trajectory := do
  let (decoded, responseIds) ← decodeResponse tok response
  let counts ← updateStats tokenIds response responseIds
  let cleanResponseText :=
    match nonemptyIds responseIds with
    | some ids => tok.decodeClean ids
    | none => decoded
  let rawResponse ← build env requestParser cleanResponseText response counts
  let responseText :=
    match nonemptyIds responseIds with
    | some ids => tok.decode ids
    | none => decoded
  pure {
    promptText := promptText
    tokenIds := some tokenIds
    tokenResponse := response
    responseText := responseText
    responseIds := responseIds
    rawResponse := rawResponse
    counts := counts
    fullConversationText := promptText ++ responseText
    fullConversationTokenIds :=
      match nonemptyIds (some tokenIds), nonemptyIds responseIds with
      | some prompt, some ids => some (prompt ++ ids)
      | _, _ => some tokenIds }

variable {π : Type}

/-- `token_response` at the end of a stream. -/
def streamTokenResponse (cleanText : String) (tokenIds : Option (List Int)) (counts : TokenCounts)
    (ctx : StreamContext π) : InferResponse where
  choices := [{
    text := .value cleanText
    tokenIds := .value ctx.streamBufferIds
    outputTokenIds := .missing
    finishReason := .value "stop"
    logprobs :=
      match ctx.streamLogprobs with
      | none | some [] => .missing
      | some logprobs => .value logprobs
    toolCalls := .missing
    extras := ctx.streamInferChoiceExtras.foldl (fun d item => d.setdefault item.1 item.2)
      (match nonemptyIds tokenIds with
        | some ids => [("prompt_token_ids", .arr (ids.map Json.int))]
        | none => []) }]
  usage := .value (ctx.usage.getD [("prompt_tokens", counts.promptTokens),
    ("completion_tokens", counts.completionTokens), ("total_tokens", counts.totalTokens)])
  extras := ctx.streamInferMetadata.foldl (fun d item => d.setdefault item.1 item.2) []

/-- `_finalize_stream` up to the store, with the shared parser. `tokenIds` is
`None` when the stream was cancelled before the prompt was encoded. -/
def finalizeStream (tok : Tokenizer) (env : BuildEnv) (sharedParser : MessageParser)
    (promptText : String) (tokenIds : Option (List Int)) (ctx : StreamContext π) :
    Except String Trajectory := do
  let responseIds := nonemptyIds (some ctx.streamBufferIds)
  let completionTokens : Nat :=
    match responseIds with
    | some ids => ids.length
    | none =>
      if ctx.streamBufferText = "" then 0 else max 1 (ctx.streamBufferText.length / 4)
  let promptTokens := tokenIds.map List.length
  let counts : TokenCounts := {
    promptTokens := (promptTokens.map fun n : Nat => Json.int n).getD .null
    completionTokens := .int completionTokens
    totalTokens := .int (promptTokens.getD 0 + completionTokens : Nat) }
  let cleanUserText :=
    match responseIds with
    | some ids => tok.decodeClean ids
    | none => ctx.streamBufferText
  let tokenResponse := streamTokenResponse cleanUserText tokenIds counts ctx
  let rawResponse ← build env sharedParser cleanUserText tokenResponse counts
  let responseText :=
    match responseIds with
    | some ids => tok.decode ids
    | none => ctx.streamBufferText
  pure {
    promptText := promptText
    tokenIds := tokenIds
    tokenResponse := tokenResponse
    responseText := responseText
    responseIds := some ctx.streamBufferIds
    rawResponse := rawResponse
    counts := counts
    fullConversationText := promptText ++ responseText
    fullConversationTokenIds :=
      match nonemptyIds tokenIds, responseIds with
      | some prompt, some ids => some (prompt ++ ids)
      | _, _ => none }

/-- `process_stream` of a stream that ends. -/
def processStream (tok : Tokenizer) (env : BuildEnv) (sharedParser : MessageParser)
    (P : RequestParser π) (promptText : String) (tokenIds : List Int)
    (chunks : List InferResponse) : Except String Trajectory := do
  let result ← processChunks tok P tokenIds (.initial P) chunks
  finalizeStream tok env sharedParser promptText (some tokenIds) result.2

/-- A tokenizer whose tokens are the code points. -/
def codePoints : Tokenizer where
  encode text := text.toList.map fun c => (c.toNat : Int)
  decode ids := String.ofList (ids.map fun id => Char.ofNat id.toNat)
  decodeClean ids := String.ofList (ids.map fun id => Char.ofNat id.toNat)

def plainEnv : BuildEnv where
  toolChoice := .auto
  includeReasoning := true
  loads := fun _ => .error .valueError
  dumps := fun _ => ""
  newId := fun _ => ""

/-- A `Parser` with neither a reasoning nor a tool parser. -/
def noParser : MessageParser where
  extractReasoning content := .ok (none, some content)
  extractToolCalls content := .ok ⟨false, [], some content⟩
  supportsRequiredAndNamed := true

/-- `parse_delta` of such a `Parser`. -/
def passThrough : RequestParser Unit where
  start := ()
  parseDelta _ text _ _ := .ok (some ⟨some text, none, []⟩, ())
  toolCallsSeen _ := false

/-- A completion, or a chunk of one, with a text and ids. -/
def oneChoice (text : Field String) (tokenIds : Field (List Int)) (finishReason : Field String) :
    InferResponse :=
  ⟨[⟨text, tokenIds, .missing, finishReason, .missing, .missing, []⟩], .missing, []⟩

end TrajProxy.Pipeline
