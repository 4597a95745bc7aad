import TrajProxy.Direct.Stream

/-! A chat completion, the streams that are a split of it, and what the stream
leaves of it. A split cuts every text and list into pieces, one chunk may carry
pieces of several fields, and the fragments of different tool calls mix freely.
An empty and a missing text or list are the same. -/

namespace TrajProxy.Direct

structure ToolCall where
  id : String
  type : String
  name : String
  arguments : String
  deriving DecidableEq

/-- The choice and the usage of a completion that was not streamed. -/
structure Completion where
  content : String
  reasoning : String
  toolCalls : List ToolCall
  functionCall : Option FunctionCall
  logprobs : List Json
  tokenIds : List Int
  stopReason : Json
  finishReason : String
  usage : Items Json

def choices (chunks : List ChatChunk) : List ChatChoice := chunks.filterMap (·.choices.head?)

/-- The fragments of all tool calls, in the order they arrive. -/
def fragments (chunks : List ChatChunk) : List ToolCallDelta :=
  (choices chunks).flatMap fun choice => choice.delta.toolCalls.get.getD []

def functionFragments (chunks : List ChatChunk) : List FunctionDelta :=
  (choices chunks).filterMap fun choice => functionDelta choice.delta.functionCall

def logprobPiece (choice : ChatChoice) : List Json :=
  (choice.logprobs.get.bind fun logprobs => logprobs.content.get).getD []

def tokenIdPiece (choice : ChatChoice) : List Int := choice.tokenIds.get.getD []

def ToolCallDelta.namePiece (tc : ToolCallDelta) : String :=
  (tc.function.get.map fun f => f.name.text).getD ""

def ToolCallDelta.argumentsPiece (tc : ToolCallDelta) : String :=
  (tc.function.get.map fun f => f.arguments.text).getD ""

/-- The value is sent whole, once or repeatedly. -/
structure Whole (pieces : List String) (value : String) : Prop where
  only : ∀ piece ∈ pieces, piece = "" ∨ piece = value
  sent : value = "" ∨ value ∈ pieces

/-- The last piece that is not empty. -/
def lastPiece (pieces : List String) : String :=
  ((pieces.filter (· ≠ "")).getLast?).getD ""

/-- The fragments of one tool call. A name may be cut like any text, or be
repeated whole. -/
structure CallSplit (call : ToolCall) (parts : List ToolCallDelta) : Prop where
  nonempty : parts ≠ []
  ids : Whole (parts.map fun tc => tc.id.text) call.id
  types : Whole (parts.map fun tc => tc.type.text) "function"
  names : String.join (parts.map ToolCallDelta.namePiece) = call.name ∨
    Whole (parts.map ToolCallDelta.namePiece) call.name
  arguments : String.join (parts.map ToolCallDelta.argumentsPiece) = call.arguments

def partsOf (chunks : List ChatChunk) (i : Nat) : List ToolCallDelta :=
  (fragments chunks).filter fun tc => tc.key = some i

structure FunctionSplit (call : FunctionCall) (parts : List FunctionDelta) : Prop where
  nonempty : parts ≠ []
  names : String.join (parts.map fun f => f.name.text) = call.name ∨
    Whole (parts.map fun f => f.name.text) call.name
  arguments : String.join (parts.map fun f => f.arguments.text) = call.arguments

/-- `chunks` is a stream of the completion. -/
structure Split (completion : Completion) (chunks : List ChatChunk) : Prop where
  content : String.join ((choices chunks).map fun choice => choice.delta.content.text) =
    completion.content
  reasoning : String.join ((choices chunks).map fun choice => deltaReasoning choice.delta) =
    completion.reasoning
  indexed : ∀ tc ∈ fragments chunks, ∃ i < completion.toolCalls.length, tc.index = .value i
  calls : ∀ i (h : i < completion.toolCalls.length),
    CallSplit completion.toolCalls[i] (partsOf chunks i)
  functionTypes : ∀ call ∈ completion.toolCalls, call.type = "function"
  distinctIds : (completion.toolCalls.map ToolCall.id).Nodup
  functionCall : match completion.functionCall with
    | none => functionFragments chunks = []
    | some call => FunctionSplit call (functionFragments chunks)
  logprobs : (choices chunks).flatMap logprobPiece = completion.logprobs
  tokenIds : (choices chunks).flatMap tokenIdPiece = completion.tokenIds
  stopReason : ∀ choice ∈ choices chunks,
    choice.stopReason.isNull ∨ choice.stopReason = completion.stopReason
  stopSent : completion.stopReason.isNull ∨
    ∃ choice ∈ choices chunks, choice.stopReason = completion.stopReason
  finishReason : Whole ((choices chunks).map fun choice => choice.finishReason.text)
    completion.finishReason
  finished : completion.finishReason ≠ ""
  usage : (chunks.filterMap chunkUsage).getLast? = some completion.usage

/-- What the merge made of a tool call, `None` read as empty. -/
def MergedToolCall.toToolCall (entry : MergedToolCall) : ToolCall where
  id := entry.id.getD ""
  type := entry.type.getD ""
  name := entry.name
  arguments := entry.arguments

/-- The stored choice and usage are those of the completion. -/
structure Reconstructs (completion : Completion) (response : RawResponse) : Prop where
  content : response.choice.message.content.getD "" = completion.content
  reasoning : response.choice.message.reasoning.getD "" = completion.reasoning
  toolCalls : response.choice.message.toolCalls.map MergedToolCall.toToolCall =
    completion.toolCalls
  functionCall : response.choice.message.functionCall = completion.functionCall
  logprobs : (response.choice.logprobs.bind fun logprobs => logprobs.content.get).getD [] =
    completion.logprobs
  tokenIds : response.choice.tokenIds.getD [] = completion.tokenIds
  stopReason : response.choice.stopReason = completion.stopReason
  finishReason : response.choice.finishReason = completion.finishReason
  usage : ∀ key, Json.getD response.usage key = Json.getD completion.usage key

/-- The indexes in the order of their first fragments. -/
def firstIndexes (chunks : List ChatChunk) : List Nat :=
  ((fragments chunks).filterMap ToolCallDelta.key).reverse.dedup.reverse

/-- The tool calls begin in the order of their indexes, and the last fragment of
a name is the whole name. -/
structure OrderedWhole (completion : Completion) (chunks : List ChatChunk) : Prop where
  ordered : firstIndexes chunks = List.range completion.toolCalls.length
  names : ∀ i (h : i < completion.toolCalls.length),
    lastPiece ((partsOf chunks i).map ToolCallDelta.namePiece) = completion.toolCalls[i].name
  functionName : ∀ call, completion.functionCall = some call →
    lastPiece ((functionFragments chunks).map fun f => f.name.text) = call.name

section Pieces

theorem foldl_keepTruthy (start : String) (pieces : List String) :
    pieces.foldl keepTruthy start = if lastPiece pieces = "" then start else lastPiece pieces := by
  induction pieces using List.reverseRecOn with
  | nil => rfl
  | append_singleton pieces piece ih =>
    rw [List.foldl_append, List.foldl_cons, List.foldl_nil, ih]
    by_cases hpiece : piece = ""
    · simp [lastPiece, List.filter_append, hpiece, keepTruthy]
    · simp [lastPiece, List.filter_append, hpiece, keepTruthy]

theorem lastPiece_whole {pieces : List String} {value : String} (h : Whole pieces value) :
    lastPiece pieces = value := by
  unfold lastPiece
  cases hlast : (pieces.filter (· ≠ "")).getLast? with
  | none =>
    rw [List.getLast?_eq_none_iff, List.filter_eq_nil_iff] at hlast
    rcases h.sent with hempty | hmem
    · exact hempty.symm
    · have hvalue := hlast value hmem
      simp only [ne_eq, decide_not, Bool.not_eq_eq_eq_not, Bool.not_true, decide_eq_false_iff_not,
        not_not] at hvalue
      exact hvalue.symm
  | some piece =>
    have hpiece := List.mem_filter.mp (List.mem_of_getLast? hlast)
    rcases h.only piece hpiece.1 with hempty | hvalue
    · simp [hempty] at hpiece
    · exact hvalue

theorem foldl_keepTruthy_whole {start : String} {pieces : List String} {value : String}
    (h : Whole pieces value) (hstart : start = "" ∨ start = value) :
    pieces.foldl keepTruthy start = value := by
  rw [foldl_keepTruthy, lastPiece_whole h]
  split_ifs with hvalue
  · rcases hstart with hempty | hsame
    · exact hempty.trans hvalue.symm
    · exact hsame
  · rfl

end Pieces

end TrajProxy.Direct
