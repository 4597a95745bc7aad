import TrajProxy.Library.Json
import TrajProxy.Library.Text

/-! Responses and stream chunks of `/v1/completions`, and `InferResponseParser`.
The keys the pipeline names are fields, the others stay in `extras`, which has
none of those names. A missing key and `null` are told apart where the source
tests `key in d`. The keys `id`, `object`, `created`, `model` and `index` are
passed on or regenerated and never looked at. -/

namespace TrajProxy.Pipeline

structure InferChoice where
  text : Field String
  tokenIds : Field (List Int)
  outputTokenIds : Field (List Int)
  finishReason : Field String
  logprobs : Field (Items Json)
  toolCalls : Field (List Json)
  extras : Items Json

/-- `choices` is empty where the key is missing, `null` or an empty list. -/
structure InferResponse where
  choices : List InferChoice
  usage : Field (Items Json)
  extras : Items Json

/-- `token_ids`, when there are any: `None` and `[]` are both false. -/
def nonemptyIds (ids : Option (List Int)) : Option (List Int) :=
  ids.filter fun ids => !ids.isEmpty

theorem nonemptyIds_some (ids : List Int) :
    nonemptyIds (some ids) = if ids = [] then none else some ids := by
  cases ids <;> rfl

/-- `InferResponseParser.parse_text_response` -/
def parseTextResponse (response : InferResponse) : Option String × Option (List Int) :=
  match response.choices with
  | [] => (some "", none)
  | choice :: _ =>
    (match choice.text with
      | .missing => some ""
      | text => text.get,
    choice.tokenIds.get)

/-- `InferResponseParser.parse_token_ids_from_text` -/
def parseTokenIdsFromText (text : String) : Option (List Int) :=
  if Text.isBlank text then some [] else (Text.split text).mapM Text.int?

structure ParsedChunk where
  content : String
  tokenIds : List Int
  toolCallsDelta : Option (List Json)

/-- The text of a chunk and the ids written in it; a `null` text has no `strip`. -/
def parseChunkText (choice : InferChoice) : Except String (String × List Int) :=
  match choice.text with
  | .missing => .ok ("", [])
  | .null => .error "AttributeError"
  | .value text =>
    match parseTokenIdsFromText text with
    | some ids => .ok ("", ids)
    | none => .ok (text, [])

/-- `InferResponseParser.parse_stream_chunk` in token mode -/
def parseStreamChunk (chunk : InferResponse) : Except String ParsedChunk :=
  match chunk.choices with
  | [] => .ok ⟨"", [], none⟩
  | choice :: _ => do
    let text ← parseChunkText choice
    let tokenIds :=
      match choice.tokenIds, choice.outputTokenIds with
      | .value ids, _ => ids
      | .null, _ => []
      | .missing, .value ids => ids
      | .missing, .null => []
      | .missing, .missing => text.2
    pure ⟨text.1, tokenIds, choice.toolCalls.get⟩

/-- `InferResponseParser.is_stream_finished` -/
def isStreamFinished (chunk : InferResponse) : Bool :=
  (chunk.choices.head?.bind fun choice => choice.finishReason.get).isSome

/-- `InferResponseParser.get_finish_reason` -/
def getFinishReason (chunk : InferResponse) : Option String :=
  match chunk.choices with
  | [] => some "stop"
  | choice :: _ =>
    match choice.finishReason with
    | .missing => some "stop"
    | reason => reason.get

end TrajProxy.Pipeline
