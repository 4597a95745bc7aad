import TrajProxy.Library.Slice
import TrajProxy.Record.Client

/-! The two rows `RequestRepository.insert` builds from a context, in both storage
modes, and the formulas that give back what a compact row leaves out.
`cache_hit_tokens`, `processing_duration_ms`, `end_time` and `created_at`, which
may all be `NULL`, are not among the columns. A column that is `NULL` is `none`;
a token count is `null` then. -/

namespace TrajProxy.Record

inductive StorageMode
  | full
  | compact
  deriving DecidableEq

structure MetadataRow where
  uniqueId : Option String
  requestId : Option String
  sessionId : Option String
  runId : Option String
  model : Option String
  promptTokens : Json
  completionTokens : Json
  totalTokens : Json
  startTime : Option Nat
  error : Option String

structure DetailRow where
  uniqueId : Option String
  tokenizerPath : Option String
  messages : Option Json
  rawRequest : Option Json
  rawResponse : Option Json
  textRequest : Option Json
  textResponse : Option Json
  promptText : Option String
  tokenIds : Option (List Int)
  tokenRequest : Option Json
  tokenResponse : Option Json
  responseText : Option String
  responseIds : Option (List Int)
  fullConversationText : Option String
  fullConversationTokenIds : Option (List Int)
  errorTraceback : Option String

/-- `Json(d) if d else None` -/
def jsonColumn : Option (Items Json) → Option Json
  | none | some [] => none
  | some d => some (.obj d)

def TextResponse.toItems (response : TextResponse) : Items Json :=
  [("response_text", .ofOption .str response.responseText),
    ("response_ids", .ofOption Pipeline.tokenIdsJson response.responseIds)]

/-- The row of `request_metadata`. -/
def metadataRow (c : ProcessContext) : MetadataRow where
  uniqueId := some c.uniqueId
  requestId := some c.requestId
  sessionId := some (c.sessionId.getD "")
  runId := c.runId
  model := some c.model
  promptTokens := c.promptTokens
  completionTokens := c.completionTokens
  totalTokens := c.totalTokens
  startTime := c.startTime
  error := c.error

/-- `COMPACT_SKIP_FIELDS` set to `None`; `messages` is an empty list instead. -/
def DetailRow.compact (row : DetailRow) : DetailRow :=
  { row with
    messages := some (.arr [])
    textRequest := none
    textResponse := none
    tokenIds := none
    responseIds := none
    tokenRequest := none }

def fullRow (tokenizerPath : String) (c : ProcessContext) : DetailRow where
  uniqueId := some c.uniqueId
  tokenizerPath := some tokenizerPath
  messages := if c.messages.isEmpty then none else some (.arr c.messages)
  rawRequest := jsonColumn (some c.rawRequest)
  rawResponse := jsonColumn c.rawResponse
  textRequest := jsonColumn c.textRequest
  textResponse := jsonColumn (c.textResponse.map TextResponse.toItems)
  promptText := some (c.promptText.getD "")
  tokenIds := some (c.tokenIds.getD [])
  tokenRequest := jsonColumn c.tokenRequest
  tokenResponse := jsonColumn c.tokenResponse
  responseText := c.responseText
  responseIds := c.responseIds
  fullConversationText := c.fullConversationText
  fullConversationTokenIds := c.fullConversationTokenIds
  errorTraceback := c.errorTraceback

/-- The row of `request_details_active`. -/
def detailRow (mode : StorageMode) (tokenizerPath : String) (c : ProcessContext) : DetailRow :=
  match mode with
  | .full => fullRow tokenizerPath c
  | .compact => (fullRow tokenizerPath c).compact

section Recovery

/-- A token count as the bound of a slice; other values are none. -/
def sliceBound : Json → Option (Option Int)
  | .null => some none
  | .int n => some (some n)
  | _ => none

variable (metadata : MetadataRow) (row : DetailRow)

/-- `full_conversation_token_ids[:prompt_tokens]`, of `NULL` nothing. -/
def recoverTokenIds : Option (List Int) :=
  match row.fullConversationTokenIds with
  | none => some []
  | some ids => (sliceBound metadata.promptTokens).map (Slice.upTo ids)

/-- `full_conversation_token_ids[prompt_tokens:]`, of `NULL` nothing. -/
def recoverResponseIds : Option (List Int) :=
  match row.fullConversationTokenIds with
  | none => some []
  | some ids => (sliceBound metadata.promptTokens).map (Slice.startingAt ids)

def rawRequestItems : Items Json := itemsOf (row.rawRequest.getD .null)

/-- `raw_request["messages"]` -/
def recoverMessages : Json := Json.getD (rawRequestItems row) "messages"

/-- `raw_request` without the keys it was built with. -/
def recoverParams : Items Json := paramBlacklist.foldl Items.erase (rawRequestItems row)

def recoverRequest (prompt : Json) : Json :=
  .obj (Items.update [("prompt", prompt), ("model", Json.getD (rawRequestItems row) "model")]
    (recoverParams row))

/-- `text_request` from `prompt_text` and `raw_request`. -/
def recoverTextRequest : Json := recoverRequest row (.ofOption .str row.promptText)

/-- `token_request` from `token_ids` and `raw_request`. -/
def recoverTokenRequest : Option Json :=
  (recoverTokenIds metadata row).map fun ids => recoverRequest row (Pipeline.tokenIdsJson ids)

end Recovery

/-- What a full row has and a compact row leaves out is given back by the formulas.
`NULL` and an empty list of ids or messages are the same, and a dictionary is asked
for where the full row has one. -/
structure Recovered (tokenizerPath : String) (c : ProcessContext) : Prop where
  tokenIds : recoverTokenIds (metadataRow c) (detailRow .compact tokenizerPath c) =
    some ((detailRow .full tokenizerPath c).tokenIds.getD [])
  responseIds : recoverResponseIds (metadataRow c) (detailRow .compact tokenizerPath c) =
    some ((detailRow .full tokenizerPath c).responseIds.getD [])
  messages : recoverMessages (detailRow .compact tokenizerPath c) =
    (detailRow .full tokenizerPath c).messages.getD (.arr [])
  textRequest : ∀ d, (detailRow .full tokenizerPath c).textRequest = some d →
    recoverTextRequest (detailRow .compact tokenizerPath c) = d
  tokenRequest : ∀ d, (detailRow .full tokenizerPath c).tokenRequest = some d →
    recoverTokenRequest (metadataRow c) (detailRow .compact tokenizerPath c) = some d
  textResponse : ∀ d, (detailRow .full tokenizerPath c).textResponse = some d →
    Json.ofOption .str (detailRow .compact tokenizerPath c).responseText =
        Json.getD (itemsOf d) "response_text" ∧
      (recoverResponseIds (metadataRow c) (detailRow .compact tokenizerPath c)).map
        (List.map Json.int) = some (elements (Json.getD (itemsOf d) "response_ids"))

end TrajProxy.Record
