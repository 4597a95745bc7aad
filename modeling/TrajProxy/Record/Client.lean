import TrajProxy.Pipeline.Extensions
import TrajProxy.Record.Rounds

/-! What the client gets and what the record keeps of the fields the proxy asks
for on its own: `logprobs` and `token_ids`, and of `routed_experts` and
`prompt_token_ids`, which it does not pass on. All of it is stated on the
dictionaries, upstream, sent and stored. -/

namespace TrajProxy.Record

/-- The keys of a choice that are only kept for the trajectory. -/
def hiddenKeys : List String := ["logprobs", "token_ids", "routed_experts"]

section Dictionaries

/-- The elements of a list, of any other value none. -/
def elements : Json → List Json
  | .arr items => items
  | _ => []

/-- The items of a dictionary, of any other value none. -/
def itemsOf : Json → Items Json
  | .obj d => d
  | _ => []

def choicesOf (d : Items Json) : List (Items Json) :=
  (elements (Json.getD d "choices")).map itemsOf

/-- `d["choices"][i]` -/
def choiceAt (d : Items Json) (i : Nat) : Items Json := (choicesOf d).getD i []

def logprobsAt (d : Items Json) (i : Nat) : Items Json :=
  itemsOf (Json.getD (choiceAt d i) "logprobs")

end Dictionaries

/-- No internal field in any choice, and none at the top. -/
structure Clean (d : Items Json) : Prop where
  choices : ∀ choice ∈ choicesOf d, ∀ key ∈ hiddenKeys, Json.getD choice key = .null
  top : Json.getD d "prompt_token_ids" = .null

/-- Every other field of the chunk is as it came. -/
structure Forwarded (chunk sent : Items Json) : Prop where
  top : ∀ key ∉ ["choices", "prompt_token_ids"], sent.get? key = chunk.get? key
  length : (choicesOf sent).length = (choicesOf chunk).length
  choices : ∀ i, ∀ key ∉ hiddenKeys, (choiceAt sent i).get? key = (choiceAt chunk i).get? key

/-- The column `token_ids`, or `raw_response` where it is not filled. -/
def storedPromptTokenIds (c : ProcessContext) : Json :=
  match c.tokenIds with
  | some ids => Direct.tokenIdsJson ids
  | none => Json.getD (c.rawResponse.getD []) "prompt_token_ids"

/-- The record has what was removed from the upstream objects: ids and logprobs
one after the other, the other values as they were. -/
structure Kept (upstream : List (Items Json)) (c : ProcessContext) : Prop where
  tokenIds : ∀ i, elements (Json.getD (choiceAt (c.rawResponse.getD []) i) "token_ids") =
    upstream.flatMap fun d => elements (Json.getD (choiceAt d i) "token_ids")
  logprobs : ∀ i, elements (Json.getD (logprobsAt (c.rawResponse.getD []) i) "content") =
    upstream.flatMap fun d => elements (Json.getD (logprobsAt d i) "content")
  otherLogprobs : ∀ i, ∀ d ∈ upstream, ∀ key ≠ "content", ∀ value,
    (logprobsAt d i).get? key = some value →
      (logprobsAt (c.rawResponse.getD []) i).get? key = some value
  routedExperts : ∀ i, ∀ d ∈ upstream, Json.getD (choiceAt d i) "routed_experts" ≠ .null →
    Json.getD (choiceAt (c.rawResponse.getD []) i) "routed_experts" =
      Json.getD (choiceAt d i) "routed_experts"
  promptTokenIds : ∀ d ∈ upstream, Json.getD d "prompt_token_ids" ≠ .null →
    storedPromptTokenIds c = Json.getD d "prompt_token_ids"

variable {π : Type}

/-- What the direct pipeline got from the infer service. -/
def upstreamOf (inference : Except Raised ChatResponse) : List (Items Json) :=
  inference.toOption.toList.map ChatResponse.toItems

/-- The internal fields of a request: none is sent, and the direct pipeline
passes everything else on and keeps them. -/
structure Hidden (env : Surroundings) (request : Request) (run : Run π) : Prop where
  clean : ∀ d ∈ run.sent env request, Clean d
  forwarded : match run with
    | .directStream calls => List.Forall₂ Forwarded
        ((takenChunks calls.rounds).map Direct.ChatChunk.toItems) (run.sent env request)
    | _ => True
  kept : match run with
    | .direct inference => ∀ c ∈ run.handed env request, Kept (upstreamOf inference) c
    | .directStream calls => ∀ c ∈ run.handed env request,
        Kept ((takenChunks calls.rounds).map Direct.ChatChunk.toItems) c
    | _ => True

section Condition

/-- A choice with nothing to keep. -/
structure Bare (choice : Direct.ChatChoice) : Prop where
  tokenIds : Direct.tokenIdPiece choice = []
  logprobs : Direct.logprobPiece choice = []
  otherLogprobs : ∀ logprobs, choice.logprobs.get = some logprobs → ∀ key ≠ "content",
    logprobs.extras.get? key = none
  routedExperts : Json.getD choice.extras "routed_experts" = .null

/-- The last prompt ids of a stream. -/
def lastPromptTokenIds (chunks : List Direct.ChatChunk) : Option (List Int) :=
  (chunks.filterMap fun chunk => chunk.promptTokenIds.get).getLast?

/-- The streams of which the one choice of the record holds everything. -/
structure OneRecord (chunks : List Direct.ChatChunk) : Prop where
  firstOnly : ∀ chunk ∈ chunks, ∀ choice ∈ chunk.choices.tail, Bare choice
  logprobs : ∀ choice ∈ Direct.choices chunks, ∀ logprobs, choice.logprobs.get = some logprobs →
    ∀ first, (Direct.choices chunks).findSome? Direct.choiceLogprobs = some first →
      ∀ key ≠ "content", ∀ value, logprobs.extras.get? key = some value →
        first.extras.get? key = some value
  routedExperts : ∀ choice ∈ Direct.choices chunks,
    Json.getD choice.extras "routed_experts" ≠ .null →
      lastSent ((Direct.choices chunks).map Direct.ChatChoice.extras) "routed_experts" =
        some (Json.getD choice.extras "routed_experts")
  promptTokenIds : ∀ chunk ∈ chunks, ∀ ids, chunk.promptTokenIds.get = some ids →
    lastPromptTokenIds chunks = some ids

/-- A response that is not streamed has neither of two fields in its first upstream
choice, and a direct stream fits into one record. -/
def HiddenWhen (env : Surroundings) (request : Request) : Run π → Prop
  | .token calls => ((calls.process env).run (.initial request ())).1 = .ok () →
      ∀ response, calls.complete = .ok response → ∀ choice ∈ response.choices.head?,
        choice.logprobs.get = none ∧ choice.tokenIds.get = none
  | .directStream calls => loopRaised calls.exhausted calls.rounds = none →
      OneRecord (takenChunks calls.rounds)
  | _ => True

end Condition

end TrajProxy.Record
