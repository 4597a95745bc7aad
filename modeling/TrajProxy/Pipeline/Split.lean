import TrajProxy.Pipeline.Wire

/-! The splits of a completion, the two requests that get it whole and in pieces,
and when the records they store are the same. `SplitOf` is every split into
chunks with ids, `SameRecord` compares the stored fields, `Agrees` and `Reads`
say what it takes. -/

namespace TrajProxy.Pipeline

/-- `logprobs[key]`, empty where the key is missing. -/
def listAt (logprobs : Items Json) (key : String) : List Json :=
  match logprobs.get? key with
  | some (.arr items) => items
  | _ => []

def choiceLogprobs (choice : InferChoice) : Items Json := choice.logprobs.get.getD []

def nonNull (items : Items Json) : Items Json := items.filter fun item => !item.2.isNull

/-- The custom top-level fields of chunks, the last value of each. -/
def capturedTop (chunks : List InferResponse) : Items Json :=
  chunks.foldl (fun captured chunk => captureExtras captured chunk.extras) []

def capturedChoice (chunks : List InferResponse) : Items Json :=
  chunks.foldl (fun captured chunk => captureExtras captured (choiceExtras chunk)) []

/-- A chunk with ids. -/
structure TokenChunk (chunk : InferResponse) (part : InferChoice) (partIds : List Int) : Prop where
  single : chunk.choices = [part]
  tokenIds : part.tokenIds = .value partIds
  nonempty : partIds ≠ []

def chunkTokenIds (chunk : InferResponse) : List Int :=
  (chunk.choices.head?.bind fun part => part.tokenIds.get).getD []

/-- A split of a completion with one choice that carries `ids`. The last token
chunk has the finish reason, and a chunk without choices may follow. -/
structure SplitOf (completion : InferResponse) (choice : InferChoice) (ids : List Int)
    (tokenChunks : List InferResponse) (usageChunk : Option InferResponse) : Prop where
  single : completion.choices = [choice]
  tokenIds : choice.tokenIds = .value ids
  nonempty : tokenChunks ≠ []
  parts : ∀ chunk ∈ tokenChunks, ∃ part partIds, TokenChunk chunk part partIds
  ids : tokenChunks.flatMap chunkTokenIds = ids
  running : ∀ chunk ∈ tokenChunks.dropLast, isStreamFinished chunk = false
  finished : ∀ chunk, tokenChunks.getLast? = some chunk →
    isStreamFinished chunk = true ∧ ∀ part ∈ chunk.choices, part.finishReason = choice.finishReason
  logprobs : ∀ key, (tokenChunks.filterMap chunkLogprobs).flatMap (listAt · key) =
    listAt (choiceLogprobs choice) key
  usageOnly : ∀ chunk ∈ usageChunk, chunk.choices = []
  usage : ((tokenChunks ++ usageChunk.toList).filterMap chunkUsage).getLast? =
    chunkUsage completion
  topFields : ∀ key, (capturedTop (tokenChunks ++ usageChunk.toList)).get? key =
    (nonNull completion.extras).get? key
  choiceFields : ∀ key, (capturedChoice tokenChunks).get? key = (nonNull choice.extras).get? key

def eraseId : Json → Json
  | .obj items => .obj (Items.erase items "id")
  | value => value

/-- A message up to the generated ids of its tool calls. -/
def MessageParts.withoutIds (message : MessageParts) : MessageParts :=
  { message with toolCalls := message.toolCalls.map eraseId }

structure SameChoice (streamed unsplit : InferChoice) : Prop where
  tokenIds : streamed.tokenIds = unsplit.tokenIds
  logprobs : ∀ key, listAt (choiceLogprobs streamed) key = listAt (choiceLogprobs unsplit) key
  finishReason : streamed.finishReason = unsplit.finishReason
  fields : ∀ key, streamed.extras.get? key = unsplit.extras.get? key

def SameUsage (streamed unsplit : Field (Items Json)) : Prop :=
  ∃ usage usage', streamed = .value usage ∧ unsplit = .value usage' ∧
    ∀ key, usage.get? key = usage'.get? key

structure SameRecord (streamed unsplit : Trajectory) : Prop where
  tokenIds : streamed.tokenIds = unsplit.tokenIds
  responseIds : streamed.responseIds = unsplit.responseIds
  fullConversationText : streamed.fullConversationText = unsplit.fullConversationText
  fullConversationTokenIds :
    streamed.fullConversationTokenIds = unsplit.fullConversationTokenIds
  choice : List.Forall₂ SameChoice streamed.tokenResponse.choices unsplit.tokenResponse.choices
  tokenUsage : SameUsage streamed.tokenResponse.usage unsplit.tokenResponse.usage
  topFields : ∀ key,
    streamed.tokenResponse.extras.get? key = unsplit.tokenResponse.extras.get? key
  message : streamed.rawResponse.message.withoutIds = unsplit.rawResponse.message.withoutIds
  usage : streamed.rawResponse.usage = unsplit.rawResponse.usage

/-- The two ways to process one upstream completion. -/
structure Setting (π : Type) where
  tok : Tokenizer
  env : BuildEnv
  sharedParser : MessageParser
  requestParser : MessageParser
  streamParser : RequestParser π
  promptText : String
  tokenIds : List Int

variable {π : Type}

def Setting.unsplit (s : Setting π) (completion : InferResponse) : Except String Trajectory :=
  process s.tok s.env s.requestParser s.promptText s.tokenIds completion

def Setting.streamed (s : Setting π) (chunks : List InferResponse) : Except String Trajectory :=
  processStream s.tok s.env s.sharedParser s.streamParser s.promptText s.tokenIds chunks

def Setting.Parity (s : Setting π) (completion : InferResponse) (chunks : List InferResponse) :
    Prop :=
  ∃ streamed unsplit, s.streamed chunks = .ok streamed ∧ s.unsplit completion = .ok unsplit ∧
    SameRecord streamed unsplit

/-- The usage a stream stores: the last one up to the finish chunk, or the
counted one. -/
def streamUsage (tokenIds ids : List Int) (tokenChunks : List InferResponse) : Items Json :=
  (tokenChunks.filterMap chunkUsage).getLast?.getD
    [("prompt_tokens", .int tokenIds.length), ("completion_tokens", .int ids.length),
      ("total_tokens", .int (tokenIds.length + ids.length : Nat))]

/-- A `message` of the choice, if there is one, is an object. -/
def HasMessage (extras : Items Json) : Prop :=
  (Json.getD extras "message").truthy = true →
    ∃ items, Json.getD extras "message" = .obj items

/-- When a split completion is stored as the unsplit one. -/
structure Setting.Agrees (s : Setting π) (completion : InferResponse) (choice : InferChoice)
    (ids : List Int) (tokenChunks : List InferResponse) : Prop where
  prompt : s.tokenIds ≠ []
  finish : choice.finishReason = .value "stop"
  logprobs : ∀ key ∉ logprobKeys,
    (tokenChunks.filterMap chunkLogprobs).tail.flatMap (listAt · key) = []
  usage : ∃ usage, completion.usage = .value usage ∧
    usage.get? "completion_tokens" = some (.int ids.length) ∧
    usage.get? "total_tokens" = some (.int (s.tokenIds.length + ids.length : Nat)) ∧
    ∀ key, (streamUsage s.tokenIds ids tokenChunks).get? key = usage.get? key
  topFields : ∀ key, (capturedTop tokenChunks).get? key = completion.extras.get? key
  promptField : choice.extras.get? "prompt_token_ids" = some (.arr (s.tokenIds.map Json.int))
  choiceFields : ∀ key ≠ "prompt_token_ids",
    (capturedChoice tokenChunks).get? key = choice.extras.get? key
  message : (buildMessage s.env s.sharedParser (s.tok.decodeClean ids) []
      (some "stop")).map MessageParts.withoutIds =
    (buildMessage s.env s.requestParser (s.tok.decodeClean ids) (choice.toolCalls.get.getD [])
      (some "stop")).map MessageParts.withoutIds

/-- Nothing in the completion makes a request fail: the text of a chunk is not
`null`, the per-request parser takes every piece, the logprobs of the chunks go
together, a `message` of the choice is an object, and the builder can read the
text. -/
structure Setting.Reads (s : Setting π) (choice : InferChoice) (ids : List Int)
    (tokenChunks : List InferResponse) : Prop where
  texts : ∀ chunk ∈ tokenChunks, ∀ part ∈ chunk.choices, part.text ≠ .null
  deltas : ∃ deltas, parseDeltas s.streamParser s.streamParser.start (some s.tokenIds)
    (pieces s.tok (.initial s.streamParser) tokenChunks) = .ok deltas
  logprobs : ∃ acc, tokenChunks.foldlM accumulateLogprobs none = .ok acc
  upstream : HasMessage choice.extras
  message : ∃ message,
    buildMessage s.env s.sharedParser (s.tok.decodeClean ids) [] (some "stop") = .ok message

section Splits

variable {completion : InferResponse} {choice : InferChoice} {ids : List Int}
  {tokenChunks : List InferResponse} {usageChunk : Option InferResponse}

theorem takenChunks_append {tokenChunks rest : List InferResponse} (nonempty : tokenChunks ≠ [])
    (running : ∀ chunk ∈ tokenChunks.dropLast, isStreamFinished chunk = false)
    (finished : ∀ chunk, tokenChunks.getLast? = some chunk → isStreamFinished chunk = true) :
    takenChunks (tokenChunks ++ rest) = tokenChunks := by
  induction tokenChunks with
  | nil => exact absurd rfl nonempty
  | cons chunk more ih =>
    cases more with
    | nil => simp [takenChunks, finished chunk rfl]
    | cons next more =>
      have hrunning : isStreamFinished chunk = false :=
        running chunk (by simp)
      have htail : takenChunks ((next :: more) ++ rest) = next :: more := by
        apply ih (List.cons_ne_nil next more)
        · intro other hother
          exact running other (by simp [hother])
        · intro other hother
          exact finished other (by rw [List.getLast?_cons_cons]; exact hother)
      rw [List.cons_append, takenChunks, hrunning, if_neg Bool.false_ne_true, htail]

theorem parseChunkText_ok_iff (part : InferChoice) :
    (∃ text, parseChunkText part = .ok text) ↔ part.text ≠ .null := by
  unfold parseChunkText
  cases part.text with
  | missing => simp
  | null => simp
  | value text => cases htext : parseTokenIdsFromText text <;> simp [htext]

theorem TokenChunk.parses_iff {chunk : InferResponse} {part : InferChoice} {partIds : List Int}
    (h : TokenChunk chunk part partIds) :
    (∃ parsed, parseStreamChunk chunk = .ok parsed) ↔
      ∀ part ∈ chunk.choices, part.text ≠ .null := by
  unfold parseStreamChunk
  rw [h.single, List.forall_mem_singleton, ← parseChunkText_ok_iff]
  exact bind_pure_ok_iff

theorem TokenChunk.parsed_ids {chunk : InferResponse} {part : InferChoice} {partIds : List Int}
    {parsed : ParsedChunk} (h : TokenChunk chunk part partIds)
    (hparsed : parseStreamChunk chunk = .ok parsed) : parsed.tokenIds = partIds := by
  unfold parseStreamChunk at hparsed
  rw [h.single] at hparsed
  obtain ⟨text, _, hparsed⟩ := bind_eq_ok hparsed
  obtain rfl := Except.ok.inj hparsed
  dsimp only
  rw [h.tokenIds]

theorem TokenChunk.chunkTokenIds {chunk : InferResponse} {part : InferChoice}
    {partIds : List Int} (h : TokenChunk chunk part partIds) : chunkTokenIds chunk = partIds := by
  rw [Pipeline.chunkTokenIds, h.single, List.head?_cons, Option.bind_some, h.tokenIds]
  rfl

theorem SplitOf.texts_iff (split : SplitOf completion choice ids tokenChunks usageChunk) :
    (∀ chunk ∈ tokenChunks, ∃ parsed, parseStreamChunk chunk = .ok parsed) ↔
      ∀ chunk ∈ tokenChunks, ∀ part ∈ chunk.choices, part.text ≠ .null := by
  refine forall₂_congr fun chunk hchunk => ?_
  obtain ⟨part, partIds, htoken⟩ := split.parts chunk hchunk
  exact htoken.parses_iff

/-- The ids of a chunk that can be read are those of its choice. -/
theorem SplitOf.chunkIds (split : SplitOf completion choice ids tokenChunks usageChunk)
    (parsed : ∀ chunk ∈ tokenChunks, ∃ parsed, parseStreamChunk chunk = .ok parsed) :
    tokenChunks.flatMap chunkIds = ids := by
  rw [← split.ids, List.flatMap, List.flatMap]
  refine congrArg List.flatten (List.map_congr_left ?_)
  intro chunk hchunk
  obtain ⟨part, partIds, htoken⟩ := split.parts chunk hchunk
  obtain ⟨parsed, hparsed⟩ := parsed chunk hchunk
  rw [htoken.chunkTokenIds, Pipeline.chunkIds, hparsed]
  exact htoken.parsed_ids hparsed

theorem SplitOf.ids_nonempty (split : SplitOf completion choice ids tokenChunks usageChunk) :
    ids ≠ [] := by
  obtain ⟨chunk, rest, hchunks⟩ := List.exists_cons_of_ne_nil split.nonempty
  obtain ⟨part, partIds, htoken⟩ := split.parts chunk (hchunks ▸ List.mem_cons_self)
  intro hnil
  have hids := split.ids
  rw [hchunks, List.flatMap_cons, htoken.chunkTokenIds, hnil, List.append_eq_nil_iff] at hids
  exact htoken.nonempty hids.1

theorem SplitOf.taken (split : SplitOf completion choice ids tokenChunks usageChunk) :
    takenChunks (tokenChunks ++ usageChunk.toList) = tokenChunks :=
  takenChunks_append split.nonempty split.running fun chunk hlast => (split.finished chunk hlast).1

end Splits

end TrajProxy.Pipeline
