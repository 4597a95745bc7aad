import TrajProxy.Direct.Rendering
import TrajProxy.Direct.Reconstructed
import TrajProxy.Pipeline.Rendering
import TrajProxy.Pipeline.StreamBuffer

/-! Extension fields of a stream in the stored record.
Both pipelines keep the last value of every key outside their lists of known
keys. The finalisers then write keys of their own, and these are not the same
lists: under `message` of a Direct choice, `annotations`, `audio` and `refusal`
of a Direct message and `prompt_token_ids` of a TITO choice the record has what
the finaliser wrote. -/

namespace TrajProxy

/-- The last value other than `null` among those sent under a key. -/
def lastSent (dicts : List (Items Json)) (key : String) : Option Json :=
  Items.lastValue (dicts.flatMap fun d => d.filter fun item => !item.2.isNull) key

/-- The record has under the key what was sent last. -/
def Holds (record : Items Json) (dicts : List (Items Json)) (key : String) : Prop :=
  ∀ value, lastSent dicts key = some value → record.get? key = some value

section Captured

theorem foldl_captureItems (captured : Items Json) (dicts : List (Items Json)) :
    dicts.foldl Direct.captureItems captured =
      captured.update (dicts.flatMap fun d => d.filter fun item => !item.2.isNull) := by
  induction dicts generalizing captured with
  | nil => rfl
  | cons d dicts ih =>
    rw [List.foldl_cons, ih, List.flatMap_cons, Items.update_append]
    rfl

theorem get?_captured (dicts : List (Items Json)) (key : String) :
    Items.get? (dicts.foldl Direct.captureItems []) key = lastSent dicts key := by
  rw [foldl_captureItems, Items.get?_update, Items.get?_nil, Option.or_none]
  rfl

theorem nodup_captured (dicts : List (Items Json)) :
    ((dicts.foldl Direct.captureItems []).map Prod.fst).Nodup := by
  rw [foldl_captureItems]
  have empty : (([] : Items Json).map Prod.fst).Nodup := List.nodup_nil
  exact Items.nodup_update empty _

end Captured

namespace Direct

/-- `DIRECT_KNOWN_CHOICE_KEYS` -/
def directKnownChoiceKeys : List String :=
  ["index", "delta", "finish_reason", "logprobs", "token_ids", "stop_reason"]

/-- `DIRECT_KNOWN_DELTA_KEYS` -/
def directKnownDeltaKeys : List String :=
  ["role", "content", "reasoning", "reasoning_content", "tool_calls", "function_call"]

/-- What a stream has added to the three dictionaries of extension fields. -/
structure Captured (ctx : DirectContext) (chunks : List ChatChunk) (ctx' : DirectContext) :
    Prop where
  metadata : ctx'.streamResponseMetadata =
    (chunks.map ChatChunk.metadata).foldl captureItems ctx.streamResponseMetadata
  choiceExtras : ctx'.streamChoiceExtras =
    ((choices chunks).map ChatChoice.extras).foldl captureItems ctx.streamChoiceExtras
  deltaExtras : ctx'.streamDeltaExtras =
    ((choices chunks).map fun choice => choice.delta.extras).foldl captureItems
      ctx.streamDeltaExtras

theorem accumulateStreamFields_captured (ctx : DirectContext) (chunk : ChatChunk) :
    Captured ctx [chunk] (accumulateStreamFields ctx chunk) := by
  cases hchoices : chunk.choices with
  | nil =>
    have run : accumulateStreamFields ctx chunk = accumulateTop ctx chunk := by
      simp [accumulateStreamFields, hchoices]
    have none : choices [chunk] = [] := by simp [choices, hchoices]
    rw [run]
    exact ⟨rfl, by rw [none]; rfl, by rw [none]; rfl⟩
  | cons choice more =>
    have run : accumulateStreamFields ctx chunk =
        accumulateChoice (accumulateDelta (accumulateTop ctx chunk) choice.delta) choice := by
      simp [accumulateStreamFields, hchoices]
    have first : choices [chunk] = [choice] := by simp [choices, hchoices]
    rw [run]
    exact ⟨rfl, by rw [first]; rfl, by rw [first]; rfl⟩

theorem processStream_captured (ctx : DirectContext) (chunks : List ChatChunk) :
    Captured ctx chunks (processStream ctx chunks).2 := by
  induction chunks generalizing ctx with
  | nil => exact ⟨rfl, rfl, rfl⟩
  | cons chunk chunks ih =>
    have first := accumulateStreamFields_captured ctx chunk
    have rest := ih { accumulateStreamFields ctx chunk with
      streamChunkCount := (accumulateStreamFields ctx chunk).streamChunkCount + 1 }
    refine ⟨?_, ?_, ?_⟩
    · rw [processStream, rest.metadata, first.metadata]
      rfl
    · rw [processStream, rest.choiceExtras, first.choiceExtras, choices_cons chunk chunks,
        List.map_append, List.foldl_append]
    · rw [processStream, rest.deltaExtras, first.deltaExtras, choices_cons chunk chunks,
        List.map_append, List.foldl_append]

/-- The response `_finalize_stream` stores for a stream. -/
def streamRecord (generated : Items Json) (chunks : List ChatChunk) : RawResponse :=
  finalizeStream generated (processStream .initial chunks).2

/-- The extension fields of a stream, level by level. -/
structure Extensions (generated : Items Json) (chunks : List ChatChunk) : Prop where
  top : ∀ key ∉ ["choices", "usage", "prompt_token_ids", "object"],
    Holds (streamRecord generated chunks).toItems (chunks.map ChatChunk.metadata) key
  choice : ∀ key ∉ directKnownChoiceKeys, key ≠ "message" →
    Holds (streamRecord generated chunks).choice.toItems
      ((choices chunks).map ChatChoice.extras) key
  delta : ∀ key ∉ directKnownDeltaKeys, key ∉ ["annotations", "audio", "refusal"] →
    Holds (streamRecord generated chunks).choice.message.toItems
      ((choices chunks).map fun choice => choice.delta.extras) key

theorem get?_defaults {d : Items Json} {key : String} {value : Json} (keys : List String)
    (h : d.get? key = some value) :
    (keys.foldl (fun d key => d.setdefault key .null) d).get? key = some value := by
  induction keys generalizing d with
  | nil => exact h
  | cons k keys ih =>
    apply ih
    rw [Items.get?_setdefault, h, Option.some_or]

theorem extensions (generated : Items Json) (chunks : List ChatChunk) :
    Extensions generated chunks := by
  have captured := processStream_captured .initial chunks
  refine ⟨?_, ?_, ?_⟩
  · intro key other value sent
    simp only [List.mem_cons, List.not_mem_nil, or_false, not_or] at other
    obtain ⟨choices, usage, -, object⟩ := other
    have there : (processStream .initial chunks).2.streamResponseMetadata.get? key =
        some value := by
      rw [captured.metadata]
      exact (get?_captured _ key).trans sent
    rw [get?_responseItems _ (by simp [choices, usage])]
    unfold streamRecord finalizeStream
    dsimp only
    apply get?_defaults
    split_ifs with empty
    · rw [List.isEmpty_iff.mp empty] at there
      cases there
    · rw [Items.get?_set_ne _ _ object, there]
  · intro key other own value sent
    simp only [directKnownChoiceKeys, List.mem_cons, List.not_mem_nil, or_false, not_or] at other
    obtain ⟨index, delta, finish, logprobs, ids, stop⟩ := other
    have extras : (streamRecord generated chunks).choice.extras =
        ((choices chunks).map ChatChoice.extras).foldl captureItems [] := captured.choiceExtras
    rw [get?_choiceItems]
    · rw [extras, get?_captured, sent]
    · rw [extras]
      exact nodup_captured _
    · simp [index, own, finish, logprobs, ids, stop]
  · intro key other own value sent
    have extras : (streamRecord generated chunks).choice.message.extras =
        ((choices chunks).map fun choice => choice.delta.extras).foldl captureItems [] :=
      captured.deltaExtras
    rw [get?_messageItems, extras, get?_captured, sent]
    have both : key ∉ directKnownDeltaKeys ++ ["annotations", "audio", "refusal"] := by
      rw [List.mem_append, not_or]
      exact ⟨other, own⟩
    exact both

end Direct

namespace Pipeline

variable {π : Type}

/-- `TOKEN_KNOWN_TOP_KEYS` -/
def tokenKnownTopKeys : List String := ["id", "object", "created", "model", "choices", "usage"]

/-- `TOKEN_KNOWN_CHOICE_KEYS` -/
def tokenKnownChoiceKeys : List String :=
  ["text", "token_ids", "output_token_ids", "index", "finish_reason", "logprobs", "tool_calls"]

/-- The extension fields of the chunks read, in a `token_response`. -/
structure Extensions (tokenIds : List Int) (read : List InferResponse) (record : InferResponse) :
    Prop where
  top : ∀ key ∉ tokenKnownTopKeys,
    Holds record.toItems (read.map InferResponse.extras) key
  choice : ∀ key ∉ tokenKnownChoiceKeys, key ≠ "prompt_token_ids" ∨ tokenIds = [] →
    ∃ choice, record.choices.head? = some choice ∧
      Holds choice.toItems (read.map choiceExtras) key

theorem finalizeStream_tokenResponse {tok : Tokenizer} {env : BuildEnv}
    {sharedParser : MessageParser} {promptText : String} {tokenIds : Option (List Int)}
    {ctx : StreamContext π} {t : Trajectory}
    (h : finalizeStream tok env sharedParser promptText tokenIds ctx = .ok t) :
    ∃ cleanText counts, t.tokenResponse = streamTokenResponse cleanText tokenIds counts ctx := by
  obtain ⟨rawResponse, -, done⟩ := bind_eq_ok h
  obtain rfl := Except.ok.inj done
  exact ⟨_, _, rfl⟩

theorem extensions (tok : Tokenizer) (env : BuildEnv) (sharedParser : MessageParser)
    (P : RequestParser π) (promptText : String) (tokenIds : List Int)
    (chunks : List InferResponse) (t : Trajectory)
    (h : processStream tok env sharedParser P promptText tokenIds chunks = .ok t) :
    Extensions tokenIds (takenChunks chunks) t.tokenResponse := by
  obtain ⟨⟨sent, ctx⟩, ran, h⟩ := bind_eq_ok h
  have run := processChunks_run ran rfl
  obtain ⟨cleanText, counts, record⟩ := finalizeStream_tokenResponse h
  have metadata : ctx.streamInferMetadata =
      ((takenChunks chunks).map InferResponse.extras).foldl Direct.captureItems [] := by
    rw [List.foldl_map]
    exact run.metadata
  have extras : ctx.streamInferChoiceExtras =
      ((takenChunks chunks).map choiceExtras).foldl Direct.captureItems [] := by
    rw [List.foldl_map]
    exact run.extras
  rw [record]
  refine ⟨?_, ?_⟩
  · intro key other value last
    have plain : key ∉ ["choices", "usage"] := by
      intro mem
      rcases List.mem_pair.mp mem with rfl | rfl <;> exact other (by decide)
    rw [get?_responseItems _ plain]
    unfold streamTokenResponse
    rw [Items.get?_foldl_setdefault, Items.get?_nil, Option.none_or, metadata, get?_captured, last]
  · intro key other free
    refine ⟨_, rfl, ?_⟩
    intro value last
    rw [get?_choiceItems _ other]
    have captured : ctx.streamInferChoiceExtras.get? key = some value := by
      rw [extras, get?_captured, last]
    rw [Items.get?_foldl_setdefault]
    rcases free with ne | rfl
    · cases nonemptyIds (some tokenIds) with
      | none => exact captured
      | some ids =>
        rw [Items.get?_cons_ne _ _ (Ne.symm ne), Items.get?_nil, Option.none_or]
        exact captured
    · exact captured

end Pipeline

open Pipeline in
/-- What survives a stream, in both pipelines. -/
theorem extension_fields_survive {π : Type} (generated : Items Json)
    (directChunks : List Direct.ChatChunk) (tok : Tokenizer) (env : BuildEnv)
    (sharedParser : MessageParser) (P : RequestParser π) (promptText : String)
    (tokenIds : List Int) (chunks : List InferResponse) :
    Direct.Extensions generated directChunks ∧
      ∀ t, processStream tok env sharedParser P promptText tokenIds chunks = .ok t →
        Extensions tokenIds (takenChunks chunks) t.tokenResponse :=
  ⟨Direct.extensions generated directChunks,
    extensions tok env sharedParser P promptText tokenIds chunks⟩

section Overwritten
open Pipeline

/-- A chunk of a refusal, whose choice has a message next to its delta. -/
private def refusing : Direct.ChatChunk :=
  ⟨[⟨⟨.missing, .missing, .missing, .missing, .missing, .missing, [("refusal", .str "no")]⟩,
    .value "stop", .missing, .missing, .null, [("message", .str "no")]⟩], .missing, .missing, []⟩

/-- The last chunk of a completion with an extension field and the prompt's ids. -/
private def finishing (ids : List Json) (extras : Items Json) : InferResponse :=
  ⟨[⟨.value "", .value [104], .missing, .value "stop", .missing, .missing,
    [("prompt_token_ids", .arr ids)]⟩], .missing, extras⟩

theorem extension_fields_survive_one : ∃ t,
    processStream codePoints plainEnv noParser passThrough "a" [97]
      [finishing [] [("seed", .int 7)]] = .ok t ∧
      Extensions [97] [finishing [] [("seed", .int 7)]] t.tokenResponse :=
  ⟨_, rfl, (extension_fields_survive [] [refusing] codePoints plainEnv noParser passThrough "a" [97]
    [finishing [] [("seed", .int 7)]]).2 _ rfl⟩

/-- The finalisers write over four kinds of extension fields, and TITO does not
read on after the finish chunk. -/
theorem extension_fields_overwritten :
    (¬∀ generated chunks, ∀ key ∉ Direct.directKnownDeltaKeys,
      Holds (Direct.streamRecord generated chunks).choice.message.toItems
        ((Direct.choices chunks).map fun choice => choice.delta.extras) key) ∧
    (¬∀ generated chunks, ∀ key ∉ Direct.directKnownChoiceKeys,
      Holds (Direct.streamRecord generated chunks).choice.toItems
        ((Direct.choices chunks).map Direct.ChatChoice.extras) key) ∧
    (¬∀ tokenIds chunks t,
      processStream codePoints plainEnv noParser passThrough "a" tokenIds chunks = .ok t →
      ∀ key ∉ tokenKnownChoiceKeys, ∃ choice, t.tokenResponse.choices.head? = some choice ∧
        Holds choice.toItems ((takenChunks chunks).map choiceExtras) key) ∧
    ¬∀ tokenIds chunks t,
      processStream codePoints plainEnv noParser passThrough "a" tokenIds chunks = .ok t →
      ∀ key ∉ tokenKnownTopKeys,
        Holds t.tokenResponse.toItems (chunks.map InferResponse.extras) key := by
  refine ⟨?_, ?_, ?_, ?_⟩
  · intro all
    have kept := all [] [refusing] "refusal" (by decide) (.str "no") rfl
    have stored : (Direct.streamRecord [] [refusing]).choice.message.toItems.get? "refusal" =
        some .null := rfl
    rw [stored] at kept
    cases kept
  · intro all
    have kept := all [] [refusing] "message" (by decide) (.str "no") rfl
    have stored : ∃ message, (Direct.streamRecord [] [refusing]).choice.toItems.get? "message" =
        some (.obj message) := ⟨_, rfl⟩
    obtain ⟨message, stored⟩ := stored
    rw [stored] at kept
    cases kept
  · intro all
    obtain ⟨choice, first, kept⟩ := all [97] [finishing [] []] _ rfl "prompt_token_ids" (by decide)
    obtain rfl := Option.some.inj first
    have sent := kept (.arr []) rfl
    cases sent
  · intro all
    have kept := all [97] [finishing [] [("seed", .int 7)], finishing [] [("seed", .int 8)]] _ rfl
      "seed" (by decide) (.int 8) rfl
    cases kept

end Overwritten

end TrajProxy
