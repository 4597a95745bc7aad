import TrajProxy.Library.OrderedDict
import TrajProxy.Pipeline.Deltas
import TrajProxy.Pipeline.ToolBranches

/-! Whether the stored message is the one the client got. The client joins the
deltas of the per-request parser, the record has what the shared parser reads
off the decoded ids; `Echoes` compares the two readings. -/

namespace TrajProxy.Pipeline
open Text

variable {π : Type}

/-- `value.get(key)`, `None` for a value without keys. -/
def member (value : Json) (key : String) : Json :=
  match value with
  | .obj items => Json.getD items key
  | _ => .null

def fragmentIndex (fragment : Json) : Option Int :=
  match member fragment "index" with
  | .int i => some i
  | _ => none

def fragmentText (fragment : Json) (key : String) : String :=
  match member (member fragment "function") key with
  | .str text => text
  | _ => ""

/-- Name and arguments of a tool call. -/
structure CallText where
  name : Json
  arguments : Json

structure ClientCall where
  name : String
  arguments : String

def ClientCall.text (call : ClientCall) : CallText := ⟨.str call.name, .str call.arguments⟩

def storedCall (call : Json) : CallText :=
  ⟨member (member call "function") "name", member (member call "function") "arguments"⟩

/-- The next fragment of a call continues its name and its arguments. -/
def joinFragment (call : Option ClientCall) (fragment : Json) : ClientCall :=
  let call := call.getD ⟨"", ""⟩
  ⟨call.name ++ fragmentText fragment "name", call.arguments ++ fragmentText fragment "arguments"⟩

/-- The calls a client makes of the fragments, one for each index. -/
def clientCalls (fragments : List Json) : List ClientCall :=
  OrderedDict.values (fragments.foldl (OrderedDict.updateItem fragmentIndex joinFragment) ∅)

/-- The accumulated deltas are the stored message. -/
structure ClientAgrees (sent : List OpenAIChunk) (message : MessageParts) : Prop where
  content : sentContent sent = message.content.getD ""
  reasoning : sentReasoning sent = message.reasoning.getD ""
  toolCalls : (clientCalls (sentToolCalls sent)).map ClientCall.text =
    message.toolCalls.map storedCall
  finishReason : sentFinishReason sent = message.finishReason

/-- The text of all ids without special tokens. -/
def cleanText (tok : Tokenizer) (ids : List Int) : String :=
  if ids = [] then "" else tok.decodeClean ids

/-- What the shared parser reads off a text, before the builder drops a blank
content. -/
def readText (env : BuildEnv) (sharedParser : MessageParser) (text : String) :
    Except String MessageParts :=
  extractToolCalls env sharedParser
    ⟨(splitReasoning env sharedParser text).2, (splitReasoning env sharedParser text).1, [],
      some "stop"⟩

/-- The deltas add up to the reading of the whole text, which is empty or not
blank, and the stream ended with the finish reason of that reading. -/
structure Echoes (P : RequestParser π) (taken : List InferResponse)
    (deltas : List (Option DeltaMessage)) (parser : π) (parts : MessageParts) : Prop where
  content : String.join (deltas.map deltaContent) =
    (parts.content.filter fun content => !isBlank content).getD ""
  reasoning : String.join (deltas.map deltaReasoning) = parts.reasoning.getD ""
  toolCalls : (clientCalls ((deltas.zip taken).flatMap fun d => deltaToolCalls d.1 d.2)).map
    ClientCall.text = parts.toolCalls.map storedCall
  finishReason : ∃ chunk, taken.getLast? = some chunk ∧ isStreamFinished chunk = true ∧
    (if P.toolCallsSeen parser then some "tool_calls" else getFinishReason chunk) =
      parts.finishReason

section Stored

theorem normalized_content (parts : MessageParts) :
    parts.normalized.content.getD "" =
      (parts.content.filter fun content => !isBlank content).getD "" := by
  unfold MessageParts.normalized
  dsimp only
  split
  · next content hcontent => rw [hcontent]
  · next hblank =>
    rw [hblank]
    split_ifs <;> rfl

theorem normalized_reasoning (parts : MessageParts) :
    parts.normalized.reasoning.getD "" = parts.reasoning.getD "" :=
  filter_nonempty_getD parts.reasoning

/-- No branch of the builder takes a finish reason away. -/
theorem extractToolCalls_finishReason {env : BuildEnv} {parser : MessageParser}
    {parts parts' : MessageParts} (h : extractToolCalls env parser parts = .ok parts')
    (reason : parts.finishReason.isSome) : parts'.finishReason.isSome := by
  rcases extractToolCalls_cases h with ⟨_, rfl⟩ | ⟨_, extracted⟩
  · rfl
  · exact extracted.finishReason reason

theorem readText_finishReason {env : BuildEnv} {sharedParser : MessageParser} {text : String}
    {parts : MessageParts} (h : readText env sharedParser text = .ok parts) :
    parts.finishReason.isSome :=
  extractToolCalls_finishReason h rfl

theorem build_ok {env : BuildEnv} {parser : MessageParser} {content : String}
    {response : InferResponse} {counts : TokenCounts} {raw : RawResponse}
    (h : build env parser content response counts = .ok raw) :
    buildMessage env parser content
        ((response.choices.head?.bind fun c => c.toolCalls.get).getD [])
        (getFinishReason response) = .ok raw.message ∧
      raw.usage = {
        promptTokens := orZero counts.promptTokens
        completionTokens := orZero counts.completionTokens
        totalTokens := orZero counts.totalTokens
        promptTokensDetails := Json.getD (response.usage.get.getD []) "prompt_tokens_details"
        completionTokensDetails :=
          Json.getD (response.usage.get.getD []) "completion_tokens_details" } := by
  unfold build at h
  obtain ⟨refusal, _, h⟩ := bind_eq_ok h
  obtain ⟨audio, _, h⟩ := bind_eq_ok h
  obtain ⟨functionCall, _, h⟩ := bind_eq_ok h
  obtain ⟨message, hmessage, h⟩ := bind_eq_ok h
  obtain rfl := Except.ok.inj h
  exact ⟨hmessage, rfl⟩

variable {tok : Tokenizer} {env : BuildEnv} {sharedParser : MessageParser} {P : RequestParser π}
  {promptText : String} {tokenIds : List Int} {ctx : StreamContext π} {record : Trajectory}

theorem finalizeStream_message {taken : List InferResponse}
    (run : StreamRun (.initial P) taken ctx)
    (h : finalizeStream tok env sharedParser promptText (some tokenIds) ctx = .ok record) :
    ∃ parts, readText env sharedParser (cleanText tok (taken.flatMap chunkIds)) = .ok parts ∧
      record.rawResponse.message = parts.normalized := by
  unfold finalizeStream at h
  dsimp only at h
  obtain ⟨raw, hraw, hrecord⟩ := bind_eq_ok h
  obtain rfl := Except.ok.inj hrecord
  obtain ⟨hmessage, _⟩ := build_ok hraw
  have hids : ctx.streamBufferIds = taken.flatMap chunkIds := run.ids
  have hclean : buildMessage env sharedParser (cleanText tok (taken.flatMap chunkIds)) []
      (some "stop") = .ok raw.message := by
    rw [nonemptyIds_some, hids] at hmessage
    rw [cleanText]
    by_cases hnil : taken.flatMap chunkIds = []
    · have hempty : ctx.streamBufferText = "" := run.text hnil
      rw [if_pos hnil] at hmessage ⊢
      rw [← hempty]
      exact hmessage
    · rw [if_neg hnil] at hmessage ⊢
      exact hmessage
  obtain ⟨parts, hparts, hnormal⟩ := bind_eq_ok hclean
  exact ⟨parts, hparts, (Except.ok.inj hnormal).symm⟩

end Stored

section Agreement

variable {tok : Tokenizer} {env : BuildEnv} {sharedParser : MessageParser} {P : RequestParser π}
  {promptText : String} {tokenIds : List Int} {chunks : List InferResponse}
  {sent : List OpenAIChunk} {ctx : StreamContext π} {record : Trajectory}

theorem lastFinishReason_iff {parser : π} {taken : List InferResponse} {reason : Option String}
    (hreason : reason.isSome) :
    taken.getLast?.bind (chunkFinishReason P parser) = reason ↔
      ∃ chunk, taken.getLast? = some chunk ∧ isStreamFinished chunk = true ∧
        (if P.toolCallsSeen parser then some "tool_calls" else getFinishReason chunk) = reason := by
  refine ⟨?_, ?_⟩
  · intro h
    rw [← h, Option.isSome_bind, Option.any_eq_true] at hreason
    obtain ⟨chunk, hlast, hfinish⟩ := hreason
    rw [hlast, Option.bind_some, chunkFinishReason] at h
    have hfinished : isStreamFinished chunk = true := by
      by_contra hrunning
      rw [chunkFinishReason, if_neg hrunning] at hfinish
      exact absurd hfinish Bool.false_ne_true
    rw [if_pos hfinished] at h
    exact ⟨chunk, hlast, hfinished, h⟩
  · rintro ⟨chunk, hlast, hfinished, h⟩
    rw [hlast, Option.bind_some, chunkFinishReason, if_pos hfinished]
    exact h

/-- The two readings of a stream that ends, and what they decide. -/
theorem stream_readings
    (run : processChunks tok P tokenIds (.initial P) chunks = .ok (sent, ctx))
    (final : finalizeStream tok env sharedParser promptText (some tokenIds) ctx = .ok record) :
    ∃ deltas parser parts, deltas.length = (takenChunks chunks).length ∧
      parseDeltas P P.start (some tokenIds)
        (pieces tok (.initial P) (takenChunks chunks)) = .ok (deltas, parser) ∧
      readText env sharedParser (cleanText tok (streamedIds chunks)) = .ok parts ∧
      (ClientAgrees sent record.rawResponse.message ↔
        Echoes P (takenChunks chunks) deltas parser parts) := by
  obtain ⟨deltas, wire⟩ := processChunks_wire run rfl
  obtain ⟨parts, hparts, hmessage⟩ := finalizeStream_message (processChunks_run run rfl) final
  have hreason := readText_finishReason hparts
  have hfinish : sentFinishReason sent =
      (takenChunks chunks).getLast?.bind (chunkFinishReason P ctx.parser) := by
    rw [sentFinishReason, wire.finishReason]
    cases (takenChunks chunks).getLast?.bind (chunkFinishReason P ctx.parser) <;> rfl
  refine ⟨deltas, ctx.parser, parts, wire.length, wire.parses, hparts, ?_⟩
  rw [hmessage]
  refine ⟨?_, ?_⟩
  · intro agrees
    refine ⟨?_, ?_, ?_, ?_⟩
    · rw [← wire.content, agrees.content, normalized_content]
    · rw [← wire.reasoning, agrees.reasoning, normalized_reasoning]
    · rw [← wire.toolCalls, agrees.toolCalls, MessageParts.normalized]
    · exact (lastFinishReason_iff hreason).mp (hfinish.symm.trans agrees.finishReason)
  · intro echoes
    refine ⟨?_, ?_, ?_, ?_⟩
    · rw [wire.content, echoes.content, normalized_content]
    · rw [wire.reasoning, echoes.reasoning, normalized_reasoning]
    · rw [wire.toolCalls, echoes.toolCalls, MessageParts.normalized]
    · exact hfinish.trans ((lastFinishReason_iff hreason).mpr echoes.finishReason)

/-- The client and the record have the same message exactly if the deltas echo
what the shared parser reads off the ids. -/
theorem clientAgrees_iff
    (run : processChunks tok P tokenIds (.initial P) chunks = .ok (sent, ctx))
    (final : finalizeStream tok env sharedParser promptText (some tokenIds) ctx = .ok record) :
    ClientAgrees sent record.rawResponse.message ↔
      ∃ deltas parser parts,
        parseDeltas P P.start (some tokenIds)
          (pieces tok (.initial P) (takenChunks chunks)) = .ok (deltas, parser) ∧
        readText env sharedParser (cleanText tok (streamedIds chunks)) = .ok parts ∧
        Echoes P (takenChunks chunks) deltas parser parts := by
  obtain ⟨deltas, parser, parts, _, hparses, hparts, decided⟩ := stream_readings run final
  rw [decided]
  refine ⟨?_, ?_⟩
  · intro h
    exact ⟨deltas, parser, parts, hparses, hparts, h⟩
  · intro ⟨deltas', parser', parts', hparses', hparts', h⟩
    obtain ⟨rfl, rfl⟩ := Prod.mk.inj (Except.ok.inj (hparses.symm.trans hparses'))
    obtain rfl := Except.ok.inj (hparts.symm.trans hparts')
    exact h

/-- A stream without parsers. -/
def streamedParts : List InferResponse :=
  [oneChoice (.value "b") (.value [98]) .null, oneChoice (.value "c") (.value [99]) (.value "stop")]

theorem clientAgrees_streamedParts :
    ∃ sent ctx record,
      processChunks codePoints passThrough [97] (.initial passThrough) streamedParts =
        .ok (sent, ctx) ∧
      finalizeStream codePoints plainEnv noParser "a" (some [97]) ctx = .ok record ∧
      ClientAgrees sent record.rawResponse.message := by
  obtain ⟨sent, ctx, run, record, final⟩ : ∃ sent ctx,
      processChunks codePoints passThrough [97] (.initial passThrough) streamedParts =
        .ok (sent, ctx) ∧
      ∃ record, finalizeStream codePoints plainEnv noParser "a" (some [97]) ctx = .ok record :=
    ⟨_, _, rfl, _, rfl⟩
  refine ⟨sent, ctx, record, run, final, (clientAgrees_iff run final).mpr ⟨_, _, _, rfl, rfl, ?_⟩⟩
  exact ⟨by decide, rfl, rfl, _, rfl, rfl, rfl⟩

/-- A completion that stops at its length is stored as one that stopped. -/
theorem truncated_disagrees :
    ¬∀ chunks sent ctx record,
      processChunks codePoints passThrough [97] (.initial passThrough) chunks = .ok (sent, ctx) →
      finalizeStream codePoints plainEnv noParser "a" (some [97]) ctx = .ok record →
      ClientAgrees sent record.rawResponse.message := by
  intro h
  have agrees := h [oneChoice (.value "b") (.value [98]) (.value "length")] _ _ _ rfl rfl
  exact absurd agrees.finishReason (by decide)

def passedThrough (text : String) : Option DeltaMessage := some ⟨some text, none, []⟩

theorem parseDeltas_passThrough (prompt : Option (List Int)) (pieces : List (String × List Int)) :
    parseDeltas passThrough () prompt pieces =
      .ok (pieces.map fun piece => passedThrough piece.1, ()) := by
  induction pieces generalizing prompt with
  | nil => rfl
  | cons piece rest ih =>
    have hfirst : passThrough.parseDelta () piece.1 piece.2 prompt =
        .ok (passedThrough piece.1, ()) := rfl
    rw [parseDeltas, hfirst]
    dsimp only [bind, Except.bind]
    rw [ih none]
    rfl

theorem readText_noParser (auto : env.toolChoice = .auto) (text : String) :
    readText env noParser text = .ok ⟨some text, none, [], some "stop"⟩ := by
  unfold readText extractToolCalls choiceToolCalls splitReasoning
  rw [auto]
  simp [noParser, autoToolCalls, pure, Except.pure, bind, Except.bind]

theorem content_passedThrough (texts : List String) :
    (texts.map passedThrough).map deltaContent = texts := by
  rw [List.map_map]
  exact List.map_id texts

theorem reasoning_passedThrough (texts : List String) :
    String.join ((texts.map passedThrough).map deltaReasoning) = "" := by
  induction texts with
  | nil => rfl
  | cons text texts ih =>
    rw [List.map_cons, List.map_cons, String.join_cons, ih]
    rfl

theorem toolCalls_passedThrough {texts : List String} {taken : List InferResponse}
    (h : texts.length = taken.length) :
    (((texts.map passedThrough).zip taken).flatMap fun d => deltaToolCalls d.1 d.2) =
      taken.flatMap upstreamToolCalls := by
  induction texts generalizing taken with
  | nil =>
    rw [List.length_nil, eq_comm, List.length_eq_zero_iff] at h
    rw [h]
    rfl
  | cons text texts ih =>
    cases taken with
    | nil => nomatch h
    | cons chunk taken =>
      rw [List.map_cons, List.zip_cons_cons, List.flatMap_cons, ih (Nat.succ.inj h)]
      rfl

/-- Without parsers the text of the chunks is compared with the decoded ids, and
the finish reason with `stop`. -/
theorem clientAgrees_passThrough_iff {ctx : StreamContext Unit} (auto : env.toolChoice = .auto)
    (run : processChunks tok passThrough tokenIds (.initial passThrough) chunks = .ok (sent, ctx))
    (final : finalizeStream tok env noParser promptText (some tokenIds) ctx = .ok record) :
    ClientAgrees sent record.rawResponse.message ↔
      String.join ((pieces tok (.initial passThrough) (takenChunks chunks)).map Prod.fst) =
        ((some (cleanText tok (streamedIds chunks))).filter fun text => !isBlank text).getD "" ∧
      clientCalls ((takenChunks chunks).flatMap upstreamToolCalls) = [] ∧
      ∃ chunk, (takenChunks chunks).getLast? = some chunk ∧ isStreamFinished chunk = true ∧
        getFinishReason chunk = some "stop" := by
  obtain ⟨deltas, parser, parts, hlength, hparses, hparts, decided⟩ := stream_readings run final
  have hdeltas := hparses.symm.trans (parseDeltas_passThrough _ _)
  obtain ⟨rfl, rfl⟩ := Prod.mk.inj (Except.ok.inj hdeltas)
  obtain rfl := Except.ok.inj (hparts.symm.trans (readText_noParser auto _))
  have hmap : ∀ texts : List (String × List Int),
      texts.map (fun piece => passedThrough piece.1) = (texts.map Prod.fst).map passedThrough := by
    intro texts
    rw [List.map_map]
    rfl
  rw [hmap, List.length_map] at hlength
  rw [decided, hmap]
  refine ⟨?_, ?_⟩
  · intro ⟨hcontent, _, hcalls, chunk, hlast, hfinished, hreason⟩
    rw [toolCalls_passedThrough hlength, List.map_nil, List.map_eq_nil_iff] at hcalls
    rw [content_passedThrough] at hcontent
    exact ⟨hcontent, hcalls, chunk, hlast, hfinished, hreason⟩
  · intro ⟨hcontent, hcalls, chunk, hlast, hfinished, hreason⟩
    refine ⟨?_, ?_, ?_, chunk, hlast, hfinished, hreason⟩
    · rw [content_passedThrough]
      exact hcontent
    · exact reasoning_passedThrough _
    · rw [toolCalls_passedThrough hlength, hcalls]
      rfl

end Agreement

end TrajProxy.Pipeline
