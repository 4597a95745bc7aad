import TrajProxy.Pipeline.StreamBuffer

/-! What a stream hands to the per-request parser, and what the client gets of
the deltas that the parser returns. -/

namespace TrajProxy.Pipeline

variable {π : Type} {tok : Tokenizer} {P : RequestParser π} {tokenIds : List Int}
  {ctx ctx' : StreamContext π} {chunk : InferResponse} {chunks : List InferResponse}

/-- The fields that decoding reads and writes are the same. -/
structure SameBuffer (ctx ctx' : StreamContext π) : Prop where
  ids : ctx.streamBufferIds = ctx'.streamBufferIds
  text : ctx.streamBufferText = ctx'.streamBufferText
  checkpoint : ctx.streamDecodeCheckpointLen = ctx'.streamDecodeCheckpointLen

theorem SameBuffer.countSent (h : SameBuffer ctx ctx') (sent : Option OpenAIChunk) :
    SameBuffer (ctx.countSent sent) ctx' := ⟨h.ids, h.text, h.checkpoint⟩

/-- The text and the ids that each chunk hands to the parser. -/
def pieces (tok : Tokenizer) : StreamContext π → List InferResponse → List (String × List Int)
  | _, [] => []
  | ctx, chunk :: rest =>
    match parseStreamChunk chunk with
    | .error _ => []
    | .ok parsed =>
      let decoded := decodeChunk tok parsed ctx
      (decoded.1, parsed.tokenIds) :: pieces tok decoded.2 rest

/-- The deltas of the pieces; the first piece comes with the prompt's ids. -/
def parseDeltas (P : RequestParser π) :
    π → Option (List Int) → List (String × List Int) → Except String (List (Option DeltaMessage) × π)
  | parser, _, [] => .ok ([], parser)
  | parser, prompt, piece :: rest => do
    let first ← P.parseDelta parser piece.1 piece.2 prompt
    let more ← parseDeltas P first.2 none rest
    pure (first.1 :: more.1, more.2)

def deltaContent (delta : Option DeltaMessage) : String :=
  (delta.bind DeltaMessage.content).getD ""

def deltaReasoning (delta : Option DeltaMessage) : String :=
  (delta.bind DeltaMessage.reasoning).getD ""

def upstreamToolCalls (chunk : InferResponse) : List Json :=
  (chunk.choices.head?.bind fun choice => choice.toolCalls.get).getD []

/-- The tool calls sent with a delta, upstream ones where the parser has none. -/
def deltaToolCalls (delta : Option DeltaMessage) (chunk : InferResponse) : List Json :=
  match (delta.map DeltaMessage.toolCalls).getD [] with
  | [] => upstreamToolCalls chunk
  | toolCalls => toolCalls.map DeltaToolCall.toJson

def sentContent (sent : List OpenAIChunk) : String :=
  String.join (sent.map fun chunk => chunk.content.getD "")

def sentReasoning (sent : List OpenAIChunk) : String :=
  String.join (sent.map fun chunk => chunk.reasoning.getD "")

def sentToolCalls (sent : List OpenAIChunk) : List Json := sent.flatMap OpenAIChunk.toolCalls

def sentFinishReason (sent : List OpenAIChunk) : Option String :=
  (sent.filterMap OpenAIChunk.finishReason).getLast?

section Decoding

theorem decodeStreaming_congr (h : SameBuffer ctx ctx') (tok : Tokenizer) (ids : List Int) :
    (decodeStreaming tok ids ctx).1 = (decodeStreaming tok ids ctx').1 ∧
      SameBuffer (decodeStreaming tok ids ctx).2 (decodeStreaming tok ids ctx').2 := by
  simp only [decodeStreaming, h.ids, h.text, h.checkpoint]
  split_ifs
  · exact ⟨rfl, rfl, rfl, rfl⟩
  · exact ⟨rfl, rfl, rfl, rfl⟩
  · exact ⟨rfl, rfl, rfl, rfl⟩

theorem decodeChunk_congr (h : SameBuffer ctx ctx') (tok : Tokenizer) (parsed : ParsedChunk) :
    (decodeChunk tok parsed ctx).1 = (decodeChunk tok parsed ctx').1 ∧
      SameBuffer (decodeChunk tok parsed ctx).2 (decodeChunk tok parsed ctx').2 := by
  unfold decodeChunk
  split
  · exact ⟨rfl, h⟩
  · exact decodeStreaming_congr h tok _

theorem pieces_congr (h : SameBuffer ctx ctx') (tok : Tokenizer) (chunks : List InferResponse) :
    pieces tok ctx chunks = pieces tok ctx' chunks := by
  induction chunks generalizing ctx ctx' with
  | nil => rfl
  | cons chunk rest ih =>
    unfold pieces
    cases parseStreamChunk chunk with
    | error e => rfl
    | ok parsed =>
      obtain ⟨htext, hbuffer⟩ := decodeChunk_congr h tok parsed
      dsimp only
      rw [htext, ih hbuffer]

end Decoding

section Sent

theorem sentContent_append (sent more : List OpenAIChunk) :
    sentContent (sent ++ more) = sentContent sent ++ sentContent more := by
  simp [sentContent]

theorem sentReasoning_append (sent more : List OpenAIChunk) :
    sentReasoning (sent ++ more) = sentReasoning sent ++ sentReasoning more := by
  simp [sentReasoning]

theorem sentToolCalls_append (sent more : List OpenAIChunk) :
    sentToolCalls (sent ++ more) = sentToolCalls sent ++ sentToolCalls more :=
  List.flatMap_append

theorem filter_nonempty_getD (text : Option String) :
    (text.filter (· ≠ "")).getD "" = text.getD "" := by
  cases text with
  | none => rfl
  | some text => by_cases h : text = "" <;> simp [Option.filter, h]

/-- The client gets everything of a delta, also where no chunk is sent. -/
theorem sentChunk_sums (count : Nat) (delta : Option DeltaMessage) (toolCalls : Option (List Json))
    (finishReason : Option String) :
    sentContent (sentChunk count delta toolCalls finishReason).toList = deltaContent delta ∧
    sentReasoning (sentChunk count delta toolCalls finishReason).toList = deltaReasoning delta ∧
    sentToolCalls (sentChunk count delta toolCalls finishReason).toList = toolCalls.getD [] ∧
    (sentChunk count delta toolCalls finishReason).toList.filterMap OpenAIChunk.finishReason =
      finishReason.toList := by
  unfold sentChunk
  dsimp only
  split_ifs with hempty
  · obtain ⟨hcontent, hcalls, hreasoning, hfinish, _⟩ := hempty
    exact ⟨hcontent.symm, by rw [deltaReasoning, hreasoning]; rfl, by rw [hcalls]; rfl,
      by rw [hfinish]; rfl⟩
  · refine ⟨?_, ?_, ?_, ?_⟩
    · rw [sentContent, deltaContent]
      cases delta.bind DeltaMessage.content <;> by_cases hcount : count = 0 <;>
        simp [buildChunk, hcount]
    · rw [deltaReasoning, ← filter_nonempty_getD]
      simp [sentReasoning, buildChunk]
    · simp [sentToolCalls, buildChunk]
    · cases finishReason <;> rfl

end Sent

section Runs

variable {sent : List OpenAIChunk}

theorem parseStreamChunk_toolCalls {parsed : ParsedChunk}
    (h : parseStreamChunk chunk = .ok parsed) :
    parsed.toolCallsDelta = chunk.choices.head?.bind fun choice => choice.toolCalls.get := by
  unfold parseStreamChunk at h
  cases hchoices : chunk.choices with
  | nil =>
    rw [hchoices] at h
    obtain rfl := Except.ok.inj h
    rfl
  | cons choice more =>
    rw [hchoices] at h
    obtain ⟨text, _, h⟩ := bind_eq_ok h
    obtain rfl := Except.ok.inj h
    rfl

theorem effectiveToolCalls_getD {parsed : ParsedChunk} (h : parseStreamChunk chunk = .ok parsed)
    (delta : Option DeltaMessage) :
    (effectiveToolCalls delta parsed).getD [] = deltaToolCalls delta chunk := by
  unfold effectiveToolCalls deltaToolCalls
  cases (delta.map DeltaMessage.toolCalls).getD [] with
  | nil => exact congrArg (·.getD []) (parseStreamChunk_toolCalls h)
  | cons call calls => rfl

/-- One chunk, from what it hands to the parser to what is sent of it. -/
structure WireStep (tok : Tokenizer) (P : RequestParser π) (tokenIds : List Int)
    (ctx : StreamContext π) (chunk : InferResponse) (delta : Option DeltaMessage)
    (sent : Option OpenAIChunk) (ctx' : StreamContext π) : Prop where
  parses : ∃ parsed, parseStreamChunk chunk = .ok parsed ∧
    P.parseDelta ctx.parser (decodeChunk tok parsed ctx).1 parsed.tokenIds
      (if ctx.streamChunkCount = 0 then some tokenIds else none) = .ok (delta, ctx'.parser) ∧
    SameBuffer ctx' (decodeChunk tok parsed ctx).2
  content : sentContent sent.toList = deltaContent delta
  reasoning : sentReasoning sent.toList = deltaReasoning delta
  toolCalls : sentToolCalls sent.toList = deltaToolCalls delta chunk
  finishReason : sent.toList.filterMap OpenAIChunk.finishReason =
    (chunkFinishReason P ctx'.parser chunk).toList
  counted : (ctx'.countSent sent).streamChunkCount ≠ 0

theorem processStreamChunk_wire {sent : Option OpenAIChunk}
    (h : processStreamChunk tok P tokenIds ctx chunk = .ok (sent, ctx')) :
    ∃ delta, WireStep tok P tokenIds ctx chunk delta sent ctx' := by
  unfold processStreamChunk at h
  obtain ⟨parsed, hparsed, h⟩ := bind_eq_ok h
  obtain ⟨⟨delta, parser⟩, hdelta, h⟩ := bind_eq_ok h
  obtain ⟨logprobs, _, h⟩ := bind_eq_ok h
  obtain ⟨rfl, rfl⟩ := Prod.mk.inj (Except.ok.inj h)
  have captured : SameBuffer (captureFields ctx chunk) ctx := ⟨rfl, rfl, rfl⟩
  obtain ⟨htext, hbuffer⟩ := decodeChunk_congr captured tok parsed
  rw [htext] at hdelta
  obtain ⟨hcontent, hreasoning, hcalls, hfinish⟩ := sentChunk_sums ctx.streamChunkCount delta
    (effectiveToolCalls delta parsed) (chunkFinishReason P parser chunk)
  refine ⟨delta, ⟨parsed, hparsed, hdelta, hbuffer.ids, hbuffer.text, hbuffer.checkpoint⟩,
    hcontent, hreasoning, ?_, hfinish, ?_⟩
  · rw [hcalls, effectiveToolCalls_getD hparsed]
  · obtain ⟨buffer, text, checkpoint, hframe⟩ :=
      decodeChunk_frame tok parsed (captureFields ctx chunk)
    rw [hframe]
    dsimp only [StreamContext.countSent, captureFields]
    by_cases hfirst : ctx.streamChunkCount = 0
    · simp [hfirst, sentChunk]
    · omega

/-- A stream, from what it hands to the parser to what is sent of it. -/
structure WireRun (tok : Tokenizer) (P : RequestParser π) (prompt : Option (List Int))
    (ctx : StreamContext π) (taken : List InferResponse) (deltas : List (Option DeltaMessage))
    (sent : List OpenAIChunk) (ctx' : StreamContext π) : Prop where
  parses : parseDeltas P ctx.parser prompt (pieces tok ctx taken) = .ok (deltas, ctx'.parser)
  content : sentContent sent = String.join (deltas.map deltaContent)
  reasoning : sentReasoning sent = String.join (deltas.map deltaReasoning)
  toolCalls : sentToolCalls sent = (deltas.zip taken).flatMap fun d => deltaToolCalls d.1 d.2
  finishReason : sent.filterMap OpenAIChunk.finishReason =
    (taken.getLast?.bind (chunkFinishReason P ctx'.parser)).toList
  length : deltas.length = taken.length

theorem processChunks_wire {sent : List OpenAIChunk}
    (h : processChunks tok P tokenIds ctx chunks = .ok (sent, ctx'))
    (running : ctx.streamFinished = false) :
    ∃ deltas, WireRun tok P (if ctx.streamChunkCount = 0 then some tokenIds else none) ctx
      (takenChunks chunks) deltas sent ctx' := by
  induction chunks generalizing ctx sent with
  | nil =>
    obtain ⟨rfl, rfl⟩ := Prod.mk.inj (Except.ok.inj h)
    exact ⟨[], rfl, rfl, rfl, rfl, rfl, rfl⟩
  | cons chunk rest ih =>
    obtain ⟨first, mid, more, hchunk, hrest⟩ := processChunks_cons h running
    obtain ⟨delta, step⟩ := processStreamChunk_wire hchunk
    obtain ⟨parsed, hparsed, hdelta, hbuffer⟩ := step.parses
    have hpieces : ∀ taken, pieces tok ctx (chunk :: taken) =
        ((decodeChunk tok parsed ctx).1, parsed.tokenIds) ::
          pieces tok (mid.countSent first) taken := by
      intro taken
      rw [pieces, hparsed, pieces_congr (hbuffer.countSent first)]
    by_cases last : isStreamFinished chunk = true
    · rw [if_pos last] at hrest
      obtain ⟨rfl, rfl⟩ := hrest
      rw [takenChunks, if_pos last]
      refine ⟨[delta], ?_, ?_, ?_, ?_, step.finishReason, rfl⟩
      · rw [hpieces, parseDeltas, hdelta]
        rfl
      · simp [step.content]
      · simp [step.reasoning]
      · simp [step.toolCalls]
    · rw [if_neg last] at hrest
      obtain ⟨rfl, continues, hmore⟩ := hrest
      obtain ⟨deltas, run⟩ := ih hmore continues
      have hparses : parseDeltas P mid.parser none (pieces tok (mid.countSent first)
          (takenChunks rest)) = .ok (deltas, ctx'.parser) := by
        rw [← run.parses, if_neg step.counted]
        rfl
      have hreason : ∀ parser, chunkFinishReason P parser chunk = none := fun _ => if_neg last
      rw [takenChunks, if_neg last]
      refine ⟨delta :: deltas, ?_, ?_, ?_, ?_, ?_, congrArg Nat.succ run.length⟩
      · rw [hpieces, parseDeltas, hdelta]
        dsimp only [bind, Except.bind]
        rw [hparses]
        rfl
      · simp [sentContent_append, step.content, run.content]
      · simp [sentReasoning_append, step.reasoning, run.reasoning]
      · simp [sentToolCalls_append, step.toolCalls, run.toolCalls]
      · rw [List.filterMap_append, step.finishReason, hreason, run.finishReason]
        cases hlast : takenChunks rest with
        | nil => simp [hreason]
        | cons next more => simp [List.getLast?_cons_cons]

theorem processStreamChunk_ok {parsed : ParsedChunk} {first : Option DeltaMessage × π}
    {acc : Option (Items Json)} (hparsed : parseStreamChunk chunk = .ok parsed)
    (hfirst : P.parseDelta ctx.parser (decodeChunk tok parsed ctx).1 parsed.tokenIds
      (if ctx.streamChunkCount = 0 then some tokenIds else none) = .ok first)
    (hacc : accumulateLogprobs ctx.streamLogprobs chunk = .ok acc) :
    ∃ sent mid, processStreamChunk tok P tokenIds ctx chunk = .ok (sent, mid) := by
  have captured : SameBuffer (captureFields ctx chunk) ctx := ⟨rfl, rfl, rfl⟩
  unfold processStreamChunk
  rw [hparsed]
  dsimp only [bind, Except.bind]
  rw [(decodeChunk_congr captured tok parsed).1, hfirst]
  dsimp only
  rw [hacc]
  exact ⟨_, _, rfl⟩

/-- A stream ends if no chunk raises: its text can be read, the parser takes its
piece and its logprobs extend those before. -/
theorem processChunks_ok {acc : Option (Items Json)} {deltas : List (Option DeltaMessage) × π}
    (running : ctx.streamFinished = false)
    (parsed : ∀ chunk ∈ takenChunks chunks, ∃ parsed, parseStreamChunk chunk = .ok parsed)
    (parses : parseDeltas P ctx.parser (if ctx.streamChunkCount = 0 then some tokenIds else none)
      (pieces tok ctx (takenChunks chunks)) = .ok deltas)
    (logprobs : (takenChunks chunks).foldlM accumulateLogprobs ctx.streamLogprobs = .ok acc) :
    ∃ result, processChunks tok P tokenIds ctx chunks = .ok result := by
  induction chunks generalizing ctx deltas with
  | nil => exact ⟨_, rfl⟩
  | cons chunk rest ih =>
    rw [takenChunks_cons] at parsed parses logprobs
    obtain ⟨first, hfirst⟩ := parsed chunk List.mem_cons_self
    rw [pieces, hfirst] at parses
    obtain ⟨delta, hdelta, parses⟩ := bind_eq_ok parses
    obtain ⟨more, hmore, _⟩ := bind_eq_ok parses
    rw [List.foldlM_cons] at logprobs
    obtain ⟨lp, hlp, logprobs⟩ := bind_eq_ok logprobs
    obtain ⟨sent, mid, hchunk⟩ := processStreamChunk_ok hfirst hdelta hlp
    have step := processStreamChunk_step hchunk
    obtain ⟨delta', wire⟩ := processStreamChunk_wire hchunk
    obtain ⟨first', hfirst', hdelta', hbuffer⟩ := wire.parses
    obtain rfl := Except.ok.inj (hfirst.symm.trans hfirst')
    obtain rfl := Except.ok.inj (hdelta.symm.trans hdelta')
    obtain rfl := Except.ok.inj (hlp.symm.trans step.logprobs)
    have hfinished : mid.streamFinished = isStreamFinished chunk := by
      rw [step.finished, running, Bool.false_or]
    unfold processChunks
    rw [hchunk]
    dsimp only [bind, Except.bind]
    by_cases last : isStreamFinished chunk = true
    · rw [if_pos (hfinished.trans last)]
      exact ⟨_, rfl⟩
    · rw [if_neg last] at parsed hmore logprobs
      rw [if_neg (hfinished ▸ last)]
      have hrest : parseDeltas P (mid.countSent sent).parser
          (if (mid.countSent sent).streamChunkCount = 0 then some tokenIds else none)
          (pieces tok (mid.countSent sent) (takenChunks rest)) = .ok more := by
        rw [if_neg wire.counted, pieces_congr (hbuffer.countSent sent)]
        exact hmore
      have continues : (mid.countSent sent).streamFinished = false :=
        hfinished.trans (Bool.not_eq_true _ ▸ last)
      obtain ⟨result, hresult⟩ := ih continues
        (fun other hother => parsed other (List.mem_cons_of_mem chunk hother)) hrest logprobs
      rw [hresult]
      exact ⟨_, rfl⟩

end Runs

end TrajProxy.Pipeline
