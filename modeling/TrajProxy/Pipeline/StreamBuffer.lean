import TrajProxy.Library.Effect
import TrajProxy.Pipeline.TokenStream

/-! What one chunk and what a whole stream do to the context, read off the
chunks alone. The parser only decides whether a chunk raises. -/

namespace TrajProxy.Pipeline

variable {π : Type} {tok : Tokenizer} {P : RequestParser π} {tokenIds : List Int}
  {ctx ctx' : StreamContext π} {chunk : InferResponse} {chunks : List InferResponse}
  {sent : List OpenAIChunk}

theorem decodeStreaming_ids (tok : Tokenizer) (ids : List Int) (ctx : StreamContext π) :
    (decodeStreaming tok ids ctx).2.streamBufferIds = ctx.streamBufferIds ++ ids := by
  simp only [decodeStreaming]
  split_ifs <;> rfl

/-- Decoding changes the buffer and the checkpoint only. -/
theorem decodeStreaming_frame (tok : Tokenizer) (ids : List Int) (ctx : StreamContext π) :
    ∃ buffer text checkpoint, (decodeStreaming tok ids ctx).2 = { ctx with
      streamBufferIds := buffer
      streamBufferText := text
      streamDecodeCheckpointLen := checkpoint } := by
  simp only [decodeStreaming]
  split_ifs <;> exact ⟨_, _, _, rfl⟩

theorem decodeChunk_frame (tok : Tokenizer) (parsed : ParsedChunk) (ctx : StreamContext π) :
    ∃ buffer text checkpoint, (decodeChunk tok parsed ctx).2 = { ctx with
      streamBufferIds := buffer
      streamBufferText := text
      streamDecodeCheckpointLen := checkpoint } := by
  unfold decodeChunk
  split
  · exact ⟨_, _, _, rfl⟩
  · exact decodeStreaming_frame tok _ _

/-- The context after one chunk. -/
structure ChunkStep (ctx : StreamContext π) (chunk : InferResponse) (ctx' : StreamContext π) :
    Prop where
  ids : ∃ parsed, parseStreamChunk chunk = .ok parsed ∧
    ctx'.streamBufferIds = ctx.streamBufferIds ++ parsed.tokenIds ∧
    (parsed.tokenIds = [] → ctx'.streamBufferText = ctx.streamBufferText)
  metadata : ctx'.streamInferMetadata = captureExtras ctx.streamInferMetadata chunk.extras
  usage : ctx'.usage = (chunkUsage chunk).or ctx.usage
  extras : ctx'.streamInferChoiceExtras =
    captureExtras ctx.streamInferChoiceExtras (choiceExtras chunk)
  logprobs : accumulateLogprobs ctx.streamLogprobs chunk = .ok ctx'.streamLogprobs
  finished : ctx'.streamFinished = (ctx.streamFinished || isStreamFinished chunk)

theorem processStreamChunk_step {sent : Option OpenAIChunk}
    (h : processStreamChunk tok P tokenIds ctx chunk = .ok (sent, ctx')) :
    ChunkStep ctx chunk ctx' := by
  unfold processStreamChunk at h
  obtain ⟨parsed, hparsed, h⟩ := bind_eq_ok h
  obtain ⟨⟨delta, parser⟩, _, h⟩ := bind_eq_ok h
  obtain ⟨logprobs, hlogprobs, h⟩ := bind_eq_ok h
  obtain ⟨rfl, rfl⟩ := Prod.mk.inj (Except.ok.inj h)
  obtain ⟨buffer, text, checkpoint, hframe⟩ :=
    decodeChunk_frame tok parsed (captureFields ctx chunk)
  have hids : (decodeChunk tok parsed (captureFields ctx chunk)).2.streamBufferIds =
      ctx.streamBufferIds ++ parsed.tokenIds := by
    unfold decodeChunk
    split
    · next hempty => simp [List.isEmpty_iff.mp hempty, captureFields]
    · exact decodeStreaming_ids tok _ _
  refine ⟨⟨parsed, hparsed, hids, fun hempty => ?_⟩, ?_, ?_, ?_, hlogprobs, rfl⟩
  · simp [decodeChunk, hempty, captureFields]
  · exact congrArg StreamContext.streamInferMetadata hframe
  · exact congrArg StreamContext.usage hframe
  · exact congrArg StreamContext.streamInferChoiceExtras hframe

/-- The ids a chunk adds to the buffer. -/
def chunkIds (chunk : InferResponse) : List Int :=
  match parseStreamChunk chunk with
  | .ok parsed => parsed.tokenIds
  | .error _ => []

/-- The chunks the loop takes, the finish chunk is the last one. -/
def takenChunks : List InferResponse → List InferResponse
  | [] => []
  | chunk :: rest => if isStreamFinished chunk then [chunk] else chunk :: takenChunks rest

theorem takenChunks_cons (chunk : InferResponse) (rest : List InferResponse) :
    takenChunks (chunk :: rest) =
      chunk :: if isStreamFinished chunk then [] else takenChunks rest := by
  rw [takenChunks]
  split_ifs <;> rfl

def streamedIds (chunks : List InferResponse) : List Int := (takenChunks chunks).flatMap chunkIds

/-- The loop ends with the finish chunk, or goes on. -/
theorem processChunks_cons
    (h : processChunks tok P tokenIds ctx (chunk :: chunks) = .ok (sent, ctx'))
    (running : ctx.streamFinished = false) :
    ∃ first mid more, processStreamChunk tok P tokenIds ctx chunk = .ok (first, mid) ∧
      if isStreamFinished chunk then sent = first.toList ∧ ctx' = mid.countSent first
      else sent = first.toList ++ more ∧ (mid.countSent first).streamFinished = false ∧
        processChunks tok P tokenIds (mid.countSent first) chunks = .ok (more, ctx') := by
  obtain ⟨⟨first, mid⟩, hchunk, h⟩ := bind_eq_ok h
  have hfinished : mid.streamFinished = isStreamFinished chunk := by
    rw [(processStreamChunk_step hchunk).finished, running, Bool.false_or]
  dsimp only at h
  by_cases last : isStreamFinished chunk = true
  · rw [if_pos (hfinished.trans last)] at h
    obtain ⟨rfl, rfl⟩ := Prod.mk.inj (Except.ok.inj h)
    refine ⟨first, mid, [], hchunk, ?_⟩
    rw [if_pos last]
    exact ⟨rfl, rfl⟩
  · rw [if_neg (hfinished ▸ last)] at h
    obtain ⟨⟨more, final⟩, hmore, h⟩ := bind_eq_ok h
    obtain ⟨rfl, rfl⟩ := Prod.mk.inj (Except.ok.inj h)
    refine ⟨first, mid, more, hchunk, ?_⟩
    rw [if_neg last]
    exact ⟨rfl, hfinished.trans (Bool.not_eq_true _ ▸ last), hmore⟩

/-- The context after the chunks taken from a stream. -/
structure StreamRun (ctx : StreamContext π) (taken : List InferResponse) (ctx' : StreamContext π) :
    Prop where
  parsed : ∀ chunk ∈ taken, ∃ parsed, parseStreamChunk chunk = .ok parsed
  ids : ctx'.streamBufferIds = ctx.streamBufferIds ++ taken.flatMap chunkIds
  text : taken.flatMap chunkIds = [] → ctx'.streamBufferText = ctx.streamBufferText
  metadata : ctx'.streamInferMetadata =
    taken.foldl (fun captured chunk => captureExtras captured chunk.extras) ctx.streamInferMetadata
  usage : ctx'.usage = (taken.filterMap chunkUsage).getLast?.or ctx.usage
  extras : ctx'.streamInferChoiceExtras = taken.foldl
    (fun captured chunk => captureExtras captured (choiceExtras chunk)) ctx.streamInferChoiceExtras
  logprobs : taken.foldlM accumulateLogprobs ctx.streamLogprobs = .ok ctx'.streamLogprobs

theorem ChunkStep.run (h : ChunkStep ctx chunk ctx') : StreamRun ctx [chunk] ctx' := by
  obtain ⟨parsed, hparsed, hids, htext⟩ := h.ids
  have hchunk : [chunk].flatMap chunkIds = parsed.tokenIds := by
    rw [List.flatMap_singleton, chunkIds, hparsed]
  refine ⟨?_, by rw [hids, hchunk], by rw [hchunk]; exact htext, h.metadata, ?_, h.extras, ?_⟩
  · intro other hother
    rw [List.mem_singleton.mp hother]
    exact ⟨parsed, hparsed⟩
  · rw [h.usage]
    cases husage : chunkUsage chunk <;> simp [husage]
  · rw [List.foldlM_cons, h.logprobs]
    rfl

theorem StreamRun.trans {mid : StreamContext π} {taken : List InferResponse}
    (first : StreamRun ctx [chunk] mid) (rest : StreamRun mid taken ctx') :
    StreamRun ctx (chunk :: taken) ctx' where
  parsed := by
    intro other hother
    rcases List.mem_cons.mp hother with rfl | hmem
    · exact first.parsed other List.mem_cons_self
    · exact rest.parsed other hmem
  ids := by
    rw [rest.ids, first.ids, List.append_assoc, ← List.flatMap_append]
    rfl
  text := by
    intro hnil
    rw [List.flatMap_cons, List.append_eq_nil_iff] at hnil
    rw [rest.text hnil.2, first.text (by rw [List.flatMap_singleton, hnil.1])]
  metadata := by
    rw [rest.metadata, first.metadata]
    rfl
  usage := by
    rw [rest.usage, first.usage, ← Option.or_assoc, ← List.getLast?_append,
      ← List.filterMap_append]
    rfl
  extras := by
    rw [rest.extras, first.extras]
    rfl
  logprobs := by
    have hfirst := first.logprobs
    rw [List.foldlM_cons] at hfirst
    obtain ⟨acc, hacc, hpure⟩ := bind_eq_ok hfirst
    obtain rfl := Except.ok.inj hpure
    rw [List.foldlM_cons, hacc]
    exact rest.logprobs

/-- However a stream ends, its context is that of the chunks it took. -/
theorem processChunks_run (h : processChunks tok P tokenIds ctx chunks = .ok (sent, ctx'))
    (running : ctx.streamFinished = false) : StreamRun ctx (takenChunks chunks) ctx' := by
  induction chunks generalizing ctx sent with
  | nil =>
    obtain ⟨rfl, rfl⟩ := Prod.mk.inj (Except.ok.inj h)
    constructor <;> simp [takenChunks, pure, Except.pure]
  | cons chunk rest ih =>
    obtain ⟨first, mid, more, hchunk, hrest⟩ := processChunks_cons h running
    have hstep := processStreamChunk_step hchunk
    have counted : StreamRun ctx [chunk] (mid.countSent first) :=
      ⟨hstep.run.parsed, hstep.run.ids, hstep.run.text, hstep.run.metadata, hstep.run.usage,
        hstep.run.extras, hstep.run.logprobs⟩
    by_cases last : isStreamFinished chunk = true
    · rw [if_pos last] at hrest
      rw [takenChunks, if_pos last, hrest.2]
      exact counted
    · rw [if_neg last] at hrest
      obtain ⟨_, continues, hmore⟩ := hrest
      rw [takenChunks, if_neg last]
      exact counted.trans (ih hmore continues)

end TrajProxy.Pipeline
