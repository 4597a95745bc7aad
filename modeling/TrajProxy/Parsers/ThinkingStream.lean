import TrajProxy.Parsers.HandOff
import TrajProxy.Parsers.Thinking
import TrajProxy.Pipeline.Deltas
import TrajProxy.Pipeline.StreamDecode

/-! `parse_delta` with a thinking parser and no tool parser, over the chunks of a
stream: up to the chunk with the end marker the parser decides, and all the text
after that chunk is content. -/

namespace TrajProxy.Parsers
open Pipeline (DeltaMessage deltaContent deltaReasoning)

/-- A token with the text it adds to the decoded text. -/
structure Token where
  id : Int
  text : String

def tokenIds (tokens : List Token) : List Int := tokens.map Token.id

def decoded (tokens : List Token) : String := String.join (tokens.map Token.text)

def chars (tokens : List Token) : List Char := tokens.flatMap fun token => token.text.toList

@[simp] theorem toList_decoded (tokens : List Token) : (decoded tokens).toList = chars tokens := by
  rw [decoded, String.toList_join, List.flatMap_map]
  rfl

@[simp] theorem chars_nil : chars [] = [] := rfl

@[simp] theorem chars_cons (token : Token) (tokens : List Token) :
    chars (token :: tokens) = token.text.toList ++ chars tokens := rfl

@[simp] theorem chars_append (tokens more : List Token) :
    chars (tokens ++ more) = chars tokens ++ chars more := List.flatMap_append

@[simp] theorem tokenIds_nil : tokenIds [] = [] := rfl

@[simp] theorem tokenIds_cons (token : Token) (tokens : List Token) :
    tokenIds (token :: tokens) = token.id :: tokenIds tokens := rfl

@[simp] theorem tokenIds_append (tokens more : List Token) :
    tokenIds (tokens ++ more) = tokenIds tokens ++ tokenIds more := List.map_append

/-- The arguments of the calls of `parse_delta`. -/
def calls (chunks : List (List Token)) : List (String × List Int) :=
  chunks.map fun chunk => (decoded chunk, tokenIds chunk)

/-- Reasoning and content. -/
@[ext]
structure Spoken where
  reasoning : List Char
  content : List Char

namespace Spoken

def add (first second : Spoken) : Spoken :=
  ⟨first.reasoning ++ second.reasoning, first.content ++ second.content⟩

def ofDelta (delta : Option DeltaMessage) : Spoken :=
  ⟨(deltaReasoning delta).toList, (deltaContent delta).toList⟩

/-- The deltas of a stream put together. -/
def ofDeltas (deltas : List (Option DeltaMessage)) : Spoken :=
  ⟨(String.join (deltas.map deltaReasoning)).toList,
    (String.join (deltas.map deltaContent)).toList⟩

@[simp] theorem ofDelta_none : ofDelta none = ⟨[], []⟩ := rfl

@[simp] theorem ofDelta_contentDelta (text : String) :
    ofDelta (some (contentDelta text)) = ⟨[], text.toList⟩ := rfl

@[simp] theorem ofDelta_reasoningDelta (text : String) :
    ofDelta (some (reasoningDelta text)) = ⟨text.toList, []⟩ := rfl

theorem ofDelta_getD (delta : Option DeltaMessage) :
    ofDelta (some (delta.getD (contentDelta ""))) = ofDelta delta := by
  cases delta with
  | none => rfl
  | some message => rfl

theorem ofDeltas_cons (delta : Option DeltaMessage) (deltas : List (Option DeltaMessage)) :
    ofDeltas (delta :: deltas) = (ofDelta delta).add (ofDeltas deltas) := by
  unfold ofDeltas
  rw [List.map_cons, List.map_cons, String.join_cons, String.join_cons, String.toList_append,
    String.toList_append]
  rfl

end Spoken

variable (M : Markers) (K : Thinking)

/-- The message for a chunk that comes after these ids. -/
def Thinking.delta (previous : List Int) (chunk : List Token) : Option DeltaMessage :=
  K.extractReasoningStreaming M
    { previousText := ""
      currentText := decoded chunk
      deltaText := decoded chunk
      previousTokenIds := previous
      currentTokenIds := previous ++ tokenIds chunk
      deltaTokenIds := tokenIds chunk }

def Thinking.chunkSpoken (previous : List Int) (chunk : List Token) : Spoken :=
  .ofDelta (K.delta M previous chunk)

/-- What the deltas of these chunks say, from a call in the reasoning phase on. -/
def Thinking.spoken : List Int → List (List Token) → Spoken
  | _, [] => ⟨[], []⟩
  | previous, chunk :: rest =>
    (K.chunkSpoken M previous chunk).add
      (if K.isReasoningEndStreaming M (tokenIds chunk) then ⟨[], chars rest.flatten⟩
      else Thinking.spoken (previous ++ tokenIds chunk) rest)

variable {M K}

/-- None of the parsers looks at the text before the delta. -/
theorem extractReasoningStreaming_eq {h : Handed} {previous : List Int} {chunk : List Token}
    (text : h.deltaText = decoded chunk) (before : h.previousTokenIds = previous)
    (ids : h.deltaTokenIds = tokenIds chunk) :
    K.extractReasoningStreaming M h = K.delta M previous chunk := by
  obtain ⟨_, _, _, _, _, _⟩ := h
  obtain rfl := text
  obtain rfl := before
  obtain rfl := ids
  cases K <;> rfl

section Run

variable {τ : Type} {request : Except Raised StreamToolChoice} {s : ParserState Unit τ}

/-- The state in which this call of `parse_delta` goes on after the prompt. -/
def Thinking.checked (M : Markers) (K : Thinking) (s : ParserState Unit τ) :
    Option (List Int) → ParserState Unit τ
  | none => s
  | some ids =>
    if s.stream.promptReasoningChecked then s
    else { s with stream := { s.stream with
      promptReasoningChecked := true
      reasoningEnded := s.stream.reasoningEnded || K.isReasoningEnd M ids } }

/-- The methods of a thinking parser return and keep no state. -/
theorem run_onReasoning {α : Type} (a : α) (s : ParserState Unit τ) :
    (onReasoning (pure a) : Py (ParserState Unit τ) α).run s = (.ok a, s) := rfl

theorem checkPrompt_run (promptTokenIds : Option (List Int)) :
    ((K.parser M τ request).checkPrompt promptTokenIds).run s =
      (.ok (), K.checked M s promptTokenIds) := by
  unfold Parser.checkPrompt Thinking.checked
  rw [Py.run_bind, Py.run_read]
  dsimp only
  cases promptTokenIds with
  | none => rfl
  | some ids =>
    cases hchecked : s.stream.promptReasoningChecked with
    | true => rfl
    | false =>
      dsimp only [Thinking.parser, Thinking.reasoningParser]
      rw [Py.run_bind, modifyStream, Py.run_modify]
      dsimp only
      rw [Py.run_bind, run_onReasoning]
      cases K.isReasoningEnd M ids with
      | true => simp [modifyStream, endReasoning]
      | false => simp

theorem reasoningPhase_running (h : Handed) (running : s.stream.reasoningEnded = false) :
    let delta := K.extractReasoningStreaming M h
    ((K.parser M τ request).reasoningPhase h).run s =
      if K.isReasoningEndStreaming M h.deltaTokenIds then
        (.ok (delta, h.atBoundary ((delta.bind DeltaMessage.content).getD "")
          (K.extractContentIds M h.deltaTokenIds)), { s with stream := endReasoning s.stream })
      else (.ok (delta, h), s) := by
  unfold Parser.reasoningPhase
  rw [Py.run_bind, Py.run_read]
  dsimp only [Thinking.parser, Thinking.reasoningParser]
  rw [running]
  dsimp only
  rw [Py.run_bind, run_onReasoning]
  dsimp only
  rw [Py.run_bind, run_onReasoning]
  dsimp only
  split
  · rfl
  · rfl

theorem reasoningPhase_ended (h : Handed) (ended : s.stream.reasoningEnded = true) :
    ((K.parser M τ request).reasoningPhase h).run s = (.ok (none, h), s) := by
  unfold Parser.reasoningPhase
  rw [Py.run_bind, Py.run_read]
  dsimp only [Thinking.parser]
  rw [ended]
  rfl

/-- Without a tool parser a call returns what the reasoning phase does, or else the
text. -/
theorem parseDelta_run {promptTokenIds : Option (List Int)} {deltaText : String}
    {deltaTokenIds : List Int} {delta : Option DeltaMessage} {h : Handed}
    {s₁ s₂ : ParserState Unit τ} (checked : K.checked M s promptTokenIds = s₁)
    (phase : ((K.parser M τ request).reasoningPhase (s₁.stream.hand deltaText deltaTokenIds)).run
      s₁ = (.ok (delta, h), s₂)) :
    ((K.parser M τ request).parseDelta deltaText deltaTokenIds promptTokenIds).run s =
      (.ok ((K.parser M τ request).passThrough s₂.stream delta h.deltaText),
        { s₂ with stream := { s₂.stream with
          previousText := h.currentText
          previousTokenIds := h.currentTokenIds } }) := by
  obtain rfl := checked
  have read : ((K.parser M τ request).readDelta deltaText deltaTokenIds promptTokenIds).run s =
      (.ok (delta, h), s₂) := by
    unfold Parser.readDelta
    rw [Py.run_bind_ok (checkPrompt_run promptTokenIds), Py.run_bind, Py.run_read]
    exact phase
  unfold Parser.parseDelta
  rw [Py.run_bind_ok read]
  dsimp only
  rw [Py.run_bind_ok (toolPhase_idle (Or.inl rfl))]
  rfl

/-- A call after the end of the reasoning. -/
theorem parseDelta_ended {promptTokenIds : Option (List Int)} (deltaText : String)
    (deltaTokenIds : List Int)
    (ended : (K.checked M s promptTokenIds).stream.reasoningEnded = true) :
    ∃ s', ((K.parser M τ request).parseDelta deltaText deltaTokenIds promptTokenIds).run s =
        (.ok (some (contentDelta deltaText)), s') ∧ s'.stream.reasoningEnded = true := by
  have content : (K.parser M τ request).passThrough (K.checked M s promptTokenIds).stream none
      deltaText = some (contentDelta deltaText) := by
    simp [Parser.passThrough, Thinking.parser, ended, contentDelta]
  rw [parseDelta_run rfl (reasoningPhase_ended _ ended)]
  exact ⟨_, congrArg (fun delta => (Except.ok delta, _)) content, ended⟩

/-- The call with the end marker. -/
theorem parseDelta_boundary {promptTokenIds : Option (List Int)} (deltaText : String)
    (deltaTokenIds : List Int)
    (running : (K.checked M s promptTokenIds).stream.reasoningEnded = false)
    (ends : K.isReasoningEndStreaming M deltaTokenIds = true) :
    let delta := K.extractReasoningStreaming M
      ((K.checked M s promptTokenIds).stream.hand deltaText deltaTokenIds)
    ∃ s', ((K.parser M τ request).parseDelta deltaText deltaTokenIds promptTokenIds).run s =
        (.ok (some (delta.getD (contentDelta ""))), s') ∧ s'.stream.reasoningEnded = true := by
  intro delta
  let h := (K.checked M s promptTokenIds).stream.hand deltaText deltaTokenIds
  have phase : ((K.parser M τ request).reasoningPhase h).run _ = _ :=
    (reasoningPhase_running h running).trans (if_pos ends)
  have passed : ∀ state : StreamState, (K.parser M τ request).passThrough (endReasoning state)
      delta ((delta.bind DeltaMessage.content).getD "") = some (delta.getD (contentDelta "")) := by
    intro state
    cases delta with
    | none => rfl
    | some message => rfl
  rw [parseDelta_run rfl phase]
  exact ⟨_, congrArg (fun delta => (Except.ok delta, _)) (passed _), rfl⟩

/-- A call before the end marker. -/
theorem parseDelta_reasoning {promptTokenIds : Option (List Int)} (deltaText : String)
    (deltaTokenIds : List Int)
    (running : (K.checked M s promptTokenIds).stream.reasoningEnded = false)
    (goesOn : K.isReasoningEndStreaming M deltaTokenIds = false) :
    ∃ s', ((K.parser M τ request).parseDelta deltaText deltaTokenIds promptTokenIds).run s =
        (.ok (K.extractReasoningStreaming M
          ((K.checked M s promptTokenIds).stream.hand deltaText deltaTokenIds)), s') ∧
      s'.stream.reasoningEnded = false ∧
      s'.stream.previousTokenIds =
        (K.checked M s promptTokenIds).stream.previousTokenIds ++ deltaTokenIds := by
  let h := (K.checked M s promptTokenIds).stream.hand deltaText deltaTokenIds
  have phase : ((K.parser M τ request).reasoningPhase h).run _ = _ :=
    (reasoningPhase_running h running).trans (if_neg (Bool.eq_false_iff.mp goesOn))
  have passed : ∀ delta, (K.parser M τ request).passThrough
      (K.checked M s promptTokenIds).stream delta deltaText = delta := by
    intro delta
    cases delta with
    | none => simp [Parser.passThrough, Thinking.parser, running]
    | some message => rfl
  rw [parseDelta_run rfl phase]
  exact ⟨_, congrArg (fun delta => (Except.ok delta, _)) (passed _), running, rfl⟩

theorem parseDeltas_cons {promptTokenIds : Option (List Int)} {chunk : List Token}
    {rest : List (List Token)} {delta : Option DeltaMessage}
    {deltas : List (Option DeltaMessage)} {s₁ s₂ : ParserState Unit τ}
    (first : ((K.parser M τ request).parseDelta (decoded chunk) (tokenIds chunk)
      promptTokenIds).run s = (.ok delta, s₁))
    (more : ((K.parser M τ request).parseDeltas none (calls rest)).run s₁ = (.ok deltas, s₂)) :
    ((K.parser M τ request).parseDeltas promptTokenIds (calls (chunk :: rest))).run s =
      (.ok (delta :: deltas), s₂) := by
  rw [calls, List.map_cons, Parser.parseDeltas, Py.run_bind_ok first]
  exact Py.run_bind_ok more

/-- After the end of the reasoning all text is content. -/
theorem parseDeltas_ended (promptTokenIds : Option (List Int)) (chunks : List (List Token))
    (ended : (K.checked M s promptTokenIds).stream.reasoningEnded = true) :
    ∃ deltas s', ((K.parser M τ request).parseDeltas promptTokenIds (calls chunks)).run s =
        (.ok deltas, s') ∧ Spoken.ofDeltas deltas = ⟨[], chars chunks.flatten⟩ := by
  induction chunks generalizing s promptTokenIds with
  | nil => exact ⟨[], s, rfl, rfl⟩
  | cons chunk rest ih =>
    obtain ⟨s₁, first, ended⟩ := parseDelta_ended (decoded chunk) (tokenIds chunk) ended
    obtain ⟨deltas, s₂, more, said⟩ := ih none ended
    refine ⟨_, s₂, parseDeltas_cons first more, ?_⟩
    rw [Spoken.ofDeltas_cons, said, Spoken.ofDelta_contentDelta, toList_decoded, List.flatten_cons,
      chars_append]
    rfl

/-- The deltas of a stream from the reasoning phase on. -/
theorem parseDeltas_running (promptTokenIds : Option (List Int)) (chunks : List (List Token))
    (running : (K.checked M s promptTokenIds).stream.reasoningEnded = false) :
    ∃ deltas s', ((K.parser M τ request).parseDeltas promptTokenIds (calls chunks)).run s =
        (.ok deltas, s') ∧ Spoken.ofDeltas deltas =
          K.spoken M (K.checked M s promptTokenIds).stream.previousTokenIds chunks := by
  induction chunks generalizing s promptTokenIds with
  | nil => exact ⟨[], s, rfl, rfl⟩
  | cons chunk rest ih =>
    have read : K.extractReasoningStreaming M
        ((K.checked M s promptTokenIds).stream.hand (decoded chunk) (tokenIds chunk)) =
          K.delta M (K.checked M s promptTokenIds).stream.previousTokenIds chunk :=
      extractReasoningStreaming_eq rfl rfl rfl
    cases ends : K.isReasoningEndStreaming M (tokenIds chunk) with
    | true =>
      obtain ⟨s₁, first, ended⟩ := parseDelta_boundary (decoded chunk) (tokenIds chunk) running ends
      obtain ⟨deltas, s₂, more, said⟩ := parseDeltas_ended none rest ended
      refine ⟨_, s₂, parseDeltas_cons first more, ?_⟩
      rw [Spoken.ofDeltas_cons, said, Thinking.spoken, if_pos ends, read, Spoken.ofDelta_getD]
      rfl
    | false =>
      obtain ⟨s₁, first, running, previous⟩ :=
        parseDelta_reasoning (decoded chunk) (tokenIds chunk) running ends
      obtain ⟨deltas, s₂, more, said⟩ := ih none running
      refine ⟨_, s₂, parseDeltas_cons first more, ?_⟩
      rw [Spoken.ofDeltas_cons, said, Thinking.spoken, if_neg (Bool.eq_false_iff.mp ends), read,
        ← previous]
      rfl

end Run

/-- The prompt ends the reasoning. -/
def Thinking.promptEnds (M : Markers) (K : Thinking) (promptTokenIds : Option (List Int)) : Bool :=
  match promptTokenIds with
  | none => false
  | some ids => K.isReasoningEnd M ids

/-- What the deltas of a stream say. -/
def Thinking.streamed (M : Markers) (K : Thinking) (promptTokenIds : Option (List Int))
    (chunks : List (List Token)) : Spoken :=
  if K.promptEnds M promptTokenIds then ⟨[], chars chunks.flatten⟩ else K.spoken M [] chunks

theorem parseDeltas_streamed {τ : Type} (request : Except Raised StreamToolChoice) (tool : τ)
    (promptTokenIds : Option (List Int)) (chunks : List (List Token)) :
    ∃ deltas s', ((K.parser M τ request).parseDeltas promptTokenIds (calls chunks)).run
        (.initial () tool) = (.ok deltas, s') ∧
      Spoken.ofDeltas deltas = K.streamed M promptTokenIds chunks := by
  have ended : (K.checked M (ParserState.initial () tool) promptTokenIds).stream.reasoningEnded =
      K.promptEnds M promptTokenIds := by
    cases promptTokenIds with
    | none => rfl
    | some ids => exact Bool.false_or _
  have previous :
      (K.checked M (ParserState.initial () tool) promptTokenIds).stream.previousTokenIds = [] := by
    cases promptTokenIds with
    | none => rfl
    | some ids => rfl
  unfold Thinking.streamed
  cases hends : K.promptEnds M promptTokenIds with
  | true => exact parseDeltas_ended promptTokenIds chunks (ended.trans hends)
  | false =>
    rw [← previous]
    exact parseDeltas_running promptTokenIds chunks (ended.trans hends)

section Decode

variable {π : Type} {tok : Pipeline.Tokenizer} {word : Int → String}

/-- A tokenizer that decodes token by token. -/
def TokenWise (tok : Pipeline.Tokenizer) (word : Int → String) : Prop :=
  ∀ ids, tok.decodeClean ids = String.join (ids.map word)

/-- The tokens with these ids. -/
def tokensOf (word : Int → String) (ids : List Int) : List Token := ids.map fun id => ⟨id, word id⟩

/-- The calls of `parse_delta` for the ids of these chunks, with the text that
`decode_streaming` gives for each. -/
def decodeCalls (tok : Pipeline.Tokenizer) :
    Pipeline.StreamContext π → List (List Int) → List (String × List Int)
  | _, [] => []
  | ctx, ids :: rest =>
    let decoding := Pipeline.decodeStreaming tok ids ctx
    (decoding.1, ids) :: decodeCalls tok decoding.2 rest

theorem dropFirst_append (first rest : String) :
    Text.dropFirst (first ++ rest) first.length = rest := by
  rw [← String.toList_inj, Text.dropFirst, String.toList_ofList, String.toList_append,
    ← String.length_toList, List.drop_left]

theorem TokenWise.append (tokenWise : TokenWise tok word) (ids more : List Int) :
    tok.decodeClean (ids ++ more) = tok.decodeClean ids ++ decoded (tokensOf word more) := by
  rw [tokenWise, tokenWise, ← String.toList_inj]
  simp only [decoded, tokensOf, String.toList_join, String.toList_append, List.map_append,
    List.flatMap_append, List.map_map]
  rfl

theorem decodeStreaming_tokenWise (tokenWise : TokenWise tok word) (ids : List Int)
    (ctx : Pipeline.StreamContext π)
    (buffered : ctx.streamBufferText = tok.decodeClean ctx.streamBufferIds)
    (aligned : ctx.streamDecodeCheckpointLen = ctx.streamBufferIds.length) :
    (Pipeline.decodeStreaming tok ids ctx).1 = decoded (tokensOf word ids) ∧
      (Pipeline.decodeStreaming tok ids ctx).2.streamBufferText =
        tok.decodeClean (ctx.streamBufferIds ++ ids) := by
  have realign : Text.dropFirst (tok.decodeClean (ctx.streamBufferIds ++ ids))
      ctx.streamBufferText.length = decoded (tokensOf word ids) := by
    rw [tokenWise.append, buffered, dropFirst_append]
  have segment : ∀ start ≤ ctx.streamBufferIds.length,
      tok.decodeClean ((ctx.streamBufferIds ++ ids).drop start) =
        tok.decodeClean (ctx.streamBufferIds.drop start) ++ decoded (tokensOf word ids) := by
    intro start le
    rw [List.drop_append_of_le_length le, tokenWise.append]
  simp only [Pipeline.decodeStreaming, aligned, List.take_left]
  split_ifs
  · exact ⟨realign, rfl⟩
  · rw [segment _ (Nat.sub_le _ _), dropFirst_append]
    exact ⟨rfl, by rw [buffered, tokenWise.append]⟩
  · exact ⟨realign, rfl⟩

/-- `decode_streaming` gives each chunk the text of its tokens. -/
theorem decodeCalls_tokenWise (tokenWise : TokenWise tok word) (P : Pipeline.RequestParser π)
    (chunks : List (List Int)) :
    decodeCalls tok (.initial P) chunks = calls (chunks.map (tokensOf word)) := by
  have all : ∀ ctx : Pipeline.StreamContext π,
      ctx.streamBufferText = tok.decodeClean ctx.streamBufferIds →
      ctx.streamDecodeCheckpointLen = ctx.streamBufferIds.length →
      decodeCalls tok ctx chunks = calls (chunks.map (tokensOf word)) := by
    induction chunks with
    | nil => exact fun _ _ _ => rfl
    | cons ids rest ih =>
      intro ctx buffered aligned
      obtain ⟨text, kept⟩ := decodeStreaming_tokenWise tokenWise ids ctx buffered aligned
      have ids_kept := Pipeline.decodeStreaming_ids tok ids ctx
      have more := ih (Pipeline.decodeStreaming tok ids ctx).2 (ids_kept.symm ▸ kept)
        (Pipeline.checkpoint_decodeStreaming tok ids ctx)
      have listed : tokenIds (tokensOf word ids) = ids := by
        simp [tokenIds, tokensOf, Function.comp_def]
      rw [decodeCalls, text, more, calls, calls, List.map_cons, List.map_cons, listed]
  have empty : tok.decodeClean [] = "" := tokenWise []
  exact all _ empty.symm rfl

end Decode

end TrajProxy.Parsers
