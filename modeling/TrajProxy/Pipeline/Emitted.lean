import TrajProxy.Pipeline.Deltas
import TrajProxy.Pipeline.Rendering

/-! Which chunks a stream sends: one for the first upstream chunk, and one for
every later one of which the parser or upstream said something. -/

namespace TrajProxy.Pipeline

variable {π : Type} {tok : Tokenizer} {P : RequestParser π} {tokenIds : List Int} {parser : π}
  {ctx ctx' : StreamContext π} {chunk : InferResponse} {chunks : List InferResponse}
  {delta : Option DeltaMessage} {piece : Option DeltaMessage × InferResponse}

/-- The tool calls an upstream chunk comes with. -/
def chunkToolCalls (chunk : InferResponse) : Option (List Json) :=
  chunk.choices.head?.bind fun choice => choice.toolCalls.get

/-- The tool calls of a delta, those of the chunk where the parser has none. -/
def toolCallsFor (delta : Option DeltaMessage) (chunk : InferResponse) : Option (List Json) :=
  match (delta.map DeltaMessage.toolCalls).getD [] with
  | [] => chunkToolCalls chunk
  | toolCalls => some (toolCalls.map DeltaToolCall.toJson)

/-- What is sent of one upstream chunk and the parser's delta of it. -/
def sentPiece (P : RequestParser π) (parser : π) (count : Nat)
    (piece : Option DeltaMessage × InferResponse) : Option OpenAIChunk :=
  sentChunk count piece.1 (toolCallsFor piece.1 piece.2) (chunkFinishReason P parser piece.2)

/-- What is sent of a stream that has sent `count` chunks; after its first chunk
the count is not zero. -/
def sentPieces (P : RequestParser π) (parser : π) (count : Nat) :
    List (Option DeltaMessage × InferResponse) → List OpenAIChunk
  | [] => []
  | piece :: rest => (sentPiece P parser count piece).toList ++
      rest.flatMap fun later => (sentPiece P parser 1 later).toList

/-- A delta that says nothing and is sent all the same: without a content, and
with a reasoning or tool calls that are there and empty. -/
structure Silent (delta : Option DeltaMessage) (chunk : InferResponse) : Prop where
  content : delta.bind DeltaMessage.content = none
  reasoning : deltaReasoning delta = ""
  toolCalls : (toolCallsFor delta chunk).getD [] = []
  present : delta.bind DeltaMessage.reasoning ≠ none ∨ toolCallsFor delta chunk ≠ none

section Sent

variable {sent : List OpenAIChunk} {c : OpenAIChunk} {count : Nat}

theorem sentPiece_pos (later : count ≠ 0) :
    sentPiece P parser count piece = sentPiece P parser 1 piece := by
  have positive : 0 < count := Nat.pos_of_ne_zero later
  simp [sentPiece, sentChunk, buildChunk, later, positive]

theorem sentPieces_pos (later : count ≠ 0) (rest : List (Option DeltaMessage × InferResponse)) :
    sentPieces P parser count rest =
      rest.flatMap fun piece => (sentPiece P parser 1 piece).toList := by
  cases rest with
  | nil => rfl
  | cons piece rest => rw [sentPieces, sentPiece_pos later, List.flatMap_cons]

theorem effectiveToolCalls_eq {parsed : ParsedChunk} (h : parseStreamChunk chunk = .ok parsed)
    (delta : Option DeltaMessage) : effectiveToolCalls delta parsed = toolCallsFor delta chunk := by
  unfold effectiveToolCalls toolCallsFor
  cases (delta.map DeltaMessage.toolCalls).getD [] with
  | nil => exact parseStreamChunk_toolCalls h
  | cons call calls => rfl

theorem processStreamChunk_sent {sent : Option OpenAIChunk}
    (h : processStreamChunk tok P tokenIds ctx chunk = .ok (sent, ctx'))
    (step : WireStep tok P tokenIds ctx chunk delta sent ctx') :
    sent = sentPiece P ctx'.parser ctx.streamChunkCount (delta, chunk) := by
  obtain ⟨parsed, hparsed, hdelta, _⟩ := step.parses
  have captured : SameBuffer (captureFields ctx chunk) ctx := ⟨rfl, rfl, rfl⟩
  unfold processStreamChunk at h
  rw [bind_of_ok hparsed] at h
  dsimp only at h
  rw [(decodeChunk_congr captured tok parsed).1, bind_of_ok hdelta] at h
  obtain ⟨logprobs, _, h⟩ := bind_eq_ok h
  obtain ⟨rfl, _⟩ := Prod.mk.inj (Except.ok.inj h)
  rw [sentPiece, effectiveToolCalls_eq hparsed]

theorem processChunks_sent {sent : List OpenAIChunk} {deltas : List (Option DeltaMessage)}
    (h : processChunks tok P tokenIds ctx chunks = .ok (sent, ctx'))
    (running : ctx.streamFinished = false)
    (parses : parseDeltas P ctx.parser (if ctx.streamChunkCount = 0 then some tokenIds else none)
      (pieces tok ctx (takenChunks chunks)) = .ok (deltas, parser)) :
    sent = sentPieces P ctx'.parser ctx.streamChunkCount (deltas.zip (takenChunks chunks)) := by
  induction chunks generalizing ctx sent deltas with
  | nil =>
    obtain ⟨rfl, rfl⟩ := Prod.mk.inj (Except.ok.inj h)
    rw [takenChunks, List.zip_nil_right]
    rfl
  | cons chunk rest ih =>
    obtain ⟨first, mid, more, hchunk, hrest⟩ := processChunks_cons h running
    obtain ⟨delta, step⟩ := processStreamChunk_wire hchunk
    have hfirst := processStreamChunk_sent hchunk step
    obtain ⟨parsed, hparsed, hdelta, hbuffer⟩ := step.parses
    rw [takenChunks_cons, pieces, hparsed] at parses
    dsimp only at parses
    rw [parseDeltas, bind_of_ok hdelta] at parses
    obtain ⟨later, hlater, parses⟩ := bind_eq_ok parses
    obtain ⟨rfl, ends⟩ := Prod.mk.inj (Except.ok.inj parses)
    rw [takenChunks_cons, List.zip_cons_cons, sentPieces]
    by_cases last : isStreamFinished chunk = true
    · rw [if_pos last] at hrest
      obtain ⟨rfl, rfl⟩ := hrest
      rw [if_pos last, List.zip_nil_right, List.flatMap_nil, List.append_nil]
      exact congrArg Option.toList hfirst
    · rw [if_neg last] at hrest hlater
      obtain ⟨rfl, continues, hmore⟩ := hrest
      rw [if_neg last]
      have hmid : parseDeltas P (mid.countSent first).parser
          (if (mid.countSent first).streamChunkCount = 0 then some tokenIds else none)
          (pieces tok (mid.countSent first) (takenChunks rest)) = .ok (later.1, parser) := by
        rw [if_neg step.counted, pieces_congr (hbuffer.countSent first), ← ends]
        exact hlater
      have silent : ∀ parser, chunkFinishReason P parser chunk = none := fun _ => if_neg last
      have same : sentPiece P mid.parser ctx.streamChunkCount (delta, chunk) =
          sentPiece P ctx'.parser ctx.streamChunkCount (delta, chunk) := by
        unfold sentPiece
        rw [silent, silent]
      rw [ih hmore continues hmid, sentPieces_pos step.counted, ← same, ← hfirst]

theorem sentPiece_first (P : RequestParser π) (parser : π)
    (piece : Option DeltaMessage × InferResponse) :
    ∃ c, sentPiece P parser 0 piece = some c ∧ c.role = some "assistant" := by
  refine ⟨buildChunk 0 (piece.1.bind DeltaMessage.content) (chunkFinishReason P parser piece.2)
    (toolCallsFor piece.1 piece.2) (piece.1.bind DeltaMessage.reasoning), ?_, rfl⟩
  unfold sentPiece sentChunk
  dsimp only
  exact if_neg fun h => absurd h.2.2.2.2 (Nat.lt_irrefl 0)

theorem sentPiece_built (h : sentPiece P parser count piece = some c) :
    c = buildChunk count (piece.1.bind DeltaMessage.content) (chunkFinishReason P parser piece.2)
      (toolCallsFor piece.1 piece.2) (piece.1.bind DeltaMessage.reasoning) := by
  unfold sentPiece sentChunk at h
  dsimp only at h
  split_ifs at h
  exact (Option.some.inj h).symm

theorem sentPiece_role (h : sentPiece P parser 1 piece = some c) : c.role = none := by
  rw [sentPiece_built h]
  rfl

theorem chunkFinishReason_eq_none_iff (P : RequestParser π) (parser : π) (chunk : InferResponse) :
    chunkFinishReason P parser chunk = none ↔ isStreamFinished chunk = false := by
  unfold chunkFinishReason
  by_cases last : isStreamFinished chunk = true
  · rw [if_pos last, last]
    refine iff_of_false ?_ (fun h => (nomatch h))
    by_cases seen : P.toolCallsSeen parser = true
    · rw [if_pos seen]
      exact Option.some_ne_none _
    · rw [if_neg seen]
      unfold isStreamFinished at last
      unfold getFinishReason
      cases hchoices : chunk.choices with
      | nil =>
        rw [hchoices] at last
        nomatch last
      | cons choice rest =>
        rw [hchoices] at last
        dsimp only
        cases hfinish : choice.finishReason with
        | missing => exact Option.some_ne_none _
        | null => simp [hfinish, Field.get] at last
        | value reason => exact Option.some_ne_none _
  · rw [if_neg last]
    exact iff_of_true rfl (Bool.not_eq_true _ ▸ last)

theorem sentPiece_finish (h : sentPiece P parser count piece = some c) :
    c.finishReason = none ↔ isStreamFinished piece.2 = false := by
  rw [sentPiece_built h]
  exact chunkFinishReason_eq_none_iff P parser piece.2

theorem deltaItems_eq_nil_iff (c : OpenAIChunk) :
    c.deltaItems = [] ↔
      c.role = none ∧ c.content = none ∧ c.reasoning = none ∧ c.toolCalls = [] := by
  obtain ⟨role, content, reasoning, toolCalls, finishReason⟩ := c
  cases role <;> cases content <;> cases reasoning <;> cases toolCalls <;>
    simp [OpenAIChunk.deltaItems]

/-- A later chunk without a finish reason is sent with an empty delta exactly for
a delta that says nothing. -/
theorem sentPiece_silent_iff :
    (∃ c, sentPiece P parser 1 piece = some c ∧ c.finishReason = none ∧ c.deltaItems = []) ↔
      isStreamFinished piece.2 = false ∧ Silent piece.1 piece.2 := by
  have reasoning : (piece.1.bind DeltaMessage.reasoning).filter (· ≠ "") = none ↔
      deltaReasoning piece.1 = "" := by
    unfold deltaReasoning
    cases piece.1.bind DeltaMessage.reasoning with
    | none => exact iff_of_true rfl rfl
    | some text => simp [Option.filter]
  refine ⟨?_, ?_⟩
  · rintro ⟨c, h, finish, empty⟩
    have running := (sentPiece_finish h).mp finish
    have reason := (chunkFinishReason_eq_none_iff P parser piece.2).mpr running
    refine ⟨running, ?_⟩
    rw [deltaItems_eq_nil_iff, sentPiece_built h] at empty
    obtain ⟨_, content, noReasoning, toolCalls⟩ := empty
    have noContent : piece.1.bind DeltaMessage.content = none := content
    refine ⟨noContent, reasoning.mp noReasoning, toolCalls, ?_⟩
    by_contra absent
    obtain ⟨noReason, noCalls⟩ := not_or.mp absent
    unfold sentPiece sentChunk at h
    dsimp only at h
    rw [if_pos ⟨by rw [noContent]; rfl, not_not.mp noCalls, not_not.mp noReason, reason,
      Nat.one_pos⟩] at h
    nomatch h
  · rintro ⟨running, silent⟩
    have reason := (chunkFinishReason_eq_none_iff P parser piece.2).mpr running
    refine ⟨_, if_neg ?_, reason, (deltaItems_eq_nil_iff _).mpr
      ⟨rfl, silent.content, reasoning.mpr silent.reasoning, silent.toolCalls⟩⟩
    rintro ⟨_, noCalls, noReasoning, _⟩
    rcases silent.present with there | there
    · exact there noReasoning
    · exact there noCalls

/-- Only the last chunk that is taken finishes a stream. -/
theorem takenChunks_running (chunks : List InferResponse) :
    ∀ chunk ∈ (takenChunks chunks).dropLast, isStreamFinished chunk = false := by
  induction chunks with
  | nil => exact List.forall_mem_nil _
  | cons chunk rest ih =>
    rw [takenChunks]
    split_ifs with last
    · exact List.forall_mem_nil _
    · cases hrest : takenChunks rest with
      | nil => exact List.forall_mem_nil _
      | cons next more =>
        rw [List.dropLast_cons_cons, List.forall_mem_cons, ← hrest]
        exact ⟨Bool.not_eq_true _ ▸ last, ih⟩

theorem mem_dropLast_append {α : Type} {a : α} {l l' : List α} (h : a ∈ (l ++ l').dropLast) :
    a ∈ l ∨ a ∈ l'.dropLast := by
  by_cases nothing : l' = []
  · rw [nothing, List.append_nil] at h
    exact Or.inl (List.dropLast_subset l h)
  · rw [List.dropLast_append_of_ne_nil nothing] at h
    exact List.mem_append.mp h

theorem later_running {rest : List (Option DeltaMessage × InferResponse)}
    (running : ∀ piece ∈ rest.dropLast, isStreamFinished piece.2 = false) :
    ∀ c ∈ (rest.flatMap fun piece => (sentPiece P parser 1 piece).toList).dropLast,
      c.finishReason = none := by
  induction rest with
  | nil => exact fun _ mem => (nomatch mem)
  | cons piece rest ih =>
    intro c mem
    cases rest with
    | nil =>
      rw [List.flatMap_cons, List.flatMap_nil, List.append_nil] at mem
      cases hpiece : sentPiece P parser 1 piece with
      | none =>
        rw [hpiece] at mem
        nomatch mem
      | some first =>
        rw [hpiece] at mem
        nomatch mem
    | cons next more =>
      obtain ⟨here, later⟩ := List.forall_mem_cons.mp running
      rw [List.flatMap_cons] at mem
      rcases mem_dropLast_append mem with first | after
      · exact (sentPiece_finish (Option.mem_toList.mp first)).mpr here
      · exact ih later c after

/-- The chunks of a stream: the first has the role, the others have none, and only
the last has a finish reason. -/
theorem sentPieces_first (P : RequestParser π) (parser : π)
    {pairs : List (Option DeltaMessage × InferResponse)} (nonempty : pairs ≠ [])
    (running : ∀ piece ∈ pairs.dropLast, isStreamFinished piece.2 = false) :
    ∃ first, sentPieces P parser 0 pairs =
        first :: (pairs.tail.flatMap fun piece => (sentPiece P parser 1 piece).toList) ∧
      first.role = some "assistant" ∧
      ∀ c ∈ (sentPieces P parser 0 pairs).dropLast, c.finishReason = none := by
  cases pairs with
  | nil => exact absurd rfl nonempty
  | cons piece rest =>
    obtain ⟨first, hfirst, role⟩ := sentPiece_first P parser piece
    have sent : sentPieces P parser 0 (piece :: rest) =
        first :: (rest.flatMap fun piece => (sentPiece P parser 1 piece).toList) := by
      rw [sentPieces, hfirst]
      rfl
    refine ⟨first, sent, role, ?_⟩
    rw [sent]
    cases rest with
    | nil => exact fun _ mem => (nomatch mem)
    | cons next more =>
      obtain ⟨here, later⟩ := List.forall_mem_cons.mp running
      intro c mem
      rcases mem_dropLast_append (l := [first]) mem with same | after
      · rw [List.mem_singleton.mp same]
        exact (sentPiece_finish hfirst).mpr here
      · exact later_running later c after

/-- Of the later chunks, those without a finish reason have a delta exactly if no
delta was silent. -/
theorem later_deltas_iff (P : RequestParser π) (parser : π)
    (rest : List (Option DeltaMessage × InferResponse)) :
    (∀ c ∈ rest.flatMap fun piece => (sentPiece P parser 1 piece).toList,
        c.finishReason = none → c.deltaItems ≠ []) ↔
      ∀ piece ∈ rest, isStreamFinished piece.2 = false → ¬Silent piece.1 piece.2 := by
  refine ⟨?_, ?_⟩
  · intro filled piece mem running silent
    obtain ⟨c, sent, reason, empty⟩ := sentPiece_silent_iff.mpr ⟨running, silent⟩
    exact filled c (List.mem_flatMap.mpr ⟨piece, mem, Option.mem_toList.mpr sent⟩) reason empty
  · intro spoken c mem reason empty
    obtain ⟨piece, there, sent⟩ := List.mem_flatMap.mp mem
    obtain ⟨running, silent⟩ :=
      sentPiece_silent_iff.mp ⟨c, Option.mem_toList.mp sent, reason, empty⟩
    exact spoken piece there running silent

end Sent

end TrajProxy.Pipeline
