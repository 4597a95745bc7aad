import TrajProxy.Direct.Stream
import TrajProxy.Library.Effect

/-! The chunks as upstream sends them, where `choices` and a `delta` may be
missing or `null`, and the functions of `process_stream` on them. A chunk that
they take is treated as `Direct.Stream` treats the chunk it stands for. -/

namespace TrajProxy.Direct

structure ReceivedChoice where
  delta : Field ChatDelta
  finishReason : Field String
  logprobs : Field Logprobs
  tokenIds : Field (List Int)
  stopReason : Json
  extras : Items Json

structure ReceivedChunk where
  choices : Field (List ReceivedChoice)
  usage : Field (Items Json)
  promptTokenIds : Field (List Int)
  metadata : Items Json

def emptyDelta : ChatDelta :=
  ⟨.missing, .missing, .missing, .missing, .missing, .missing, []⟩

/-- The choice once its delta was read. -/
def ReceivedChoice.withDelta (choice : ReceivedChoice) (delta : ChatDelta) : ChatChoice where
  delta := delta
  finishReason := choice.finishReason
  logprobs := choice.logprobs
  tokenIds := choice.tokenIds
  stopReason := choice.stopReason
  extras := choice.extras

/-- The keys beside `choices`. -/
def ReceivedChunk.top (chunk : ReceivedChunk) : ChatChunk where
  choices := []
  usage := chunk.usage
  promptTokenIds := chunk.promptTokenIds
  metadata := chunk.metadata

/-- `_accumulate_stream_fields`; of a `null` delta `"role" in delta` raises. -/
def accumulateReceived (ctx : DirectContext) (chunk : ReceivedChunk) :
    Except String DirectContext :=
  let ctx := accumulateTop ctx chunk.top
  match chunk.choices with
  | .value (choice :: _) =>
    match choice.delta.getOr emptyDelta with
    | none => .error "TypeError"
    | some delta => .ok (accumulateChoice (accumulateDelta ctx delta) (choice.withDelta delta))
  | _ => .ok ctx

def ReceivedChoice.strip (choice : ReceivedChoice) : ReceivedChoice :=
  { choice with
    logprobs := .missing
    tokenIds := .missing
    extras := choice.extras.erase "routed_experts" }

/-- `_strip_injected_fields` and the filter after it; over `null` choices there
is no loop. -/
def stripReceived (chunk : ReceivedChunk) : Except String ReceivedChunk :=
  match chunk.choices with
  | .null => .error "TypeError"
  | choices => .ok { chunk with
      choices := choices.map (List.map ReceivedChoice.strip)
      promptTokenIds := .missing }

/-- The loop of `process_stream`: the chunks sent and the context it leaves. -/
def processReceived (ctx : DirectContext) :
    List ReceivedChunk → Except String (List ReceivedChunk × DirectContext)
  | [] => .ok ([], ctx)
  | chunk :: rest => do
    let ctx ← accumulateReceived ctx chunk
    let sent ← stripReceived chunk
    let result ← processReceived { ctx with streamChunkCount := ctx.streamChunkCount + 1 } rest
    pure (sent :: result.1, result.2)

/-- `process_stream` from the first chunk on: what is sent and what is stored. -/
def answerStream (generated : Items Json) (chunks : List ReceivedChunk) :
    Except String (List ReceivedChunk × RawResponse) := do
  let result ← processReceived .initial chunks
  pure (result.1, finalizeStream generated result.2)

/-- The choices are not `null`, nor is the delta of the first one. -/
structure ReceivedChunk.Readable (chunk : ReceivedChunk) : Prop where
  choices : chunk.choices ≠ .null
  delta : ∀ choice rest, chunk.choices = .value (choice :: rest) → choice.delta ≠ .null

section Reading

variable {ctx : DirectContext} {chunk : ReceivedChunk} {chunks : List ReceivedChunk}

/-- A choice and a chunk as they are read: what is missing is empty. -/
def ReceivedChoice.read (choice : ReceivedChoice) : ChatChoice :=
  choice.withDelta (choice.delta.get.getD emptyDelta)

def ReceivedChunk.read (chunk : ReceivedChunk) : ChatChunk :=
  { chunk.top with choices := (chunk.choices.get.getD []).map ReceivedChoice.read }

theorem accumulateReceived_read (readable : chunk.Readable) (ctx : DirectContext) :
    accumulateReceived ctx chunk = .ok (accumulateStreamFields ctx chunk.read) := by
  obtain ⟨choices, usage, promptTokenIds, metadata⟩ := chunk
  cases choices with
  | null => exact absurd rfl readable.choices
  | missing => rfl
  | value choices =>
    cases choices with
    | nil => rfl
    | cons choice rest =>
      have there : choice.delta ≠ .null := readable.delta choice rest rfl
      obtain ⟨delta, finishReason, logprobs, tokenIds, stopReason, extras⟩ := choice
      cases delta with
      | null => exact absurd rfl there
      | missing => rfl
      | value delta => rfl

theorem ReceivedChoice.read_strip (choice : ReceivedChoice) :
    choice.strip.read = stripChoice choice.read := rfl

theorem stripReceived_read (there : chunk.choices ≠ .null) :
    ∃ sent, stripReceived chunk = .ok sent ∧ sent.read = stripChunk chunk.read := by
  obtain ⟨choices, usage, promptTokenIds, metadata⟩ := chunk
  cases choices with
  | null => exact absurd rfl there
  | missing => exact ⟨_, rfl, rfl⟩
  | value choices =>
    have same : (choices.map ReceivedChoice.strip).map ReceivedChoice.read =
        (choices.map ReceivedChoice.read).map stripChoice := by
      rw [List.map_map, List.map_map]
      exact List.map_congr_left fun choice _ => choice.read_strip
    refine ⟨_, rfl, ?_⟩
    change ChatChunk.mk ((choices.map ReceivedChoice.strip).map ReceivedChoice.read) _ _ _ =
      ChatChunk.mk ((choices.map ReceivedChoice.read).map stripChoice) _ _ _
    rw [same]
    rfl

theorem stripReceived_ok {sent : ReceivedChunk} (h : stripReceived chunk = .ok sent) :
    chunk.choices ≠ .null := by
  intro null
  rw [stripReceived, null] at h
  nomatch h

theorem accumulateReceived_ok {ctx' : DirectContext}
    (h : accumulateReceived ctx chunk = .ok ctx') {choice : ReceivedChoice}
    {rest : List ReceivedChoice} (first : chunk.choices = .value (choice :: rest)) :
    choice.delta ≠ .null := by
  intro null
  unfold accumulateReceived at h
  rw [first] at h
  dsimp only at h
  rw [null] at h
  nomatch h

/-- A stream that is taken is the stream of the chunks as they are read. -/
theorem processReceived_read (readable : ∀ chunk ∈ chunks, chunk.Readable) (ctx : DirectContext) :
    ∃ sent, processReceived ctx chunks =
        .ok (sent, (processStream ctx (chunks.map ReceivedChunk.read)).2) ∧
      sent.map ReceivedChunk.read = (processStream ctx (chunks.map ReceivedChunk.read)).1 := by
  induction chunks generalizing ctx with
  | nil => exact ⟨[], rfl, rfl⟩
  | cons chunk rest ih =>
    obtain ⟨here, later⟩ := List.forall_mem_cons.mp readable
    let mid := accumulateStreamFields ctx chunk.read
    obtain ⟨first, hfirst, firstRead⟩ := stripReceived_read here.choices
    obtain ⟨more, hmore, moreRead⟩ :=
      ih later { mid with streamChunkCount := mid.streamChunkCount + 1 }
    refine ⟨first :: more, ?_, ?_⟩
    · unfold processReceived
      rw [bind_of_ok (accumulateReceived_read here ctx), bind_of_ok hfirst, bind_of_ok hmore]
      rfl
    · rw [List.map_cons, firstRead, moreRead]
      rfl

theorem processReceived_ok_iff (ctx : DirectContext) :
    (∃ result, processReceived ctx chunks = .ok result) ↔ ∀ chunk ∈ chunks, chunk.Readable := by
  refine ⟨?_, fun readable => ?_⟩
  · intro ⟨result, h⟩
    induction chunks generalizing ctx result with
    | nil => exact fun _ mem => (nomatch mem)
    | cons chunk rest ih =>
      obtain ⟨mid, hmid, h⟩ := bind_eq_ok h
      obtain ⟨sent, hsent, h⟩ := bind_eq_ok h
      obtain ⟨more, hmore, _⟩ := bind_eq_ok h
      refine List.forall_mem_cons.mpr ⟨⟨stripReceived_ok hsent, ?_⟩, ih _ more hmore⟩
      exact fun choice rest first => accumulateReceived_ok hmid first
  · obtain ⟨sent, hsent, _⟩ := processReceived_read readable ctx
    exact ⟨_, hsent⟩

theorem answerStream_ok_iff (generated : Items Json) :
    (∃ answer, answerStream generated chunks = .ok answer) ↔
      ∀ chunk ∈ chunks, chunk.Readable :=
  bind_pure_ok_iff.trans (processReceived_ok_iff .initial)

end Reading

end TrajProxy.Direct
