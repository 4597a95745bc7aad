import TrajProxy.Pipeline.SplitRecords

/-! Whether a streamed completion leaves the record the unsplit one leaves. -/

namespace TrajProxy.Pipeline

variable {π : Type}

section Completing

variable {s : Setting π} {completion : InferResponse} {choice : InferChoice} {ids : List Int}
  {tokenChunks : List InferResponse} {usageChunk : Option InferResponse} {record : Trajectory}

theorem upstreamMessage_ok_iff (c : InferChoice) (key : String) :
    (∃ value, upstreamMessage (some c) key = .ok value) ↔ HasMessage c.extras := by
  unfold upstreamMessage HasMessage
  dsimp only [Option.map_some, Option.getD_some]
  generalize Json.getD c.extras "message" = message
  by_cases htruthy : message.truthy = true
  · rw [if_pos htruthy]
    cases message <;> simp [itemGet, htruthy]
  · simp [htruthy]

theorem build_ok_iff {env : BuildEnv} {parser : MessageParser} {content : String}
    {response : InferResponse} {counts : TokenCounts} {c : InferChoice}
    (hhead : response.choices.head? = some c) :
    (∃ raw, build env parser content response counts = .ok raw) ↔
      HasMessage c.extras ∧ ∃ message, buildMessage env parser content
        (c.toolCalls.get.getD []) (getFinishReason response) = .ok message := by
  refine ⟨?_, ?_⟩
  · intro ⟨raw, h⟩
    have hmessage := (build_ok h).1
    rw [hhead] at hmessage
    unfold build at h
    obtain ⟨refusal, hrefusal, _⟩ := bind_eq_ok h
    rw [hhead] at hrefusal
    exact ⟨(upstreamMessage_ok_iff c _).mp ⟨refusal, hrefusal⟩, _, hmessage⟩
  · intro ⟨hextras, message, hmessage⟩
    obtain ⟨refusal, hrefusal⟩ := (upstreamMessage_ok_iff c "refusal").mpr hextras
    obtain ⟨audio, haudio⟩ := (upstreamMessage_ok_iff c "audio").mpr hextras
    obtain ⟨functionCall, hfunctionCall⟩ := (upstreamMessage_ok_iff c "function_call").mpr hextras
    unfold build
    rw [hhead]
    dsimp only [bind, Except.bind, Option.bind]
    rw [hrefusal, haudio, hfunctionCall]
    dsimp only
    rw [hmessage]
    exact ⟨_, rfl⟩

theorem hasMessage_congr {extras extras' : Items Json}
    (h : extras.get? "message" = extras'.get? "message") :
    HasMessage extras ↔ HasMessage extras' := by
  unfold HasMessage Json.getD
  rw [h]

/-- A stream whose chunks were taken is stored exactly if the builder can read
it. -/
theorem finalizeStream_ok_iff {ctx : StreamContext π}
    (run : StreamRun (.initial s.streamParser) tokenChunks ctx)
    (hchunks : tokenChunks.flatMap chunkIds = ids) (nonempty : ids ≠ [])
    (hfields : ∀ key ≠ "prompt_token_ids",
      (capturedChoice tokenChunks).get? key = choice.extras.get? key) :
    (∃ record, finalizeStream s.tok s.env s.sharedParser s.promptText (some s.tokenIds) ctx =
        .ok record) ↔
      HasMessage choice.extras ∧ ∃ message,
        buildMessage s.env s.sharedParser (s.tok.decodeClean ids) [] (some "stop") = .ok message := by
  have hbuffer : ctx.streamBufferIds = ids := run.ids.trans hchunks
  have hids : nonemptyIds (some ids) = some ids := by
    rw [nonemptyIds_some, if_neg nonempty]
  unfold finalizeStream
  dsimp only
  rw [hbuffer, hids]
  dsimp only
  obtain ⟨c, hchoices, hcalls, hfinish, _, _, hcFields⟩ := streamTokenResponse_choice run
    (s.tok.decodeClean ids)
    ⟨.int s.tokenIds.length, .int ids.length, .int (s.tokenIds.length + ids.length : Nat)⟩
  have hmessage : HasMessage c.extras ↔ HasMessage choice.extras := by
    apply hasMessage_congr
    rw [hcFields, if_neg (fun h => absurd h.1 (by decide)), Option.none_or, hfields _ (by decide)]
  have hreason : getFinishReason (streamTokenResponse (s.tok.decodeClean ids) (some s.tokenIds)
      ⟨.int s.tokenIds.length, .int ids.length, .int (s.tokenIds.length + ids.length : Nat)⟩ ctx) =
        some "stop" := rfl
  refine bind_pure_ok_iff.trans ((build_ok_iff (congrArg List.head? hchoices)).trans ?_)
  rw [hmessage, hcalls, hreason]
  rfl

theorem unsplit_ok {usage : Items Json} {parts : MessageParts}
    (single : completion.choices = [choice]) (tokenIds : choice.tokenIds = .value ids)
    (nonempty : ids ≠ []) (value : completion.usage = .value usage)
    (upstream : HasMessage choice.extras)
    (message : buildMessage s.env s.requestParser (s.tok.decodeClean ids)
      (choice.toolCalls.get.getD []) (getFinishReason completion) = .ok parts) :
    ∃ record, s.unsplit completion = .ok record := by
  have hids : nonemptyIds (some ids) = some ids := by
    rw [nonemptyIds_some, if_neg nonempty]
  have hstats : ∃ counts, updateStats s.tokenIds completion (some ids) = .ok counts := by
    rw [updateStats, value]
    exact ⟨_, rfl⟩
  obtain ⟨counts, hcounts⟩ := hstats
  unfold Setting.unsplit process
  rw [decodeResponse_ids s.tok single tokenIds nonempty]
  change ∃ record, (updateStats s.tokenIds completion (some ids) >>= _) = .ok record
  rw [hcounts, hids]
  have hhead : completion.choices.head? = some choice := by rw [single, List.head?_cons]
  exact bind_pure_ok_iff.mpr ((build_ok_iff hhead).mpr ⟨upstream, parts, message⟩)

theorem streamed_ok_iff (split : SplitOf completion choice ids tokenChunks usageChunk)
    (hfields : ∀ key ≠ "prompt_token_ids",
      (capturedChoice tokenChunks).get? key = choice.extras.get? key) :
    (∃ record, s.streamed (tokenChunks ++ usageChunk.toList) = .ok record) ↔
      s.Reads choice ids tokenChunks := by
  refine ⟨?_, ?_⟩
  · intro ⟨record, h⟩
    obtain ⟨⟨sent, ctx⟩, hrun, hfinal⟩ := bind_eq_ok h
    have run := processChunks_run hrun rfl
    obtain ⟨deltas, wire⟩ := processChunks_wire hrun rfl
    rw [split.taken] at run wire
    obtain ⟨upstream, message⟩ :=
      (finalizeStream_ok_iff run (split.chunkIds run.parsed) split.ids_nonempty hfields).mp
        ⟨record, hfinal⟩
    exact ⟨split.texts_iff.mp run.parsed, ⟨_, wire.parses⟩, ⟨_, run.logprobs⟩, upstream, message⟩
  · intro ⟨texts, ⟨deltas, hdeltas⟩, ⟨acc, hacc⟩, upstream, message⟩
    have parsed := split.texts_iff.mpr texts
    rw [← split.taken] at parsed hdeltas hacc
    obtain ⟨⟨sent, ctx⟩, hrun⟩ : ∃ result, processChunks s.tok s.streamParser s.tokenIds
        (.initial s.streamParser) (tokenChunks ++ usageChunk.toList) = .ok result :=
      processChunks_ok rfl parsed hdeltas hacc
    have run := processChunks_run hrun rfl
    rw [split.taken] at run
    obtain ⟨record, hfinal⟩ :=
      (finalizeStream_ok_iff run (split.chunkIds run.parsed) split.ids_nonempty hfields).mpr
        ⟨upstream, message⟩
    refine ⟨record, ?_⟩
    unfold Setting.streamed processStream
    rw [hrun]
    exact hfinal

/-- Where the two messages agree and the shared parser reads the text, the
unsplit completion is stored too. -/
theorem Setting.Agrees.completes (agrees : s.Agrees completion choice ids tokenChunks)
    (reads : s.Reads choice ids tokenChunks) (single : completion.choices = [choice])
    (tokenIds : choice.tokenIds = .value ids) (nonempty : ids ≠ []) :
    ∃ record, s.unsplit completion = .ok record := by
  obtain ⟨usage, value, _⟩ := agrees.usage
  obtain ⟨message, hmessage⟩ := reads.message
  have same := agrees.message
  rw [hmessage] at same
  obtain ⟨parts, hparts⟩ : ∃ parts, buildMessage s.env s.requestParser (s.tok.decodeClean ids)
      (choice.toolCalls.get.getD []) (some "stop") = .ok parts := by
    cases hrequest : buildMessage s.env s.requestParser (s.tok.decodeClean ids)
        (choice.toolCalls.get.getD []) (some "stop") with
    | error e =>
      rw [hrequest] at same
      nomatch same
    | ok parts => exact ⟨parts, rfl⟩
  rw [← getFinishReason_stop single agrees.finish] at hparts
  exact unsplit_ok single tokenIds nonempty value reads.upstream hparts

/-- The records of a completion and of a stream of it. -/
theorem SplitOf.records_iff {streamed unsplit : Trajectory}
    (split : SplitOf completion choice ids tokenChunks usageChunk)
    (hstreamed : s.streamed (tokenChunks ++ usageChunk.toList) = .ok streamed)
    (hunsplit : s.unsplit completion = .ok unsplit) :
    SameRecord streamed unsplit ↔ s.Agrees completion choice ids tokenChunks := by
  obtain ⟨⟨sent, ctx⟩, hrun, _⟩ := bind_eq_ok hstreamed
  have parsed := (processChunks_run hrun rfl).parsed
  rw [split.taken] at parsed
  exact sameRecord_iff
    (streamed_record split.taken (split.chunkIds parsed) split.ids_nonempty hstreamed)
    (unsplit_record split.single split.tokenIds split.ids_nonempty hunsplit)
    split.single split.tokenIds split.ids_nonempty split.logprobs

end Completing

/-- A completion is stored alike, streamed in any split and unsplit, exactly if
nothing in it makes a request fail and `Agrees` holds. -/
theorem parity_iff (s : Setting π) {completion : InferResponse} {choice : InferChoice}
    {ids : List Int} {tokenChunks : List InferResponse} {usageChunk : Option InferResponse}
    (split : SplitOf completion choice ids tokenChunks usageChunk) :
    s.Parity completion (tokenChunks ++ usageChunk.toList) ↔
      s.Reads choice ids tokenChunks ∧ s.Agrees completion choice ids tokenChunks := by
  refine ⟨?_, ?_⟩
  · intro ⟨streamed, unsplit, hstreamed, hunsplit, same⟩
    have agrees := (split.records_iff hstreamed hunsplit).mp same
    exact ⟨(streamed_ok_iff split agrees.choiceFields).mp ⟨streamed, hstreamed⟩, agrees⟩
  · intro ⟨reads, agrees⟩
    obtain ⟨streamed, hstreamed⟩ := (streamed_ok_iff split agrees.choiceFields).mpr reads
    obtain ⟨unsplit, hunsplit⟩ :=
      agrees.completes reads split.single split.tokenIds split.ids_nonempty
    exact ⟨streamed, unsplit, hstreamed, hunsplit,
      (split.records_iff hstreamed hunsplit).mpr agrees⟩

/-- A model without parsers. -/
def plainSetting : Setting Unit where
  tok := codePoints
  env := plainEnv
  sharedParser := noParser
  requestParser := noParser
  streamParser := passThrough
  promptText := "a"
  tokenIds := [97]

def splitUsage : Items Json :=
  [("prompt_tokens", .int 1), ("completion_tokens", .int 2), ("total_tokens", .int 3)]

def splitChoice (text : String) (ids : List Int) (finishReason : Field String) : InferChoice :=
  ⟨.value text, .value ids, .missing, finishReason, .missing, .missing,
    [("prompt_token_ids", .arr [.int 97])]⟩

/-- A completion of two tokens and its split into two chunks. -/
def splitCompletion (finishReason : String) : InferResponse :=
  ⟨[splitChoice "bc" [98, 99] (.value finishReason)], .value splitUsage, []⟩

def splitChunks (finishReason : String) : List InferResponse :=
  [⟨[splitChoice "b" [98] .null], .missing, []⟩,
    ⟨[splitChoice "c" [99] (.value finishReason)], .value splitUsage, []⟩]

theorem splitChunks_splitOf (finishReason : String) :
    SplitOf (splitCompletion finishReason) (splitChoice "bc" [98, 99] (.value finishReason))
      [98, 99] (splitChunks finishReason) none where
  single := rfl
  tokenIds := rfl
  nonempty := List.cons_ne_nil _ _
  parts := by
    intro chunk hchunk
    rcases List.mem_pair.mp hchunk with rfl | rfl
    · exact ⟨_, _, rfl, rfl, List.cons_ne_nil _ _⟩
    · exact ⟨_, _, rfl, rfl, List.cons_ne_nil _ _⟩
  ids := rfl
  running := by
    intro chunk hchunk
    obtain rfl := List.mem_singleton.mp hchunk
    rfl
  finished := by
    intro chunk hchunk
    obtain rfl := Option.some.inj hchunk
    refine ⟨rfl, ?_⟩
    intro part hpart
    obtain rfl := List.mem_singleton.mp hpart
    rfl
  logprobs _ := rfl
  usageOnly := nofun
  usage := rfl
  topFields _ := rfl
  choiceFields _ := rfl

theorem parity_splitChunks : plainSetting.Parity (splitCompletion "stop") (splitChunks "stop") := by
  refine (parity_iff plainSetting (splitChunks_splitOf "stop")).mpr ⟨?_, ?_⟩
  · refine ⟨?_, ⟨_, rfl⟩, ⟨_, rfl⟩, fun h => absurd h (by decide), _, rfl⟩
    intro chunk hchunk part hpart hnull
    rcases List.mem_pair.mp hchunk with rfl | rfl
    · rw [List.mem_singleton.mp hpart] at hnull
      nomatch hnull
    · rw [List.mem_singleton.mp hpart] at hnull
      nomatch hnull
  · exact ⟨by decide, rfl, fun _ _ => rfl, ⟨_, rfl, rfl, rfl, fun _ => rfl⟩, fun _ => rfl, rfl,
      fun _ _ => rfl, rfl⟩

/-- The stream of a completion cut at its length is stored with another finish
reason. -/
theorem truncated_noParity :
    ¬∀ (completion : InferResponse) (choice : InferChoice) (ids : List Int)
      (tokenChunks : List InferResponse) (usageChunk : Option InferResponse),
      SplitOf completion choice ids tokenChunks usageChunk →
      plainSetting.Parity completion (tokenChunks ++ usageChunk.toList) := by
  intro h
  have split := splitChunks_splitOf "length"
  obtain ⟨streamed, unsplit, hstreamed, hunsplit, same⟩ := h _ _ _ _ _ split
  have agrees := (split.records_iff hstreamed hunsplit).mp same
  exact absurd (Field.value.inj agrees.finish) (by decide)

end TrajProxy.Pipeline
