import TrajProxy.Pipeline.BuiltMessage
import TrajProxy.Pipeline.IdParsing

/-! Which upstream answers `TokenPipeline` takes: when a request for a completion
and when a stream end without an exception, whatever of the fields is missing or
`null`. -/

namespace TrajProxy.Pipeline

variable {π : Type}

section Logprobs

/-- A key under which something else than a list is kept. -/
def Blocked (kept : Items Json) (key : String) : Prop :=
  ∃ value, kept.get? key = some value ∧ ∀ items, value ≠ .arr items

/-- A list arrives under a key. -/
def BringsList (logprobs : Items Json) (key : String) : Prop :=
  ∃ items, logprobs.get? key = some (.arr items)

theorem extendLogprob_ok_iff (logprobs kept : Items Json) (key : String) :
    (∃ kept', extendLogprob logprobs kept key = .ok kept') ↔
      ¬(BringsList logprobs key ∧ Blocked kept key) := by
  unfold extendLogprob
  split
  · next items hlist =>
    have brings : BringsList logprobs key := ⟨items, hlist⟩
    split
    · next hkept =>
      refine ⟨fun _ ⟨_, value, hvalue, _⟩ => ?_, fun _ => ⟨_, rfl⟩⟩
      rw [hkept] at hvalue
      nomatch hvalue
    · next old hkept =>
      refine ⟨fun _ ⟨_, value, hvalue, other⟩ => ?_, fun _ => ⟨_, rfl⟩⟩
      rw [hkept] at hvalue
      exact other old (Option.some.inj hvalue).symm
    · next value other hkept =>
      refine ⟨fun ⟨_, h⟩ => (nomatch h), fun free => absurd ⟨brings, value, hkept, ?_⟩ free⟩
      exact fun items h => other items h
  · next other =>
    exact ⟨fun _ ⟨⟨items, h⟩, _⟩ => other items h, fun _ => ⟨_, rfl⟩⟩

theorem extendLogprob_blocked {logprobs kept kept' : Items Json} {key : String}
    (h : extendLogprob logprobs kept key = .ok kept') (k : String) :
    Blocked kept' k ↔ Blocked kept k := by
  unfold extendLogprob at h
  split at h
  · split at h
    · next items _ hkept =>
      obtain rfl := Except.ok.inj h
      unfold Blocked
      rw [Items.get?_set]
      split_ifs with hk
      · rw [hk, hkept]
        simp
      · rfl
    · next items _ old hkept =>
      obtain rfl := Except.ok.inj h
      unfold Blocked
      rw [Items.get?_set]
      split_ifs with hk
      · rw [hk, hkept]
        simp
      · rfl
    · nomatch h
  · obtain rfl := Except.ok.inj h
    rfl

/-- No list arrives under one of the four keys where another value is kept. -/
def Extends (kept logprobs : Items Json) : Prop :=
  ∀ key ∈ logprobKeys, ¬(BringsList logprobs key ∧ Blocked kept key)

theorem extendLogprobs_ok_iff (logprobs kept : Items Json) :
    (∃ kept', logprobKeys.foldlM (extendLogprob logprobs) kept = .ok kept') ↔
      Extends kept logprobs := by
  refine foldlM_ok_iff (extendLogprob_ok_iff logprobs) ?_ logprobKeys kept
  intro old key kept' h other
  rw [extendLogprob_blocked h]

theorem extendLogprobs_blocked {logprobs kept kept' : Items Json} {keys : List String}
    (h : keys.foldlM (extendLogprob logprobs) kept = .ok kept') (k : String) :
    Blocked kept' k ↔ Blocked kept k := by
  induction keys generalizing kept with
  | nil =>
    obtain rfl := Except.ok.inj h
    rfl
  | cons key keys ih =>
    rw [List.foldlM_cons] at h
    obtain ⟨mid, hmid, hrest⟩ := bind_eq_ok h
    rw [ih hrest, extendLogprob_blocked hmid]

theorem accumulateLogprobs_ok_iff (chunks : List InferResponse) (kept : Items Json) :
    (∃ acc, chunks.foldlM accumulateLogprobs (some kept) = .ok acc) ↔
      ∀ logprobs ∈ chunks.filterMap chunkLogprobs, Extends kept logprobs := by
  induction chunks generalizing kept with
  | nil => exact ⟨fun _ _ mem => (nomatch mem), fun _ => ⟨_, rfl⟩⟩
  | cons chunk chunks ih =>
    rw [List.foldlM_cons]
    cases hlp : chunkLogprobs chunk with
    | none =>
      have same : accumulateLogprobs (some kept) chunk = .ok (some kept) := by
        unfold accumulateLogprobs
        rw [hlp]
      rw [bind_of_ok same, ih, List.filterMap_cons_none hlp]
    | some logprobs =>
      have step : accumulateLogprobs (some kept) chunk =
          (logprobKeys.foldlM (extendLogprob logprobs) kept).map some := by
        unfold accumulateLogprobs
        rw [hlp]
      rw [List.filterMap_cons_some hlp, List.forall_mem_cons, step]
      cases hextended : logprobKeys.foldlM (extendLogprob logprobs) kept with
      | error e =>
        refine ⟨fun ⟨_, h⟩ => (nomatch h), fun ⟨fits, _⟩ => ?_⟩
        obtain ⟨kept', hkept⟩ := (extendLogprobs_ok_iff logprobs kept).mpr fits
        rw [hextended] at hkept
        nomatch hkept
      | ok extended =>
        have stable : ∀ other, Extends extended other ↔ Extends kept other := by
          intro other
          unfold Extends
          simp only [extendLogprobs_blocked hextended]
        have fits := (extendLogprobs_ok_iff logprobs kept).mp ⟨extended, hextended⟩
        refine (ih extended).trans ?_
        simp only [stable]
        exact (and_iff_right fits).symm

/-- The first `logprobs` of a stream take all later ones. -/
def LogprobsFit : List (Items Json) → Prop
  | [] => True
  | first :: later => ∀ logprobs ∈ later, Extends first logprobs

theorem streamLogprobs_ok_iff (chunks : List InferResponse) :
    (∃ acc, chunks.foldlM accumulateLogprobs none = .ok acc) ↔
      LogprobsFit (chunks.filterMap chunkLogprobs) := by
  induction chunks with
  | nil => exact ⟨fun _ => trivial, fun _ => ⟨none, rfl⟩⟩
  | cons chunk chunks ih =>
    rw [List.foldlM_cons]
    cases hlp : chunkLogprobs chunk with
    | none =>
      have same : accumulateLogprobs none chunk = .ok none := by
        unfold accumulateLogprobs
        rw [hlp]
      rw [bind_of_ok same, ih, List.filterMap_cons_none hlp]
    | some logprobs =>
      have first : accumulateLogprobs none chunk = .ok (some logprobs) := by
        unfold accumulateLogprobs
        rw [hlp]
      rw [bind_of_ok first, accumulateLogprobs_ok_iff, List.filterMap_cons_some hlp]
      rfl

end Logprobs

section Completion

variable {tok : Tokenizer} {response : InferResponse}

/-- The completion has ids, or a text that is not empty. -/
def HasOutput (response : InferResponse) : Prop :=
  ∃ choice, response.choices.head? = some choice ∧
    (nonemptyIds choice.tokenIds.get ≠ none ∨ choice.text.text ≠ "")

theorem filter_nonempty (text : Option String) :
    text.filter (· ≠ "") = if text.getD "" = "" then none else some (text.getD "") := by
  cases text with
  | none => rfl
  | some text => by_cases h : text = "" <;> simp [Option.filter, h]

theorem decodeResponse_ok_iff (tok : Tokenizer) :
    (∃ decoded, decodeResponse tok response = .ok decoded) ↔ HasOutput response := by
  unfold decodeResponse HasOutput
  cases hchoices : response.choices with
  | nil =>
    have nothing : parseTextResponse response = (some "", none) := by
      unfold parseTextResponse
      rw [hchoices]
    rw [nothing]
    exact ⟨fun ⟨_, h⟩ => (nomatch h), fun ⟨_, h, _⟩ => (nomatch h)⟩
  | cons choice rest =>
    obtain ⟨text, tokenIds⟩ := parseTextResponse_cons hchoices
    dsimp only [List.head?_cons]
    rw [filter_nonempty, text, tokenIds]
    cases hids : nonemptyIds choice.tokenIds.get with
    | some ids => exact ⟨fun _ => ⟨choice, rfl, Or.inl (by simp [hids])⟩, fun _ => ⟨_, rfl⟩⟩
    | none =>
      split_ifs with empty
      · refine ⟨fun ⟨_, h⟩ => (nomatch h), fun ⟨other, hother, h⟩ => ?_⟩
        obtain rfl := Option.some.inj hother
        rcases h with ids | there
        · exact absurd hids ids
        · exact absurd empty there
      · refine ⟨fun _ => ⟨choice, rfl, Or.inr empty⟩, fun _ => ?_⟩
        dsimp only
        cases parseTokenIdsFromText choice.text.text <;> exact ⟨_, rfl⟩

theorem updateStats_ok_iff (tokenIds : List Int) (responseIds : Option (List Int)) :
    (∃ counts, updateStats tokenIds response responseIds = .ok counts) ↔
      response.usage ≠ .null := by
  unfold updateStats
  cases response.usage with
  | null => exact ⟨fun ⟨_, h⟩ => (nomatch h), fun h => absurd rfl h⟩
  | missing => exact ⟨fun _ h => (nomatch h), fun _ => ⟨_, rfl⟩⟩
  | value usage => exact ⟨fun _ h => (nomatch h), fun _ => ⟨_, rfl⟩⟩

/-- The text the builder gets for what was decoded. -/
def cleanResponseText (tok : Tokenizer) (decoded : String × Option (List Int)) : String :=
  match nonemptyIds decoded.2 with
  | some ids => tok.decodeClean ids
  | none => decoded.1

/-- What it takes to process a completion. -/
structure Setting.TakesCompletion (s : Setting π) (completion : InferResponse) : Prop where
  output : HasOutput completion
  usage : completion.usage ≠ .null
  message : UpstreamMessage completion
  reads : upstreamToolCalls completion = [] →
    ∀ decoded, decodeResponse s.tok completion = .ok decoded →
      ReadsChoice s.env s.requestParser
        (remainingText s.env s.requestParser (cleanResponseText s.tok decoded))

theorem unsplit_ok_iff (s : Setting π) (completion : InferResponse) :
    (∃ record, s.unsplit completion = .ok record) ↔ s.TakesCompletion completion := by
  unfold Setting.unsplit process
  refine ⟨?_, ?_⟩
  · intro ⟨record, h⟩
    obtain ⟨decoded, hdecoded, h⟩ := bind_eq_ok h
    obtain ⟨counts, hcounts, h⟩ := bind_eq_ok h
    obtain ⟨raw, hraw, _⟩ := bind_eq_ok h
    obtain ⟨message, reads⟩ := (build_returns_iff counts).mp ⟨raw, hraw⟩
    refine ⟨(decodeResponse_ok_iff s.tok).mp ⟨decoded, hdecoded⟩,
      (updateStats_ok_iff s.tokenIds decoded.2).mp ⟨counts, hcounts⟩, message, ?_⟩
    intro none other hother
    obtain rfl := Except.ok.inj (hdecoded.symm.trans hother)
    exact reads none
  · intro takes
    obtain ⟨decoded, hdecoded⟩ := (decodeResponse_ok_iff s.tok).mpr takes.output
    obtain ⟨counts, hcounts⟩ := (updateStats_ok_iff s.tokenIds decoded.2).mpr takes.usage
    obtain ⟨raw, hraw⟩ := (build_returns_iff counts).mpr
      ⟨takes.message, fun none => takes.reads none decoded hdecoded⟩
    rw [bind_of_ok hdecoded]
    dsimp only
    rw [bind_of_ok hcounts]
    exact bind_pure_ok_iff.mpr ⟨raw, hraw⟩

end Completion

section Stream

variable {s : Setting π} {chunks : List InferResponse}

/-- What it takes to process a stream: of each chunk up to the finish chunk the
text, of all of them the logprobs, and what the parsers make of the pieces. -/
structure Setting.TakesStream (s : Setting π) (chunks : List InferResponse) : Prop where
  texts : ∀ chunk ∈ takenChunks chunks, ∀ choice, chunk.choices.head? = some choice →
    choice.text ≠ .null
  parser : ∃ deltas, parseDeltas s.streamParser s.streamParser.start (some s.tokenIds)
    (pieces s.tok (.initial s.streamParser) (takenChunks chunks)) = .ok deltas
  logprobs : LogprobsFit ((takenChunks chunks).filterMap chunkLogprobs)
  message : HasMessage (capturedChoice (takenChunks chunks))
  reads : ReadsChoice s.env s.sharedParser
    (remainingText s.env s.sharedParser (cleanText s.tok (streamedIds chunks)))

theorem parseStreamChunk_ok_iff (chunk : InferResponse) :
    (∃ parsed, parseStreamChunk chunk = .ok parsed) ↔
      ∀ choice, chunk.choices.head? = some choice → choice.text ≠ .null := by
  unfold parseStreamChunk
  cases chunk.choices with
  | nil => exact ⟨fun _ _ h => (nomatch h), fun _ => ⟨_, rfl⟩⟩
  | cons choice rest =>
    dsimp only [List.head?_cons]
    rw [bind_pure_ok_iff]
    unfold parseChunkText
    refine ⟨?_, ?_⟩
    · intro ⟨text, h⟩ other hother null
      obtain rfl := Option.some.inj hother
      rw [null] at h
      nomatch h
    · intro h
      have there := h choice rfl
      cases htext : choice.text with
      | missing => exact ⟨_, rfl⟩
      | null => exact absurd htext there
      | value text =>
        dsimp only
        cases parseTokenIdsFromText text <;> exact ⟨_, rfl⟩

/-- The text a finished stream hands to the builder. -/
theorem StreamRun.cleanText {ctx : StreamContext π} (tok : Tokenizer)
    (run : StreamRun (.initial s.streamParser) (takenChunks chunks) ctx) :
    (match nonemptyIds (some ctx.streamBufferIds) with
      | some ids => tok.decodeClean ids
      | none => ctx.streamBufferText) = Pipeline.cleanText tok (streamedIds chunks) := by
  have ids : ctx.streamBufferIds = streamedIds chunks := run.ids
  rw [ids, nonemptyIds_some, Pipeline.cleanText]
  by_cases none : streamedIds chunks = []
  · have empty : ctx.streamBufferText = "" := run.text none
    rw [if_pos none, if_pos none]
    exact empty
  · rw [if_neg none, if_neg none]

/-- A stream that ran to its end is stored if the builder takes what was
gathered. -/
theorem finalizeStream_returns_iff {ctx : StreamContext π}
    (run : StreamRun (.initial s.streamParser) (takenChunks chunks) ctx) :
    (∃ record, finalizeStream s.tok s.env s.sharedParser s.promptText (some s.tokenIds) ctx =
        .ok record) ↔
      HasMessage (capturedChoice (takenChunks chunks)) ∧
        ReadsChoice s.env s.sharedParser
          (remainingText s.env s.sharedParser (cleanText s.tok (streamedIds chunks))) := by
  have gathered : ∀ text counts, text = cleanText s.tok (streamedIds chunks) →
      ((UpstreamMessage (streamTokenResponse text (some s.tokenIds) counts ctx) ∧
          (upstreamToolCalls (streamTokenResponse text (some s.tokenIds) counts ctx) = [] →
            ReadsChoice s.env s.sharedParser (remainingText s.env s.sharedParser text))) ↔
        HasMessage (capturedChoice (takenChunks chunks)) ∧
          ReadsChoice s.env s.sharedParser
            (remainingText s.env s.sharedParser (cleanText s.tok (streamedIds chunks)))) := by
    intro text counts htext
    obtain ⟨c, hchoices, hcalls, _, _, _, hfields⟩ := streamTokenResponse_choice run text counts
    have message : HasMessage c.extras ↔ HasMessage (capturedChoice (takenChunks chunks)) := by
      apply hasMessage_congr
      rw [hfields, if_neg (fun h => absurd h.1 (by decide)), Option.none_or]
    have calls : upstreamToolCalls (streamTokenResponse text (some s.tokenIds) counts ctx) =
        [] := by
      rw [upstreamToolCalls, hchoices, List.head?_cons, Option.bind_some, hcalls]
      rfl
    rw [calls, UpstreamMessage, hchoices, ← htext]
    simp [message]
  exact bind_pure_ok_iff.trans
    ((build_returns_iff _).trans (gathered _ _ (run.cleanText s.tok)))

theorem streamed_returns_iff (s : Setting π) (chunks : List InferResponse) :
    (∃ record, s.streamed chunks = .ok record) ↔ s.TakesStream chunks := by
  refine ⟨?_, ?_⟩
  · intro ⟨record, h⟩
    obtain ⟨⟨sent, ctx⟩, hrun, hfinal⟩ := bind_eq_ok h
    have run := processChunks_run hrun rfl
    obtain ⟨deltas, wire⟩ := processChunks_wire hrun rfl
    obtain ⟨message, reads⟩ := (finalizeStream_returns_iff run).mp ⟨record, hfinal⟩
    refine ⟨?_, ⟨_, wire.parses⟩, ?_, message, reads⟩
    · intro chunk hchunk
      exact (parseStreamChunk_ok_iff chunk).mp (run.parsed chunk hchunk)
    · exact (streamLogprobs_ok_iff _).mp ⟨_, run.logprobs⟩
  · intro takes
    obtain ⟨deltas, hdeltas⟩ := takes.parser
    obtain ⟨acc, hacc⟩ := (streamLogprobs_ok_iff _).mpr takes.logprobs
    have parsed : ∀ chunk ∈ takenChunks chunks,
        ∃ parsed, parseStreamChunk chunk = .ok parsed := by
      intro chunk hchunk
      exact (parseStreamChunk_ok_iff chunk).mpr (takes.texts chunk hchunk)
    obtain ⟨⟨sent, ctx⟩, hrun⟩ : ∃ result, processChunks s.tok s.streamParser s.tokenIds
        (.initial s.streamParser) chunks = .ok result :=
      processChunks_ok rfl parsed hdeltas hacc
    obtain ⟨record, hfinal⟩ :=
      (finalizeStream_returns_iff (processChunks_run hrun rfl)).mpr ⟨takes.message, takes.reads⟩
    refine ⟨record, ?_⟩
    unfold Setting.streamed processStream
    rw [hrun]
    exact hfinal

end Stream

/-- When a completion and when a stream is processed without an exception. -/
theorem tolerates_iff (s : Setting π) (completion : InferResponse) (chunks : List InferResponse) :
    ((∃ record, s.unsplit completion = .ok record) ↔ s.TakesCompletion completion) ∧
      ((∃ record, s.streamed chunks = .ok record) ↔ s.TakesStream chunks) :=
  ⟨unsplit_ok_iff s completion, streamed_returns_iff s chunks⟩

/-- A `null` usage of a completion raises. -/
theorem nullUsage_raises :
    ¬∀ (completion : InferResponse) (chunks : List InferResponse),
      (∃ record, plainSetting.unsplit completion = .ok record) ∧
        ∃ record, plainSetting.streamed chunks = .ok record := by
  intro h
  obtain ⟨⟨record, hrecord⟩, _⟩ :=
    h ⟨(oneChoice (.value "b") (.value [98]) (.value "stop")).choices, .null, []⟩ []
  have raised : plainSetting.unsplit
      ⟨(oneChoice (.value "b") (.value [98]) (.value "stop")).choices, .null, []⟩ =
        .error "AttributeError" := rfl
  rw [raised] at hrecord
  nomatch hrecord

end TrajProxy.Pipeline
