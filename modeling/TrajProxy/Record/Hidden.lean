import TrajProxy.Record.Client

/-! The requests that leak no internal field. Both streams and the direct
pipeline send none; `OpenAIResponseBuilder` copies `logprobs` and `token_ids` of
the upstream choice into the response of a request that is not streamed. The
record of a direct stream has the first choice of every chunk only. -/

namespace TrajProxy.Record

variable {π : Type} {env : Surroundings}

section Renderings

theorem choicesOf_chunk (chunk : Direct.ChatChunk) :
    choicesOf chunk.toItems = chunk.choices.map Direct.ChatChoice.toItems := by
  have there : Json.getD chunk.toItems "choices" =
      .arr (chunk.choices.map fun choice => .obj choice.toItems) := by
    simp [Direct.ChatChunk.toItems, Json.getD_setField, Json.getD_set]
  rw [choicesOf, there, elements, List.map_map]
  rfl

theorem getD_chunk_promptTokenIds (chunk : Direct.ChatChunk) :
    Json.getD chunk.toItems "prompt_token_ids" =
      Json.ofOption Direct.tokenIdsJson chunk.promptTokenIds.get := by
  simp [Direct.ChatChunk.toItems, Json.getD_setField]

theorem getD_choice_tokenIds (choice : Direct.ChatChoice) :
    Json.getD choice.toItems "token_ids" =
      Json.ofOption Direct.tokenIdsJson choice.tokenIds.get := by
  simp [Direct.ChatChoice.toItems, Json.getD_setField]

theorem getD_choice_logprobs (choice : Direct.ChatChoice) :
    Json.getD choice.toItems "logprobs" =
      Json.ofOption (fun logprobs => .obj logprobs.toItems) choice.logprobs.get := by
  simp [Direct.ChatChoice.toItems, Json.getD_setField]

theorem getD_choice_routedExperts (choice : Direct.ChatChoice) :
    Json.getD choice.toItems "routed_experts" = Json.getD choice.extras "routed_experts" := by
  simp [Direct.ChatChoice.toItems, Json.getD_setField, Json.getD_set]

theorem getD_map {α : Type} (f : α → Items Json) (choices : List α) (i : Nat) :
    (choices.map f).getD i [] = (choices[i]?.map f).getD [] := by
  rw [List.getD_eq_getElem?_getD, List.getElem?_map]

theorem choiceAt_chunk (chunk : Direct.ChatChunk) (i : Nat) :
    choiceAt chunk.toItems i = (chunk.choices[i]?.map Direct.ChatChoice.toItems).getD [] := by
  rw [choiceAt, choicesOf_chunk, getD_map]

theorem choicesOf_response (response : ChatResponse) :
    choicesOf response.toItems = (response.choices.get.getD []).map ResponseChoice.toItems := by
  have there : Json.getD response.toItems "choices" =
      Json.ofOption (fun choices => .arr (choices.map (.obj ·.toItems))) response.choices.get := by
    simp [ChatResponse.toItems, Json.getD_setField]
  rw [choicesOf, there]
  cases response.choices.get with
  | none => rfl
  | some choices =>
    rw [Json.ofOption, elements, List.map_map]
    rfl

theorem getD_response_promptTokenIds (response : ChatResponse) :
    Json.getD response.toItems "prompt_token_ids" =
      Json.ofOption Direct.tokenIdsJson response.promptTokenIds.get := by
  simp [ChatResponse.toItems, Json.getD_setField]

end Renderings

section Sent

theorem stripChunk_clean (chunk : Direct.ChatChunk) :
    Clean (Direct.stripChunk chunk).toItems := by
  refine ⟨?_, getD_chunk_promptTokenIds _⟩
  intro d mem key hidden
  rw [choicesOf_chunk] at mem
  obtain ⟨stripped, there, rfl⟩ := List.mem_map.mp mem
  obtain ⟨choice, -, rfl⟩ := List.mem_map.mp there
  simp only [hiddenKeys, List.mem_cons, List.not_mem_nil, or_false] at hidden
  obtain rfl | rfl | rfl := hidden
  · exact getD_choice_logprobs _
  · exact getD_choice_tokenIds _
  · rw [getD_choice_routedExperts, Direct.stripChoice, Json.getD_erase, if_pos rfl]

theorem stripChunk_forwarded (chunk : Direct.ChatChunk) :
    Forwarded chunk.toItems (Direct.stripChunk chunk).toItems := by
  refine ⟨?_, ?_, ?_⟩
  · intro key other
    simp only [List.mem_cons, List.not_mem_nil, or_false, not_or] at other
    simp [Direct.ChatChunk.toItems, Direct.stripChunk, Items.get?_setField, Items.get?_set, other]
  · rw [choicesOf_chunk, choicesOf_chunk, List.length_map, List.length_map]
    exact List.length_map _
  · intro i key other
    simp only [hiddenKeys, List.mem_cons, List.not_mem_nil, or_false, not_or] at other
    rw [choiceAt_chunk, choiceAt_chunk, Direct.stripChunk, List.getElem?_map]
    cases chunk.choices[i]? with
    | none => rfl
    | some choice =>
      simp [Direct.ChatChoice.toItems, Direct.stripChoice, Items.get?_setField, Items.get?_set,
        Items.get?_erase, other]

theorem getD_stripped (choice : ResponseChoice) {key : String} (hidden : key ∈ hiddenKeys) :
    Json.getD choice.strip.ensureDefaults.toItems key = .null := by
  simp only [hiddenKeys, List.mem_cons, List.not_mem_nil, or_false] at hidden
  obtain rfl | rfl | rfl := hidden <;>
    simp [ResponseChoice.toItems, ResponseChoice.ensureDefaults, ResponseChoice.strip,
      Json.getD_setField, Json.getD_erase, Field.get, Json.ofOption]

/-- The defaults filled in after the stripping bring no value back. -/
theorem prepared_clean (response : ChatResponse) :
    Clean response.strip.ensureDefaults.toItems := by
  refine ⟨?_, ?_⟩
  · intro d mem key hidden
    rw [choicesOf_response] at mem
    obtain ⟨choice, there, rfl⟩ := List.mem_map.mp mem
    have origin : ∃ upstream : ResponseChoice, upstream.strip.ensureDefaults = choice := by
      cases hchoices : response.choices with
      | missing =>
        simp [ChatResponse.ensureDefaults, ChatResponse.strip, hchoices, Field.map,
          Field.get] at there
      | null =>
        simp [ChatResponse.ensureDefaults, ChatResponse.strip, hchoices, Field.map,
          Field.get] at there
      | value choices =>
        simp only [ChatResponse.ensureDefaults, ChatResponse.strip, hchoices, Field.map, Field.get,
          Option.getD_some, List.map_map] at there
        obtain ⟨upstream, -, rfl⟩ := List.mem_map.mp there
        exact ⟨upstream, rfl⟩
    obtain ⟨upstream, rfl⟩ := origin
    exact getD_stripped upstream hidden
  · rw [getD_response_promptTokenIds]
    cases hchoices : response.choices <;>
      simp [ChatResponse.ensureDefaults, ChatResponse.strip, hchoices, Field.map, Field.get,
        Json.ofOption]

theorem openAIChunk_clean (chunk : Pipeline.OpenAIChunk) : Clean chunk.toItems := by
  refine ⟨?_, rfl⟩
  intro d mem key hidden
  have only : choicesOf chunk.toItems = [chunk.choiceItems] := rfl
  rw [only, List.mem_singleton] at mem
  rw [mem]
  simp only [hiddenKeys, List.mem_cons, List.not_mem_nil, or_false] at hidden
  cases finish : chunk.finishReason with
  | none =>
    obtain rfl | rfl | rfl := hidden <;>
      simp [Pipeline.OpenAIChunk.choiceItems, finish, Json.getD, Items.get?]
  | some reason =>
    obtain rfl | rfl | rfl := hidden <;>
      simp [Pipeline.OpenAIChunk.choiceItems, finish, Json.getD, Items.get?]

theorem usageChunk_clean (counts : Pipeline.TokenCounts) : Clean (Pipeline.usageChunk counts) :=
  ⟨fun _ mem => absurd mem List.not_mem_nil, rfl⟩

theorem rawResponse_clean_iff (raw : Pipeline.RawResponse) :
    Clean raw.toItems ↔ raw.logprobs = none ∧ raw.tokenIds = none := by
  have only : choicesOf raw.toItems = [raw.choiceItems] := rfl
  have logprobs : Json.getD raw.choiceItems "logprobs" = Json.ofOption .obj raw.logprobs := rfl
  have tokenIds : Json.getD raw.choiceItems "token_ids" =
      Json.ofOption Pipeline.tokenIdsJson raw.tokenIds := rfl
  have routed : Json.getD raw.choiceItems "routed_experts" = .null := rfl
  refine ⟨?_, ?_⟩
  · intro clean
    have all := clean.choices raw.choiceItems (only ▸ List.mem_singleton_self _)
    have noLogprobs := all "logprobs" (by decide)
    have noTokenIds := all "token_ids" (by decide)
    rw [logprobs] at noLogprobs
    rw [tokenIds] at noTokenIds
    refine ⟨?_, ?_⟩
    · cases h : raw.logprobs with
      | none => rfl
      | some d =>
        rw [h] at noLogprobs
        cases noLogprobs
    · cases h : raw.tokenIds with
      | none => rfl
      | some ids =>
        rw [h] at noTokenIds
        cases noTokenIds
  · intro ⟨noLogprobs, noTokenIds⟩
    refine ⟨?_, rfl⟩
    intro d mem key hidden
    rw [only, List.mem_singleton] at mem
    subst mem
    simp only [hiddenKeys, List.mem_cons, List.not_mem_nil, or_false] at hidden
    obtain rfl | rfl | rfl := hidden
    · rw [logprobs, noLogprobs, Json.ofOption]
    · rw [tokenIds, noTokenIds, Json.ofOption]
    · exact routed

end Sent

section Token

/-- What `build` copies of the first upstream choice. -/
theorem build_choice {buildEnv : Pipeline.BuildEnv} {parser : Pipeline.MessageParser}
    {content : String} {response : Pipeline.InferResponse} {counts : Pipeline.TokenCounts}
    {raw : Pipeline.RawResponse}
    (h : Pipeline.build buildEnv parser content response counts = .ok raw) :
    raw.logprobs = response.choices.head?.bind (·.logprobs.get) ∧
      raw.tokenIds = response.choices.head?.bind (·.tokenIds.get) := by
  obtain ⟨refusal, -, h⟩ := bind_eq_ok h
  obtain ⟨audio, -, h⟩ := bind_eq_ok h
  obtain ⟨functionCall, -, h⟩ := bind_eq_ok h
  obtain ⟨message, -, h⟩ := bind_eq_ok h
  obtain rfl := Except.ok.inj h
  exact ⟨rfl, rfl⟩

/-- The response in the context has these fields of the upstream choice. -/
structure Copies (calls : TokenCalls) (c : ProcessContext) : Prop where
  response : ∃ response raw, calls.complete = .ok response ∧
    c.rawResponse = some (Pipeline.RawResponse.toItems raw) ∧
    raw.logprobs = response.choices.head?.bind (·.logprobs.get) ∧
    raw.tokenIds = response.choices.head?.bind (·.tokenIds.get)

theorem copies_settling (calls : TokenCalls) : Settling (Copies calls) :=
  ⟨fun _ _ => ⟨fun h => ⟨h.response⟩, fun h => ⟨h.response⟩⟩,
    fun _ _ _ => ⟨fun h => ⟨h.response⟩, fun h => ⟨h.response⟩⟩⟩

theorem buildResponse_copies {calls : TokenCalls} {response : Pipeline.InferResponse}
    (answered : calls.complete = .ok response) (parser : Pipeline.MessageParser)
    (c : ProcessContext) :
    (calls.buildResponse response parser).Ends c (fun _ c' => Copies calls c') fun _ _ => True := by
  unfold TokenCalls.buildResponse
  refine (Py.ends_bind _ _).mpr ((Py.ends_read (s := c)).mpr ?_)
  refine Py.ends_bind_any fun _ _ => ?_
  rw [Py.ends_bind, call, Py.ends_ofExcept]
  cases built : Pipeline.build calls.build parser (calls.cleanText c) response c.counts with
  | error message => trivial
  | ok raw =>
    have copied := build_choice built
    dsimp only [Except.mapError]
    rw [Py.ends_bind, Py.ends_modify]
    split
    · rw [Py.ends_modify]
      exact ⟨response, raw, answered, rfl, copied⟩
    · trivial

theorem stages_copies (calls : TokenCalls) (c : ProcessContext) :
    calls.stages.Ends c (fun _ c' => Copies calls c') fun _ _ => True := by
  unfold TokenCalls.stages TokenCalls.answer TokenCalls.inference
  refine Py.ends_bind_any fun _ _ => Py.ends_bind_any fun _ _ => ?_
  rw [Py.ends_bind, Py.ends_bind, Py.ends_ofExcept]
  cases answered : calls.complete with
  | error e => trivial
  | ok response =>
    dsimp only
    rw [Py.ends_bind, Py.ends_modify, Py.ends_pure]
    refine Py.ends_bind_any fun _ _ => Py.ends_bind_any fun _ _ => Py.ends_bind_any fun _ _ => ?_
    exact buildResponse_copies answered _ _

theorem token_clean_iff (calls : TokenCalls) (request : Request) :
    (∀ d ∈ (Run.token calls : Run π).sent env request, Clean d) ↔
      HiddenWhen env request (Run.token calls : Run π) := by
  have copies : (calls.process env).Ends (.initial request ())
      (fun _ w => Copies calls w.context) fun _ _ => True :=
    runStages_returned (Q := fun _ => Copies calls) (fun _ => copies_settling calls)
      (stages_copies calls _) fun _ _ h => h
  let end_ := (calls.process env).run (.initial request ())
  change (∀ d ∈ returned end_, Clean d) ↔ (end_.1 = .ok () → _)
  unfold end_
  cases hrun : (calls.process env).run (.initial request ()) with
  | mk result w =>
    cases result with
    | error e => simp [returned]
    | ok _ =>
      obtain ⟨response, raw, answered, there, logprobs, tokenIds⟩ :=
        ((Py.ends_of_ok hrun).mp copies).response
      simp only [returned, there, Option.toList_some, List.mem_singleton, forall_eq, true_implies]
      rw [rawResponse_clean_iff, logprobs, tokenIds, answered]
      simp only [Except.ok.injEq, forall_eq']
      cases response.choices.head? <;> simp

theorem keeps_clean_takeChunk (calls : TokenStreamCalls π) (round : TokenRound) :
    Py.Keeps (fun w => ∀ d ∈ w.sent, Clean d) (calls.takeChunk round) := by
  refine (Py.keeps_ofExcept _).bind fun chunk => Py.keeps_read.bind fun w => ?_
  refine (Py.keeps_ofExcept _).bind fun (sent, stream) => ?_
  refine Py.Keeps.bind (fun _ clean => clean) fun _ => ?_
  cases sent with
  | none => exact Py.keeps_pure ()
  | some chunk =>
    refine Py.Keeps.bind (Py.keeps_modify ?_) fun _ => Py.keeps_callAll _
    intro w clean d mem
    rcases List.mem_append.mp mem with old | new
    · exact clean d old
    · rw [List.mem_singleton.mp new]
      exact openAIChunk_clean chunk

theorem keeps_sent_storeTrajectory {P : List (Items Json) → Prop} {σ : Type} :
    Py.Keeps (fun w : World σ => P w.sent) (storeTrajectory env) := by
  intro w h
  rw [storeTrajectory_run]
  cases env.insert w.handed.length <;> exact h

theorem keeps_sent_finalizeStream {P : List (Items Json) → Prop} (calls : TokenStreamCalls π) :
    Py.Keeps (fun w => P w.sent) (calls.finalizeStream env) := by
  refine Py.keeps_read.bind fun w => (Py.keeps_callAll _).bind fun _ => ?_
  cases w.context.promptText with
  | none => exact Py.keeps_raise _
  | some promptText =>
    refine (Py.keeps_ofExcept _).bind fun t => ?_
    exact Py.Keeps.bind (fun _ h => h) fun _ => keeps_sent_storeTrajectory

theorem keeps_clean_sendUsage (calls : TokenStreamCalls π) :
    Py.Keeps (fun w => ∀ d ∈ w.sent, Clean d) calls.sendUsage := by
  refine Py.keeps_read.bind fun w => ?_
  split_ifs
  · refine Py.Keeps.bind (Py.keeps_modify ?_) fun _ => Py.keeps_callAll _
    intro w' clean d mem
    rcases List.mem_append.mp mem with old | new
    · exact clean d old
    · rw [List.mem_singleton.mp new]
      exact usageChunk_clean _
  · exact Py.keeps_pure ()

theorem tokenStream_clean (calls : TokenStreamCalls π) (request : Request) :
    ∀ d ∈ (Run.tokenStream calls).sent env request, Clean d := by
  let I (w : World (Pipeline.StreamContext π)) : Prop := ∀ d ∈ w.sent, Clean d
  have stage : ∀ stage : Py ProcessContext Unit, Py.Keeps I (onContext stage) :=
    fun _ _ clean => clean
  have finalize : Py.Keeps I (calls.finalizeStream env) :=
    keeps_sent_finalizeStream (P := fun sent => ∀ d ∈ sent, Clean d) calls
  have receive : Py.Keeps I calls.receive :=
    keeps_receive (stage _) (stage _) (keeps_clean_takeChunk calls)
  have start : I (.initial request (.initial calls.requestParser)) :=
    fun _ mem => absurd mem List.not_mem_nil
  exact keeps_processStream receive finalize (keeps_clean_sendUsage calls) (fun _ => stage _) _
    start

end Token

section Direct

theorem direct_clean (inference : Except Raised ChatResponse) (request : Request) :
    ∀ d ∈ (Run.direct inference : Run π).sent env request, Clean d := by
  let P (c : ProcessContext) : Prop := ∀ d ∈ c.rawResponse.toList, Clean d
  have prepared : ∀ response c, True →
      (prepareResponse response).Ends c (fun _ c' => P c') fun _ _ => True := by
    intro response c _
    unfold prepareResponse
    cases response.choices with
    | null => trivial
    | missing => exact fun d mem => List.mem_singleton.mp mem ▸ prepared_clean response
    | value choices => exact fun d mem => List.mem_singleton.mp mem ▸ prepared_clean response
  have anything : (readResponse inference).Ends (createContext request) (fun _ _ => True)
      fun _ _ => True := by
    unfold Py.Ends
    split <;> trivial
  have returns : (directProcess env inference).Ends (.initial request ())
      (fun _ w => P w.context) fun _ _ => True :=
    runStages_returned (fun _ => ⟨fun _ _ => Iff.rfl, fun _ _ _ => Iff.rfl⟩) anything prepared
  let end_ := (directProcess env inference).run (.initial request ())
  change ∀ d ∈ returned end_, Clean d
  unfold end_
  cases hrun : (directProcess env inference).run (.initial request ()) with
  | mk result w =>
    cases result with
    | error e => exact fun _ mem => absurd mem List.not_mem_nil
    | ok _ => exact (Py.ends_of_ok hrun).mp returns

/-- Two responses with the same internal fields. -/
structure SameHidden (d d' : Items Json) : Prop where
  choices : ∀ i, ∀ key ∈ hiddenKeys,
    Json.getD (choiceAt d i) key = Json.getD (choiceAt d' i) key
  top : Json.getD d "prompt_token_ids" = Json.getD d' "prompt_token_ids"

/-- A record with the internal fields of the one upstream response. -/
theorem kept_of_sameHidden {d raw : Items Json} {c : ProcessContext}
    (stored : c.rawResponse = some raw) (same : SameHidden d raw)
    (column : ∀ ids, c.tokenIds = some ids →
      Direct.tokenIdsJson ids = Json.getD d "prompt_token_ids") : Kept [d] c := by
  have raw_eq : c.rawResponse.getD [] = raw := by rw [stored, Option.getD_some]
  have tokenIds := fun i => same.choices i "token_ids" (by decide)
  have logprobs : ∀ i, logprobsAt d i = logprobsAt raw i := by
    intro i
    rw [logprobsAt, logprobsAt, same.choices i "logprobs" (by decide)]
  refine ⟨?_, ?_, ?_, ?_, ?_⟩
  · intro i
    rw [raw_eq, List.flatMap_singleton, tokenIds i]
  · intro i
    rw [raw_eq, List.flatMap_singleton, logprobs i]
  · intro i d' mem key _ value there
    rw [List.mem_singleton.mp mem, logprobs i] at there
    rw [raw_eq, there]
  · intro i d' mem _
    rw [List.mem_singleton.mp mem, raw_eq, same.choices i "routed_experts" (by decide)]
  · intro d' mem _
    rw [List.mem_singleton.mp mem, storedPromptTokenIds, raw_eq]
    cases h : c.tokenIds with
    | none => exact same.top.symm
    | some ids => exact column ids h

end Direct

end TrajProxy.Record
