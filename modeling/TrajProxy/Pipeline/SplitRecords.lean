import TrajProxy.Pipeline.Split

/-! What the unsplit request and the stream store, field by field, and where the
two differ. -/

namespace TrajProxy.Pipeline

variable {π : Type}

section Logprobs

theorem extendLogprob_listAt {chunkLp acc acc' : Items Json} {key : String}
    (h : extendLogprob chunkLp acc key = .ok acc') (k : String) :
    listAt acc' k = listAt acc k ++ if k = key then listAt chunkLp k else [] := by
  unfold extendLogprob at h
  split at h
  · next items hchunk =>
    have hlist : listAt chunkLp key = items := by rw [listAt, hchunk]
    split at h
    · next hacc =>
      obtain rfl := Except.ok.inj h
      unfold listAt
      rw [Items.get?_set]
      split_ifs with hk
      · rw [hk, hacc, hchunk]
        rfl
      · simp
    · next old hacc =>
      obtain rfl := Except.ok.inj h
      unfold listAt
      rw [Items.get?_set]
      split_ifs with hk
      · rw [hk, hacc, hchunk]
      · simp
    · cases h
  · next hother =>
    obtain rfl := Except.ok.inj h
    have hlist : listAt chunkLp key = [] := by
      unfold listAt
      split
      · next items hchunk => exact absurd hchunk (hother items)
      · rfl
    split_ifs with hk
    · rw [hk, hlist, List.append_nil]
    · rw [List.append_nil]

theorem foldlM_extendLogprob_listAt {chunkLp acc acc' : Items Json} {keys : List String}
    (nodup : keys.Nodup) (h : keys.foldlM (extendLogprob chunkLp) acc = .ok acc') (k : String) :
    listAt acc' k = listAt acc k ++ if k ∈ keys then listAt chunkLp k else [] := by
  induction keys generalizing acc with
  | nil =>
    obtain rfl := Except.ok.inj h
    simp
  | cons key keys ih =>
    rw [List.foldlM_cons] at h
    obtain ⟨mid, hmid, hrest⟩ := bind_eq_ok h
    obtain ⟨hnotMem, hkeys⟩ := List.nodup_cons.mp nodup
    rw [ih hkeys hrest, extendLogprob_listAt hmid, List.append_assoc]
    by_cases hk : k = key
    · subst hk
      simp [hnotMem]
    · simp [hk]

theorem logprobKeys_nodup : logprobKeys.Nodup := by decide

/-- A key of `logprobs` after chunks that come after the first: one of the four
keys collects every list, another keeps the first. -/
theorem foldlM_accumulateLogprobs_some {chunks : List InferResponse} {first : Items Json}
    {acc : Option (Items Json)}
    (h : chunks.foldlM accumulateLogprobs (some first) = .ok acc) (key : String) :
    listAt (acc.getD []) key = listAt first key ++
      if key ∈ logprobKeys then (chunks.filterMap chunkLogprobs).flatMap (listAt · key) else [] := by
  induction chunks generalizing first with
  | nil =>
    obtain rfl := Except.ok.inj h
    simp
  | cons chunk chunks ih =>
    rw [List.foldlM_cons] at h
    obtain ⟨mid, hmid, hrest⟩ := bind_eq_ok h
    unfold accumulateLogprobs at hmid
    cases hlp : chunkLogprobs chunk with
    | none =>
      simp only [hlp] at hmid
      obtain rfl := Except.ok.inj hmid
      rw [ih hrest, List.filterMap_cons_none hlp]
    | some chunkLp =>
      simp only [hlp] at hmid
      cases hextended : logprobKeys.foldlM (extendLogprob chunkLp) first with
      | error e =>
        rw [hextended] at hmid
        nomatch hmid
      | ok extended =>
        rw [hextended] at hmid
        obtain rfl := Except.ok.inj hmid
        rw [ih hrest, List.filterMap_cons_some hlp, List.flatMap_cons,
          foldlM_extendLogprob_listAt logprobKeys_nodup hextended, List.append_assoc]
        split_ifs <;> simp

theorem foldlM_accumulateLogprobs {chunks : List InferResponse} {acc : Option (Items Json)}
    (h : chunks.foldlM accumulateLogprobs none = .ok acc) (key : String) :
    listAt (acc.getD []) key =
      if key ∈ logprobKeys then (chunks.filterMap chunkLogprobs).flatMap (listAt · key)
      else (chunks.filterMap chunkLogprobs).head?.elim [] (listAt · key) := by
  induction chunks with
  | nil =>
    obtain rfl := Except.ok.inj h
    simp [listAt]
  | cons chunk chunks ih =>
    rw [List.foldlM_cons] at h
    obtain ⟨mid, hmid, hrest⟩ := bind_eq_ok h
    unfold accumulateLogprobs at hmid
    cases hlp : chunkLogprobs chunk with
    | none =>
      simp only [hlp] at hmid
      obtain rfl := Except.ok.inj hmid
      rw [ih hrest, List.filterMap_cons_none hlp]
    | some chunkLp =>
      simp only [hlp] at hmid
      obtain rfl := Except.ok.inj hmid
      rw [foldlM_accumulateLogprobs_some hrest, List.filterMap_cons_some hlp]
      split_ifs <;> simp

end Logprobs

section Records

variable {s : Setting π} {completion : InferResponse} {choice : InferChoice} {ids : List Int}
  {tokenChunks : List InferResponse} {usageChunk : Option InferResponse} {record : Trajectory}

/-- What `process` stores of the completion. -/
structure Unsplit (s : Setting π) (completion : InferResponse) (choice : InferChoice)
    (ids : List Int) (record : Trajectory) : Prop where
  tokenIds : record.tokenIds = some s.tokenIds
  responseIds : record.responseIds = some ids
  text : record.fullConversationText = s.promptText ++ s.tok.decode ids
  conversation : record.fullConversationTokenIds =
    if s.tokenIds = [] then some [] else some (s.tokenIds ++ ids)
  tokenResponse : record.tokenResponse = completion
  message : buildMessage s.env s.requestParser (s.tok.decodeClean ids)
    (choice.toolCalls.get.getD []) (getFinishReason completion) = .ok record.rawResponse.message
  usage : ∀ usage, completion.usage = .value usage → record.rawResponse.usage = {
    promptTokens := orZero (.int s.tokenIds.length)
    completionTokens := orZero ((usage.get? "completion_tokens").getD (.int 0))
    totalTokens := orZero ((usage.get? "total_tokens").getD (.int 0))
    promptTokensDetails := Json.getD usage "prompt_tokens_details"
    completionTokensDetails := Json.getD usage "completion_tokens_details" }

theorem decodeResponse_ids (tok : Tokenizer) (single : completion.choices = [choice])
    (tokenIds : choice.tokenIds = .value ids) (nonempty : ids ≠ []) :
    decodeResponse tok completion = .ok (tok.decode ids, some ids) := by
  have hparsed : (parseTextResponse completion).2 = some ids := by
    simp [parseTextResponse, single, tokenIds, Field.get]
  unfold decodeResponse
  dsimp only
  rw [hparsed, nonemptyIds_some, if_neg nonempty]

theorem unsplit_record (single : completion.choices = [choice])
    (tokenIds : choice.tokenIds = .value ids) (nonempty : ids ≠ [])
    (h : s.unsplit completion = .ok record) : Unsplit s completion choice ids record := by
  have hids : nonemptyIds (some ids) = some ids := by
    rw [nonemptyIds_some, if_neg nonempty]
  unfold Setting.unsplit process at h
  rw [decodeResponse_ids s.tok single tokenIds nonempty] at h
  obtain ⟨⟨decoded, responseIds⟩, heq, h⟩ := bind_eq_ok h
  obtain ⟨rfl, rfl⟩ := Prod.mk.inj (Except.ok.inj heq)
  obtain ⟨counts, hcounts, h⟩ := bind_eq_ok h
  obtain ⟨raw, hraw, h⟩ := bind_eq_ok h
  obtain rfl := Except.ok.inj h
  rw [hids] at hraw
  obtain ⟨hmessage, husage⟩ := build_ok hraw
  refine ⟨rfl, rfl, by rw [hids], ?_, rfl, ?_, ?_⟩
  · rw [hids]
    cases s.tokenIds <;> rfl
  · rw [single] at hmessage
    exact hmessage
  · intro usage hvalue
    rw [updateStats, hvalue] at hcounts
    obtain rfl := Except.ok.inj hcounts
    rw [husage, hvalue]
    rfl

/-- The choice that a stream makes up. -/
theorem streamTokenResponse_choice {ctx : StreamContext π}
    (run : StreamRun (.initial s.streamParser) tokenChunks ctx) (text : String)
    (counts : TokenCounts) :
    ∃ c, (streamTokenResponse text (some s.tokenIds) counts ctx).choices = [c] ∧
      c.toolCalls = .missing ∧ c.finishReason = .value "stop" ∧
      c.tokenIds = .value ctx.streamBufferIds ∧
      choiceLogprobs c = ctx.streamLogprobs.getD [] ∧
      ∀ key, c.extras.get? key =
        (if key = "prompt_token_ids" ∧ s.tokenIds ≠ [] then
          some (.arr (s.tokenIds.map Json.int)) else none).or
        ((capturedChoice tokenChunks).get? key) := by
  refine ⟨_, rfl, rfl, rfl, rfl, ?_, ?_⟩
  · cases ctx.streamLogprobs with
    | none => rfl
    | some logprobs => cases logprobs <;> rfl
  · intro key
    dsimp only
    rw [Items.get?_foldl_setdefault, run.extras, nonemptyIds_some]
    by_cases hprompt : s.tokenIds = []
    · simp [hprompt, capturedChoice, StreamContext.initial]
    · by_cases hkey : key = "prompt_token_ids"
      · subst hkey
        simp [hprompt]
      · rw [if_neg hprompt]
        simp [hprompt, hkey, Items.get?, Ne.symm hkey, capturedChoice, StreamContext.initial]

/-- What a stream stores of the chunks it took. -/
structure Streamed (s : Setting π) (ids : List Int) (tokenChunks : List InferResponse)
    (record : Trajectory) : Prop where
  tokenIds : record.tokenIds = some s.tokenIds
  responseIds : record.responseIds = some ids
  text : record.fullConversationText = s.promptText ++ s.tok.decode ids
  conversation : record.fullConversationTokenIds =
    if s.tokenIds = [] then none else some (s.tokenIds ++ ids)
  choice : ∃ c, record.tokenResponse.choices = [c] ∧ c.tokenIds = .value ids ∧
    c.finishReason = .value "stop" ∧
    (∀ key, listAt (choiceLogprobs c) key =
      if key ∈ logprobKeys then (tokenChunks.filterMap chunkLogprobs).flatMap (listAt · key)
      else (tokenChunks.filterMap chunkLogprobs).head?.elim [] (listAt · key)) ∧
    ∀ key, c.extras.get? key =
      (if key = "prompt_token_ids" ∧ s.tokenIds ≠ [] then
        some (.arr (s.tokenIds.map Json.int)) else none).or
      ((capturedChoice tokenChunks).get? key)
  tokenUsage : record.tokenResponse.usage = .value (streamUsage s.tokenIds ids tokenChunks)
  topFields : ∀ key, record.tokenResponse.extras.get? key = (capturedTop tokenChunks).get? key
  message : buildMessage s.env s.sharedParser (s.tok.decodeClean ids) [] (some "stop") =
    .ok record.rawResponse.message
  usage : record.rawResponse.usage = {
    promptTokens := orZero (.int s.tokenIds.length)
    completionTokens := orZero (.int ids.length)
    totalTokens := orZero (.int (s.tokenIds.length + ids.length : Nat))
    promptTokensDetails :=
      Json.getD (streamUsage s.tokenIds ids tokenChunks) "prompt_tokens_details"
    completionTokensDetails :=
      Json.getD (streamUsage s.tokenIds ids tokenChunks) "completion_tokens_details" }

theorem streamed_record {chunks : List InferResponse} (taken : takenChunks chunks = tokenChunks)
    (hchunks : tokenChunks.flatMap chunkIds = ids) (nonempty : ids ≠ [])
    (h : s.streamed chunks = .ok record) : Streamed s ids tokenChunks record := by
  have hids : nonemptyIds (some ids) = some ids := by
    rw [nonemptyIds_some, if_neg nonempty]
  obtain ⟨⟨sent, ctx⟩, hrun, hfinal⟩ := bind_eq_ok h
  have run := processChunks_run hrun rfl
  rw [taken] at run
  have hbuffer : ctx.streamBufferIds = ids := run.ids.trans hchunks
  unfold finalizeStream at hfinal
  dsimp only at hfinal
  rw [hbuffer, hids] at hfinal
  obtain ⟨raw, hraw, hrecord⟩ := bind_eq_ok hfinal
  obtain rfl := Except.ok.inj hrecord
  obtain ⟨hmessage, husage⟩ := build_ok hraw
  have husage' : ctx.usage = (tokenChunks.filterMap chunkUsage).getLast? := by
    rw [run.usage]
    exact Option.or_none
  have htokenUsage : ctx.usage.getD [("prompt_tokens", .int s.tokenIds.length),
      ("completion_tokens", .int ids.length),
      ("total_tokens", .int (s.tokenIds.length + ids.length : Nat))] =
        streamUsage s.tokenIds ids tokenChunks := by
    rw [husage', streamUsage]
  obtain ⟨c, hchoices, _, hfinish, hcIds, hcLogprobs, hcFields⟩ := streamTokenResponse_choice run
    (s.tok.decodeClean ids)
    ⟨.int s.tokenIds.length, .int ids.length, .int (s.tokenIds.length + ids.length : Nat)⟩
  refine ⟨rfl, rfl, rfl, ?_, ⟨c, hchoices, hcIds.trans (congrArg Field.value hbuffer), hfinish,
    ?_, hcFields⟩, congrArg Field.value htokenUsage, ?_, hmessage, ?_⟩
  · cases s.tokenIds <;> rfl
  · intro key
    rw [hcLogprobs]
    exact foldlM_accumulateLogprobs run.logprobs key
  · intro key
    dsimp only [streamTokenResponse]
    rw [Items.get?_foldl_setdefault, run.metadata]
    rfl
  · rw [husage]
    dsimp only [streamTokenResponse, Field.get]
    rw [Option.getD_some, ← htokenUsage]
    rfl

theorem orZero_eq_int {value : Json} {n : Nat} (pos : 0 < n) :
    orZero value = .int n ↔ value = .int n := by
  unfold orZero
  refine ⟨?_, ?_⟩
  · intro h
    split_ifs at h with htruthy
    · exact h
    · rw [Json.int.injEq] at h
      omega
  · intro h
    have htruthy : value.truthy = true := by
      rw [h]
      simp [Json.truthy]
      omega
    rw [if_pos htruthy]
    exact h

theorem getD_int_eq {value : Option Json} {n : Nat} (pos : 0 < n) :
    value.getD (.int 0) = .int n ↔ value = some (.int n) := by
  cases value with
  | none =>
    rw [Option.getD_none, Json.int.injEq]
    refine ⟨?_, ?_⟩
    · intro h
      omega
    · intro h
      nomatch h
  | some value => simp

theorem orZero_int (n : Nat) : orZero (.int n) = .int n := by
  unfold orZero
  split_ifs with htruthy
  · rfl
  · have hzero : n = 0 := by simpa [Json.truthy] using htruthy
    rw [hzero]
    rfl

theorem head?_elim_eq_flatMap {chunkLps : List (Items Json)} {key : String} :
    chunkLps.head?.elim [] (listAt · key) = chunkLps.flatMap (listAt · key) ↔
      chunkLps.tail.flatMap (listAt · key) = [] := by
  cases chunkLps with
  | nil => simp
  | cons first rest =>
    rw [List.head?_cons, Option.elim_some, List.flatMap_cons, List.tail_cons]
    refine ⟨?_, ?_⟩
    · intro h
      exact List.self_eq_append_right.mp h
    · intro h
      rw [h, List.append_nil]

/-- The logprobs of a stream are those of the completion it splits. -/
theorem streamLogprobs_iff {c : InferChoice}
    (hc : ∀ key, listAt (choiceLogprobs c) key =
      if key ∈ logprobKeys then (tokenChunks.filterMap chunkLogprobs).flatMap (listAt · key)
      else (tokenChunks.filterMap chunkLogprobs).head?.elim [] (listAt · key))
    (logprobs : ∀ key, (tokenChunks.filterMap chunkLogprobs).flatMap (listAt · key) =
      listAt (choiceLogprobs choice) key) :
    (∀ key, listAt (choiceLogprobs c) key = listAt (choiceLogprobs choice) key) ↔
      ∀ key ∉ logprobKeys,
        (tokenChunks.filterMap chunkLogprobs).tail.flatMap (listAt · key) = [] := by
  refine ⟨?_, ?_⟩
  · intro same key hkey
    have hfirst := hc key
    rw [if_neg hkey, same key, ← logprobs key] at hfirst
    exact head?_elim_eq_flatMap.mp hfirst.symm
  · intro rest key
    rw [hc key, ← logprobs key]
    split_ifs with hkey
    · rfl
    · exact head?_elim_eq_flatMap.mpr (rest key hkey)

/-- The choice of a stream has the prompt's ids and the captured fields. -/
theorem streamFields_iff {captured extras fields : Items Json} (prompt : s.tokenIds ≠ [])
    (hfields : ∀ key, fields.get? key =
      (if key = "prompt_token_ids" ∧ s.tokenIds ≠ [] then
        some (.arr (s.tokenIds.map Json.int)) else none).or (captured.get? key)) :
    (∀ key, fields.get? key = extras.get? key) ↔
      extras.get? "prompt_token_ids" = some (.arr (s.tokenIds.map Json.int)) ∧
      ∀ key ≠ "prompt_token_ids", captured.get? key = extras.get? key := by
  have hprompt : fields.get? "prompt_token_ids" = some (.arr (s.tokenIds.map Json.int)) := by
    rw [hfields, if_pos ⟨rfl, prompt⟩, Option.some_or]
  have hother : ∀ key ≠ "prompt_token_ids", fields.get? key = captured.get? key := by
    intro key hkey
    rw [hfields, if_neg (fun h => hkey h.1), Option.none_or]
  refine ⟨?_, ?_⟩
  · intro same
    refine ⟨by rw [← same, hprompt], ?_⟩
    intro key hkey
    rw [← hother key hkey, same key]
  · intro ⟨hextras, rest⟩ key
    by_cases hkey : key = "prompt_token_ids"
    · rw [hkey, hprompt, hextras]
    · rw [hother key hkey, rest key hkey]

/-- The usage of the two records, of which the unsplit one has the upstream
counts. -/
theorem streamUsage_iff {streamed unsplit : Trajectory}
    (hs : Streamed s ids tokenChunks streamed) (hu : Unsplit s completion choice ids unsplit)
    (nonempty : ids ≠ []) {usage : Items Json} (value : completion.usage = .value usage)
    (same : ∀ key, (streamUsage s.tokenIds ids tokenChunks).get? key = usage.get? key) :
    streamed.rawResponse.usage = unsplit.rawResponse.usage ↔
      usage.get? "completion_tokens" = some (.int ids.length) ∧
      usage.get? "total_tokens" = some (.int (s.tokenIds.length + ids.length : Nat)) := by
  have hids : 0 < ids.length := List.length_pos_iff.mpr nonempty
  have htotal : 0 < s.tokenIds.length + ids.length := by omega
  have hdetails : ∀ key, Json.getD (streamUsage s.tokenIds ids tokenChunks) key =
      Json.getD usage key := by
    intro key
    rw [Json.getD, same key, Json.getD]
  rw [hs.usage, hu.usage usage value, hdetails, hdetails, RawUsage.mk.injEq, orZero_int,
    orZero_int, orZero_int]
  refine ⟨?_, ?_⟩
  · intro ⟨_, hcompletion, hsum, _⟩
    exact ⟨(getD_int_eq hids).mp ((orZero_eq_int hids).mp hcompletion.symm),
      (getD_int_eq htotal).mp ((orZero_eq_int htotal).mp hsum.symm)⟩
  · intro ⟨hcompletion, hsum⟩
    refine ⟨rfl, ?_, ?_, rfl, rfl⟩
    · rw [hcompletion, Option.getD_some, orZero_int]
    · rw [hsum, Option.getD_some, orZero_int]

theorem conversation_iff {streamed unsplit : Trajectory}
    (hs : Streamed s ids tokenChunks streamed) (hu : Unsplit s completion choice ids unsplit) :
    streamed.fullConversationTokenIds = unsplit.fullConversationTokenIds ↔ s.tokenIds ≠ [] := by
  rw [hs.conversation, hu.conversation]
  by_cases hprompt : s.tokenIds = []
  · simp [hprompt]
  · simp [hprompt]

theorem map_withoutIds_iff {r r' : Except String MessageParts} {parts parts' : MessageParts}
    (h : r = .ok parts) (h' : r' = .ok parts') :
    r.map MessageParts.withoutIds = r'.map MessageParts.withoutIds ↔
      parts.withoutIds = parts'.withoutIds := by
  rw [h, h']
  exact ⟨Except.ok.inj, congrArg Except.ok⟩

theorem getFinishReason_stop (single : completion.choices = [choice])
    (finish : choice.finishReason = .value "stop") : getFinishReason completion = some "stop" := by
  rw [getFinishReason, single]
  dsimp only
  rw [finish]
  rfl

theorem sameRecord_iff {streamed unsplit : Trajectory}
    (hs : Streamed s ids tokenChunks streamed) (hu : Unsplit s completion choice ids unsplit)
    (single : completion.choices = [choice]) (tokenIds : choice.tokenIds = .value ids)
    (nonempty : ids ≠ [])
    (logprobs : ∀ key, (tokenChunks.filterMap chunkLogprobs).flatMap (listAt · key) =
      listAt (choiceLogprobs choice) key) :
    SameRecord streamed unsplit ↔ s.Agrees completion choice ids tokenChunks := by
  obtain ⟨c, hchoices, hcIds, hcFinish, hcLogprobs, hcFields⟩ := hs.choice
  refine ⟨?_, ?_⟩
  · intro same
    have hprompt := (conversation_iff hs hu).mp same.fullConversationTokenIds
    have hchoice := same.choice
    rw [hchoices, hu.tokenResponse, single, List.forall₂_cons] at hchoice
    obtain ⟨⟨_, hlogprobs, hfinish, hfields⟩, _⟩ := hchoice
    have hstop : choice.finishReason = .value "stop" := hfinish.symm.trans hcFinish
    obtain ⟨hpromptField, hchoiceFields⟩ := (streamFields_iff hprompt hcFields).mp hfields
    have htokenUsage := same.tokenUsage
    rw [hs.tokenUsage, hu.tokenResponse] at htokenUsage
    obtain ⟨streamedUsage, usage, hstreamed, hvalue, husage⟩ := htokenUsage
    obtain rfl := Field.value.inj hstreamed
    obtain ⟨hcompletion, htotal⟩ := (streamUsage_iff hs hu nonempty hvalue husage).mp same.usage
    refine ⟨hprompt, hstop, (streamLogprobs_iff hcLogprobs logprobs).mp hlogprobs,
      ⟨usage, hvalue, hcompletion, htotal, husage⟩, ?_, hpromptField, hchoiceFields, ?_⟩
    · intro key
      rw [← hs.topFields, same.topFields, hu.tokenResponse]
    · have hmessage := hu.message
      rw [getFinishReason_stop single hstop] at hmessage
      exact (map_withoutIds_iff hs.message hmessage).mpr same.message
  · intro agrees
    obtain ⟨usage, hvalue, hcompletion, htotal, husage⟩ := agrees.usage
    refine ⟨hs.tokenIds.trans hu.tokenIds.symm, hs.responseIds.trans hu.responseIds.symm,
      hs.text.trans hu.text.symm, (conversation_iff hs hu).mpr agrees.prompt, ?_, ?_, ?_, ?_, ?_⟩
    · rw [hchoices, hu.tokenResponse, single]
      refine .cons ⟨hcIds.trans tokenIds.symm,
        (streamLogprobs_iff hcLogprobs logprobs).mpr agrees.logprobs,
        hcFinish.trans agrees.finish.symm, ?_⟩ .nil
      exact (streamFields_iff agrees.prompt hcFields).mpr ⟨agrees.promptField, agrees.choiceFields⟩
    · rw [hs.tokenUsage, hu.tokenResponse]
      exact ⟨_, usage, rfl, hvalue, husage⟩
    · intro key
      rw [hs.topFields, agrees.topFields, hu.tokenResponse]
    · have hmessage := hu.message
      rw [getFinishReason_stop single agrees.finish] at hmessage
      exact (map_withoutIds_iff hs.message hmessage).mp agrees.message
    · exact (streamUsage_iff hs hu nonempty hvalue husage).mpr ⟨hcompletion, htotal⟩

end Records

end TrajProxy.Pipeline
