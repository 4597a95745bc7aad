import TrajProxy.Record.Recovery

/-! The ids a compact row of `TokenPipeline` gives back. `process` sets
`full_conversation_token_ids` with the response and to the prompt's ids when there
are no others; `_finalize_stream` only sets it when both lists have ids. -/

namespace TrajProxy.Record

variable {π : Type} {env : Surroundings} {request : Request} {c : ProcessContext}

section NonStream

variable (calls : TokenCalls)

/-- The ids of the upstream response. -/
def TokenCalls.upstreamIds : List Int :=
  match calls.complete with
  | .error _ => []
  | .ok response =>
    match Pipeline.decodeResponse calls.tok response with
    | .error _ => []
    | .ok (_, ids) => ids.getD []

/-- A call that returns or raises, in `Except`. -/
def raised : Option Raised → Except Raised Unit
  | some e => .error e
  | none => .ok ()

/-- `_decode_response` as far as it can raise; ids are decoded by a call. -/
def TokenCalls.decoded (response : Pipeline.InferResponse) :
    Except Raised (String × Option (List Int)) := do
  let decoded ← (Pipeline.decodeResponse calls.tok response).mapError .exception
  raised (decoded.2.bind fun _ => calls.decode)
  pure decoded

/-- `_build_response` as far as it can raise. -/
def TokenCalls.built (response : Pipeline.InferResponse) (parser : Pipeline.MessageParser)
    (answer : String × Option (List Int)) (counts : Pipeline.TokenCounts) : Except Raised Unit := do
  raised calls.redecode
  let clean := ((Pipeline.nonemptyIds answer.2).map calls.tok.decodeClean).getD answer.1
  let _ ← (Pipeline.build calls.build parser clean response counts).mapError .exception
  pure ()

/-- How a request ends whose prompt has these ids. -/
def TokenCalls.outcome (ids : List Int) : Except Raised Unit := do
  let response ← calls.complete
  let answer ← calls.decoded response
  let counts ← (Pipeline.updateStats ids response answer.2).mapError .exception
  let parser ← calls.requestParser
  calls.built response parser answer counts

/-- A request that fails after its prompt was encoded has no ids; one that does not
has ids of a prompt if it has any. -/
def TokenCalls.Recoverable : Prop :=
  ∀ prompt ids, calls.convert = .ok prompt → calls.encode = .ok ids →
    match calls.outcome ids with
    | .ok _ => ids = [] → calls.upstreamIds = []
    | .error e => e.isException = true → ids = [] ∧ calls.upstreamIds = []

variable {calls} {prompt : String} {ids : List Int}

theorem createContext_coherent (request : Request) : Coherent request (createContext request) :=
  ⟨rfl, (fun _ h => nomatch h), (fun _ h => nomatch h), (fun _ h => nomatch h)⟩

/-- The context between the prompt's ids and the response. -/
structure Answering (calls : TokenCalls) (request : Request) (prompt : String) (ids : List Int)
    (c : ProcessContext) : Prop extends Coherent request c where
  promptText : c.promptText = some prompt
  tokenIds : c.tokenIds = some ids
  promptTokens : c.promptTokens = .int ids.length
  responseIds : c.responseIds.getD [] = calls.upstreamIds

/-- What an answer that fails leaves. -/
structure Unjoined (calls : TokenCalls) (request : Request) (prompt : String) (ids : List Int)
    (c : ProcessContext) : Prop extends Answering calls request prompt ids c where
  full : c.fullConversationTokenIds = none
  fullText : c.fullConversationText = none

/-- After `_decode_response`, whose text the second decoding gives again. -/
structure Decoded (calls : TokenCalls) (request : Request) (prompt : String) (ids : List Int)
    (answer : String × Option (List Int)) (c : ProcessContext) : Prop
    extends Unjoined calls request prompt ids c where
  text : c.responseText = some answer.1
  ids : c.responseIds = answer.2
  decoded : ∀ found, answer.2 = some found → answer.1 = calls.tok.decode found

/-- After `_build_response`. -/
structure Joined (calls : TokenCalls) (request : Request) (prompt : String) (ids : List Int)
    (c : ProcessContext) : Prop extends Answering calls request prompt ids c where
  full : c.fullConversationTokenIds = some (if ids = [] then [] else ids ++ calls.upstreamIds)
  conversed : Conversed c

/-- The context after `_transform_messages`. -/
def transformedContext (request : Request) (prompt : String) : ProcessContext :=
  { createContext request with
    promptText := some prompt
    textRequest := some (request.inferRequest (.str prompt)) }

/-- The context after `_encode_text`. -/
def encodedContext (request : Request) (prompt : String) (ids : List Int) : ProcessContext :=
  { transformedContext request prompt with
    tokenIds := some ids
    promptTokens := .int ids.length
    tokenRequest := some (request.inferRequest (Pipeline.tokenIdsJson ids)) }

theorem transformedContext_coherent (request : Request) (prompt : String) :
    Coherent request (transformedContext request prompt) :=
  ⟨rfl, (fun _ h => ⟨prompt, rfl, (Option.some.inj h).symm⟩), (fun _ h => nomatch h),
    (fun _ h => nomatch h)⟩

theorem encodedContext_coherent (request : Request) (prompt : String) (ids : List Int) :
    Coherent request (encodedContext request prompt ids) :=
  ⟨rfl, (fun _ h => ⟨prompt, rfl, (Option.some.inj h).symm⟩),
    (fun _ h => ⟨ids, rfl, (Option.some.inj h).symm⟩), (fun _ h => nomatch h)⟩

/-- A context after the prompt's ids, with another answer in it. -/
theorem encoded_unjoined {response : Option (Items Json)} {text : Option String}
    {responseIds : Option (List Int)} (upstream : responseIds.getD [] = calls.upstreamIds) :
    Unjoined calls request prompt ids { encodedContext request prompt ids with
      tokenResponse := response
      responseText := text
      responseIds := responseIds } where
  toCoherent :=
    let coherent := encodedContext_coherent request prompt ids
    ⟨coherent.ofRequest, coherent.textRequest, coherent.tokenRequest, (fun _ h => nomatch h)⟩
  promptText := rfl
  tokenIds := rfl
  promptTokens := rfl
  responseIds := upstream
  full := rfl
  fullText := rfl

theorem ends_call {σ α : Type} (result : Except String α) {s : σ} {returns : α → σ → Prop}
    {raises : Raised → σ → Prop} :
    (call result).Ends s returns raises ↔
      match result with
      | .ok a => returns a s
      | .error e => raises (.exception e) s := by
  cases result <;> rfl

theorem ends_decodeIds (found : List Int) {c : ProcessContext}
    {returns : Unit → ProcessContext → Prop} {raises : Raised → ProcessContext → Prop} :
    (calls.decodeIds found).Ends c returns raises ↔
      match calls.decode with
      | some e => raises e { c with responseIds := some found }
      | none => returns () { c with
          responseIds := some found
          responseText := some (calls.tok.decode found) } := by
  unfold TokenCalls.decodeIds
  cases h : calls.decode <;> simp [Py.firstRaised]

theorem decodeResponse_eq (response : Pipeline.InferResponse) :
    calls.decodeResponse response =
      match Pipeline.decodeResponse calls.tok response with
      | .error e => Py.raise (.exception e)
      | .ok (text, responseIds) =>
        (match responseIds with
          | some found => calls.decodeIds found
          | none => Py.modify fun c =>
              { c with responseText := some text, responseIds := none }) >>= fun _ =>
          Py.modify fun c => { c with textResponse := some ⟨c.responseText, c.responseIds⟩ } := by
  unfold TokenCalls.decodeResponse Pipeline.decodeResponse
  cases Pipeline.parseTextResponse response with
  | mk text tokenIds =>
    dsimp only
    cases Pipeline.nonemptyIds tokenIds with
    | some found => rfl
    | none =>
      cases text.filter (· ≠ "") with
      | none => rfl
      | some text =>
        dsimp only
        cases Pipeline.parseTokenIdsFromText text <;> rfl

/-- The ends of `_decode_response`. -/
theorem ends_decodeResponse (response : Pipeline.InferResponse) {c : ProcessContext}
    {returns : Unit → ProcessContext → Prop} {raises : Raised → ProcessContext → Prop} :
    (calls.decodeResponse response).Ends c returns raises ↔
      match Pipeline.decodeResponse calls.tok response with
      | .error e => raises (.exception e) c
      | .ok (text, responseIds) =>
        match responseIds.bind fun _ => calls.decode with
        | some e => raises e { c with responseIds := responseIds }
        | none => returns () { c with
            responseIds := responseIds
            responseText := some text
            textResponse := some ⟨some text, responseIds⟩ } := by
  rw [decodeResponse_eq]
  cases decoded : Pipeline.decodeResponse calls.tok response with
  | error e => rfl
  | ok answer =>
    obtain ⟨text, responseIds⟩ := answer
    cases responseIds with
    | none => rfl
    | some found =>
      dsimp only
      obtain ⟨ids, same, rfl⟩ | ⟨none, -⟩ := Pipeline.decodeResponse_ok decoded
      · cases same
        rw [Py.ends_bind, ends_decodeIds, Option.bind_some]
        cases calls.decode <;> rfl
      · nomatch none

/-- `_inference` and `_decode_response` -/
theorem decodeResponse_decoded {response : Pipeline.InferResponse}
    (answered : calls.complete = .ok response) :
    (calls.decodeResponse response).Ends
      { encodedContext request prompt ids with tokenResponse := some response.toItems }
      (fun _ c => ∃ answer, calls.decoded response = .ok answer ∧
        Decoded calls request prompt ids answer c)
      fun e c => calls.decoded response = .error e ∧ Unjoined calls request prompt ids c := by
  have upstream : calls.upstreamIds =
      match Pipeline.decodeResponse calls.tok response with
      | .error _ => []
      | .ok (_, ids) => ids.getD [] := by
    rw [TokenCalls.upstreamIds, answered]
  rw [ends_decodeResponse]
  cases decoded : Pipeline.decodeResponse calls.tok response with
  | error e =>
    rw [decoded] at upstream
    rw [TokenCalls.decoded, decoded]
    exact ⟨rfl, encoded_unjoined upstream.symm⟩
  | ok answer =>
    obtain ⟨text, responseIds⟩ := answer
    rw [decoded] at upstream
    dsimp only at upstream ⊢
    have result : calls.decoded response =
        raised (responseIds.bind fun _ => calls.decode) >>= fun _ => pure (text, responseIds) := by
      rw [TokenCalls.decoded, decoded]
      rfl
    cases raises : responseIds.bind fun _ => calls.decode with
    | some e =>
      rw [raises] at result
      exact ⟨result, encoded_unjoined upstream.symm⟩
    | none =>
      rw [raises] at result
      refine ⟨(text, responseIds), result, ?_⟩
      have coherent := encodedContext_coherent request prompt ids
      refine ⟨⟨⟨⟨coherent.ofRequest, coherent.textRequest, coherent.tokenRequest,
        fun _ same => (Option.some.inj same).symm⟩, rfl, rfl, rfl, upstream.symm⟩, rfl, rfl⟩,
        rfl, rfl, ?_⟩
      intro found there
      obtain ⟨ids, same, rfl⟩ | ⟨none, -⟩ := Pipeline.decodeResponse_ok decoded
      · rw [Option.some.inj (same.symm.trans there)]
      · nomatch none.symm.trans there

theorem updateStats_promptTokens {tokenIds : List Int} {response : Pipeline.InferResponse}
    {responseIds : Option (List Int)} {counts : Pipeline.TokenCounts}
    (h : Pipeline.updateStats tokenIds response responseIds = .ok counts) :
    counts.promptTokens = .int tokenIds.length := by
  unfold Pipeline.updateStats at h
  cases usage : response.usage with
  | missing =>
    rw [usage] at h
    rw [← Except.ok.inj h]
  | null =>
    rw [usage] at h
    nomatch h
  | value usage' =>
    rw [usage] at h
    rw [← Except.ok.inj h]

theorem updateStats_decoded {answer : String × Option (List Int)}
    (response : Pipeline.InferResponse)
    (h : Decoded calls request prompt ids answer c) :
    (updateStats response).Ends c
      (fun _ c =>
        (Pipeline.updateStats ids response answer.2).mapError Raised.exception = .ok c.counts ∧
          Decoded calls request prompt ids answer c)
      fun e c => (Pipeline.updateStats ids response answer.2).mapError Raised.exception = .error e ∧
        Unjoined calls request prompt ids c := by
  unfold updateStats
  rw [Py.ends_bind, Py.ends_read, Py.ends_bind, ends_call, h.tokenIds, h.ids, Option.getD_some]
  cases counted : Pipeline.updateStats ids response answer.2 with
  | error e => exact ⟨rfl, h.toUnjoined⟩
  | ok counts =>
    exact ⟨rfl, ⟨⟨⟨h.ofRequest, h.textRequest, h.tokenRequest, h.textResponse⟩, h.promptText,
      h.tokenIds, updateStats_promptTokens counted, h.responseIds⟩, h.full, h.fullText⟩,
      h.text, h.ids, h.decoded⟩

/-- Of an empty prompt no ids are kept, and of an empty response those of the prompt. -/
theorem joined_ids (ids : List Int) (responseIds : Option (List Int)) :
    (match Pipeline.nonemptyIds (some ids), Pipeline.nonemptyIds responseIds with
      | some prompt, some found => some (prompt ++ found)
      | _, _ => some ids) = some (if ids = [] then [] else ids ++ responseIds.getD []) := by
  obtain ⟨none, prompt⟩ | ⟨there, prompt⟩ := nonemptyIds_cases (some ids)
  · rw [Option.getD_some] at prompt
    rw [none, if_pos prompt, prompt]
  · rw [Option.getD_some] at there prompt
    rw [there, if_neg prompt]
    obtain ⟨none, response⟩ | ⟨there, -⟩ := nonemptyIds_cases responseIds
    · rw [none, response, List.append_nil]
    · rw [there]

theorem buildResponse_joined {answer : String × Option (List Int)}
    (response : Pipeline.InferResponse) (parser : Pipeline.MessageParser)
    (h : Decoded calls request prompt ids answer c) :
    (calls.buildResponse response parser).Ends c
      (fun _ c' => calls.built response parser answer c.counts = .ok () ∧
        Joined calls request prompt ids c')
      fun e c' => calls.built response parser answer c.counts = .error e ∧
        Unjoined calls request prompt ids c' := by
  unfold TokenCalls.buildResponse TokenCalls.built
  rw [Py.ends_bind, Py.ends_read, Py.ends_bind, Py.ends_callAll]
  cases calls.redecode with
  | some e => exact ⟨rfl, h.toUnjoined⟩
  | none =>
    have clean : calls.cleanText c =
        ((Pipeline.nonemptyIds answer.2).map calls.tok.decodeClean).getD answer.1 := by
      rw [TokenCalls.cleanText, h.ids, h.text]
      cases Pipeline.nonemptyIds answer.2 <;> rfl
    have final : calls.finalText c = some answer.1 := by
      rw [TokenCalls.finalText, h.ids, h.text]
      cases found : Pipeline.nonemptyIds answer.2 with
      | none => rfl
      | some ids =>
        dsimp only
        rw [h.decoded ids (Option.filter_eq_some_iff.mp found).1]
    dsimp only [Py.firstRaised]
    rw [Py.ends_bind, ends_call, clean]
    cases Pipeline.build calls.build parser _ response c.counts with
    | error e => exact ⟨rfl, h.toUnjoined⟩
    | ok raw =>
      dsimp only
      rw [Py.ends_bind, Py.ends_modify]
      have textResponse : ∀ t, c.textResponse = some t →
          t = ⟨calls.finalText c, c.responseIds⟩ := by
        rw [final, ← h.text]
        exact h.textResponse
      have full : (match Pipeline.nonemptyIds c.tokenIds, Pipeline.nonemptyIds c.responseIds with
          | some prompt, some found => some (prompt ++ found)
          | _, _ => c.tokenIds) = some (if ids = [] then [] else ids ++ calls.upstreamIds) := by
        rw [h.tokenIds, joined_ids, h.responseIds]
      split
      · next prompt' text there final' =>
        refine ⟨rfl, ⟨⟨h.ofRequest, h.textRequest, h.tokenRequest, textResponse⟩, h.promptText,
          h.tokenIds, h.promptTokens, h.responseIds⟩, full, ?_⟩
        exact fun _ same => ⟨prompt', text, there, final', (Option.some.inj same).symm⟩
      · next absent => exact (absent prompt answer.1 h.promptText final).elim

/-- `process` after the prompt's ids are there. -/
theorem answer_joined (request : Request) (prompt : String) (ids : List Int) :
    calls.answer.Ends (encodedContext request prompt ids)
      (fun _ c => calls.outcome ids = .ok () ∧ Joined calls request prompt ids c)
      fun e c => calls.outcome ids = .error e ∧ Unjoined calls request prompt ids c := by
  unfold TokenCalls.answer TokenCalls.inference TokenCalls.outcome
  simp only [Py.ends_bind, Py.ends_ofExcept]
  cases answered : calls.complete with
  | error e =>
    refine ⟨rfl, encoded_unjoined ?_⟩
    rw [TokenCalls.upstreamIds, answered]
    rfl
  | ok response =>
    rw [bind_of_ok rfl]
    refine (decodeResponse_decoded answered).mono ?_ ?_
    · rintro _ c ⟨answer, answered, decoded⟩
      rw [bind_of_ok answered]
      refine (updateStats_decoded response decoded).mono ?_ ?_
      · rintro _ c ⟨counted, decoded⟩
        rw [bind_of_ok counted]
        cases calls.requestParser with
        | error e => exact ⟨rfl, decoded.toUnjoined⟩
        | ok parser => exact buildResponse_joined response parser decoded
      · rintro e c ⟨failed, unjoined⟩
        exact ⟨bind_of_error failed, unjoined⟩
    · rintro e c ⟨failed, unjoined⟩
      exact ⟨bind_of_error failed, unjoined⟩

theorem unjoined_recovered_iff (h : Unjoined calls request prompt ids c) :
    IdsRecovered c ↔ ids = [] ∧ calls.upstreamIds = [] := by
  rw [IdsRecovered, h.full, h.tokenIds, h.responseIds, Option.getD_some]

theorem joined_recovered_iff (h : Joined calls request prompt ids c) :
    IdsRecovered c ↔ (ids = [] → calls.upstreamIds = []) := by
  rw [IdsRecovered, h.full, h.tokenIds, h.responseIds, h.promptTokens]
  by_cases empty : ids = []
  · rw [if_pos empty, empty]
    refine ⟨?_, fun upstream => ⟨_, rfl, rfl, ?_⟩⟩
    · rintro ⟨bound, found, -, response⟩ -
      rw [← response, ← Option.some.inj found]
      rfl
    · rw [upstream rfl]
      rfl
  · rw [if_neg empty]
    refine ⟨fun _ h => absurd h empty, fun _ => ⟨_, rfl, ?_, ?_⟩⟩
    · exact Slice.upTo_length ids calls.upstreamIds
    · exact Slice.startingAt_length ids calls.upstreamIds

/-- A context without ids. -/
theorem idsRecovered_of_none (tokenIds : c.tokenIds = none) (responseIds : c.responseIds = none)
    (full : c.fullConversationTokenIds = none) : IdsRecovered c := by
  rw [IdsRecovered, full, tokenIds, responseIds]
  exact ⟨rfl, rfl⟩

theorem stages_recovered_iff :
    calls.stages.Ends (createContext request) (fun _ c => IdsRecovered c)
      (fun e c => e.isException = true → IdsRecovered c) ↔ calls.Recoverable := by
  unfold TokenCalls.stages transformMessages encodeText TokenCalls.Recoverable
  simp only [Py.ends_bind, Py.ends_ofExcept]
  cases calls.convert with
  | error e =>
    exact ⟨(fun _ _ _ h => by cases h), fun _ _ => idsRecovered_of_none rfl rfl rfl⟩
  | ok prompt =>
    cases calls.encode with
    | error e =>
      exact ⟨(fun _ _ _ _ h => by cases h), fun _ _ => idsRecovered_of_none rfl rfl rfl⟩
    | ok ids =>
      have ends : calls.answer.Ends (encodedContext request prompt ids)
          (fun _ c => IdsRecovered c) (fun e c => e.isException = true → IdsRecovered c) ↔
          match calls.outcome ids with
          | .ok _ => ids = [] → calls.upstreamIds = []
          | .error e => e.isException = true → ids = [] ∧ calls.upstreamIds = [] := by
        refine (answer_joined request prompt ids).iff ?_ ?_
        · rintro _ c ⟨outcome, joined⟩
          rw [outcome]
          exact joined_recovered_iff joined
        · rintro e c ⟨outcome, unjoined⟩
          rw [outcome]
          exact imp_congr_right fun _ => unjoined_recovered_iff unjoined
      refine ends.trans ⟨fun h prompt' ids' same same' => ?_, fun h => h prompt ids rfl rfl⟩
      rw [← Except.ok.inj same']
      exact h

theorem stages_coherent :
    calls.stages.Ends (createContext request) (fun _ c => Coherent request c)
      fun _ c => Coherent request c := by
  unfold TokenCalls.stages transformMessages encodeText
  simp only [Py.ends_bind, Py.ends_ofExcept]
  cases calls.convert with
  | error e => exact createContext_coherent request
  | ok prompt =>
    cases calls.encode with
    | error e => exact transformedContext_coherent request prompt
    | ok ids =>
      exact (answer_joined request prompt ids).mono (fun _ _ h => h.2.toCoherent)
        fun _ _ h => h.2.toCoherent

theorem stages_conversed :
    calls.stages.Ends (createContext request) (fun _ c => Conversed c) fun _ c => Conversed c := by
  unfold TokenCalls.stages transformMessages encodeText
  simp only [Py.ends_bind, Py.ends_ofExcept]
  cases calls.convert with
  | error e => exact conversed_of_none rfl
  | ok prompt =>
    cases calls.encode with
    | error e => exact conversed_of_none rfl
    | ok ids =>
      exact (answer_joined request prompt ids).mono (fun _ _ h => h.2.conversed)
        fun _ _ h => conversed_of_none h.2.fullText

/-- Of the contexts a request hands over, its stages decide. -/
theorem token_handed {Q : ProcessContext → Prop} (settling : Settling Q) (calls : TokenCalls)
    (request : Request) :
    (∀ c ∈ (Run.token calls : Run π).handed env request, Q c) ↔
      calls.stages.Ends (createContext request) (fun _ c => Q c)
        fun e c => e.isException = true → Q c :=
  runStages_handed settling (fun _ _ _ => trivial) rfl

theorem token_coherent (calls : TokenCalls) (request : Request) :
    ∀ c ∈ (Run.token calls : Run π).handed env request, Coherent request c :=
  (token_handed (coherent_settling request) calls request).mpr
    (stages_coherent.mono (fun _ _ h => h) fun _ _ h _ => h)

theorem token_conversed (calls : TokenCalls) (request : Request) :
    ∀ c ∈ (Run.token calls : Run π).handed env request, Conversed c :=
  (token_handed conversed_settling calls request).mpr
    (stages_conversed.mono (fun _ _ h => h) fun _ _ h _ => h)

theorem token_recovered_iff (calls : TokenCalls) (request : Request) (tokenizerPath : String) :
    (∀ c ∈ (Run.token calls : Run π).handed env request, Recovered tokenizerPath c) ↔
      calls.Recoverable := by
  have same : (∀ c ∈ (Run.token calls : Run π).handed env request, Recovered tokenizerPath c) ↔
      ∀ c ∈ (Run.token calls : Run π).handed env request, IdsRecovered c :=
    forall₂_congr fun c mem => recovered_iff (token_coherent calls request c mem) tokenizerPath
  exact same.trans ((token_handed idsRecovered_settling calls request).trans stages_recovered_iff)

end NonStream

end TrajProxy.Record
