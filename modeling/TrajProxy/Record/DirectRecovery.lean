import TrajProxy.Record.Kept
import TrajProxy.Record.Recovery

/-! The ids a compact row of `DirectPipeline` gives back. Both functions join the
ids of the upstream response and take `prompt_tokens` from its usage, so the row
is recovered when upstream counted its own ids. -/

namespace TrajProxy.Record

variable {π : Type} {env : Surroundings} {request : Request} {c : ProcessContext}

section Response

/-- The ids of the first choice. -/
def ChatResponse.responseIds (response : ChatResponse) : Option (List Int) :=
  match response.choices with
  | .value (choice :: _) => choice.tokenIds.get
  | _ => none

/-- A `null` message of the first choice ends `process` before any ids are read. -/
def ChatResponse.readable (response : ChatResponse) : Prop :=
  match response.choices with
  | .value (choice :: _) => choice.message ≠ .null
  | _ => True

/-- `prompt_tokens`, unset without a usage and zero if the usage does not have it. -/
def promptCount (usage : Field (Items Json)) : Json :=
  match usage with
  | .missing | .null => .null
  | .value usage => (usage.get? "prompt_tokens").getD (.int 0)

/-- The ids a response brings are told apart by the count of its usage. -/
def DirectRecoverable (inference : Except Raised ChatResponse) : Prop :=
  ∀ response, inference = .ok response → response.readable →
    Splits (response.promptTokenIds.get.getD []) (response.responseIds.getD [])
      (promptCount response.usage)

/-- What `readChoice` does to the fields the ids are recovered from. -/
structure IdsRead (response response' : ChatResponse) (c c' : ProcessContext) : Prop where
  responseIds : c'.responseIds = response.responseIds.or c.responseIds
  tokenIds : c'.tokenIds = c.tokenIds
  full : c'.fullConversationTokenIds = c.fullConversationTokenIds
  promptTokens : c'.promptTokens = c.promptTokens
  promptTokenIds : response'.promptTokenIds = response.promptTokenIds
  usage : response'.usage = response.usage

theorem readChoice_ids (response : ChatResponse) (c : ProcessContext) :
    (readChoice response).Ends c
      (fun response' c' => response.readable ∧ IdsRead response response' c c')
      fun _ c' => ¬response.readable ∧ c' = c := by
  have unread : (∀ choice rest, response.choices ≠ .value (choice :: rest)) →
      response.readable ∧ IdsRead response response c c := by
    intro other
    have none : response.responseIds = none := by
      unfold ChatResponse.responseIds
      split
      · next choice rest there => exact absurd there (other choice rest)
      · rfl
    refine ⟨?_, by rw [none, Option.none_or], rfl, rfl, rfl, rfl, rfl⟩
    unfold ChatResponse.readable
    split
    · next choice rest there => exact absurd there (other choice rest)
    · trivial
  unfold readChoice
  split
  · next choice rest there =>
    have ids : response.responseIds = choice.tokenIds.get := by
      rw [ChatResponse.responseIds, there]
    have readable : response.readable ↔ choice.message ≠ .null := by
      rw [ChatResponse.readable, there]
    cases message : choice.message with
    | null => exact ⟨fun h => readable.mp h message, rfl⟩
    | missing =>
      refine ⟨readable.mpr (by rw [message]; intro same; cases same), ?_⟩
      exact ⟨by rw [ids], rfl, rfl, rfl, rfl, rfl⟩
    | value message' =>
      refine ⟨readable.mpr (by rw [message]; intro same; cases same), ?_⟩
      exact ⟨by rw [ids], rfl, rfl, rfl, rfl, rfl⟩
  · next other => exact unread fun choice rest there => other choice rest there

/-- The ids are joined before the counts are read. -/
theorem joinIds_full (full : c.fullConversationTokenIds = none) :
    c.joinIds.fullConversationTokenIds = joinedIds c.tokenIds c.responseIds := by
  unfold ProcessContext.joinIds joinedIds
  cases Pipeline.nonemptyIds c.tokenIds with
  | none => exact full
  | some prompt =>
    cases Pipeline.nonemptyIds c.responseIds with
    | none => exact full
    | some ids => rfl

theorem readUsage_recovered_iff {usage : Field (Items Json)} {result : ChatResponse}
    (full : c.fullConversationTokenIds = joinedIds c.tokenIds c.responseIds)
    (unset : c.promptTokens = .null) :
    (readUsage usage >>= fun _ => pure result).Ends c (fun _ c => IdsRecovered c)
      (fun e c => e.isException = true → IdsRecovered c) ↔
        Splits (c.tokenIds.getD []) (c.responseIds.getD []) (promptCount usage) := by
  unfold readUsage promptCount
  cases usage with
  | missing =>
    rw [← unset]
    exact idsRecovered_iff full
  | null =>
    rw [← unset]
    exact (forall_prop_of_true rfl).trans (idsRecovered_iff full)
  | value usage =>
    let c' : ProcessContext := { c with promptTokens := (usage.get? "prompt_tokens").getD (.int 0) }
    have full' : c'.fullConversationTokenIds = joinedIds c'.tokenIds c'.responseIds := full
    exact idsRecovered_iff full'

theorem readResponse_recovered_iff (inference : Except Raised ChatResponse) (request : Request) :
    (readResponse inference).Ends (createContext request) (fun _ c => IdsRecovered c)
      (fun e c => e.isException = true → IdsRecovered c) ↔ DirectRecoverable inference := by
  have empty : IdsRecovered (createContext request) := ⟨rfl, rfl⟩
  unfold readResponse DirectRecoverable
  rw [Py.ends_bind, Py.ends_ofExcept]
  cases inference with
  | error e => exact ⟨(fun _ _ h => nomatch h), fun _ _ => empty⟩
  | ok response =>
    dsimp only
    rw [Py.ends_bind, Py.ends_modify, Py.ends_bind]
    have decided : (∀ response', (Except.ok response : Except Raised ChatResponse) = .ok response' →
        response'.readable → Splits (response'.promptTokenIds.get.getD [])
          (response'.responseIds.getD []) (promptCount response'.usage)) ↔
        (response.readable → Splits (response.promptTokenIds.get.getD [])
          (response.responseIds.getD []) (promptCount response.usage)) := by
      simp only [Except.ok.injEq, forall_eq']
    rw [decided]
    refine (readChoice_ids response _).iff ?_ ?_
    · intro response' c ⟨readable, read⟩
      rw [forall_prop_of_true readable, Py.ends_bind, Py.ends_modify, Py.ends_bind, Py.ends_modify]
      let c' : ProcessContext := { c with tokenIds := response'.promptTokenIds.get.or c.tokenIds }
      have full : c'.joinIds.fullConversationTokenIds =
          joinedIds c'.joinIds.tokenIds c'.joinIds.responseIds :=
        joinIds_full read.full
      refine (readUsage_recovered_iff full read.promptTokens).trans ?_
      change Splits ((response'.promptTokenIds.get.or c.tokenIds).getD []) (c.responseIds.getD [])
        (promptCount response'.usage) ↔ _
      rw [read.promptTokenIds, read.tokenIds, read.responseIds, read.usage]
      change Splits ((response.promptTokenIds.get.or none).getD [])
        ((response.responseIds.or none).getD []) _ ↔ _
      rw [Option.or_none, Option.or_none]
    · intro e c ⟨unreadable, same⟩
      rw [same]
      exact iff_of_true (fun _ => empty) fun readable => absurd readable unreadable

/-- No request or response in text is set in this pipeline. -/
structure Plain (request : Request) (c : ProcessContext) : Prop where
  ofRequest : OfRequest request c
  textRequest : c.textRequest = none
  tokenRequest : c.tokenRequest = none
  textResponse : c.textResponse = none
  fullText : c.fullConversationText = none

theorem Plain.coherent (h : Plain request c) : Coherent request c where
  ofRequest := h.ofRequest
  textRequest _ there := nomatch h.textRequest.symm.trans there
  tokenRequest _ there := nomatch h.tokenRequest.symm.trans there
  textResponse _ there := nomatch h.textResponse.symm.trans there

theorem plain_settling (request : Request) : Settling (Plain request) := by
  refine ⟨fun _ _ => ⟨?_, ?_⟩, fun _ _ _ => ⟨?_, ?_⟩⟩
  all_goals
    intro h
    exact ⟨h.ofRequest, h.textRequest, h.tokenRequest, h.textResponse, h.fullText⟩

theorem keeps_plain_readChoice (response : ChatResponse) :
    Py.Keeps (Plain request) (readChoice response) := by
  unfold readChoice
  split
  · split
    · exact Py.keeps_raise _
    · exact (Py.keeps_modify fun _ h => ⟨h.ofRequest, h.textRequest, h.tokenRequest,
        h.textResponse, h.fullText⟩).bind fun _ => Py.keeps_pure _
  · exact Py.keeps_pure _

theorem keeps_plain_readUsage (usage : Field (Items Json)) :
    Py.Keeps (Plain request) (readUsage usage) := by
  cases usage with
  | missing => exact Py.keeps_pure ()
  | null => exact Py.keeps_raise _
  | value usage =>
    exact Py.keeps_modify fun _ h => ⟨h.ofRequest, h.textRequest, h.tokenRequest,
      h.textResponse, h.fullText⟩

theorem keeps_plain_readResponse (inference : Except Raised ChatResponse) :
    Py.Keeps (Plain request) (readResponse inference) := by
  refine (Py.keeps_ofExcept _).bind fun response => ?_
  refine (Py.keeps_modify fun _ h => ⟨h.ofRequest, h.textRequest, h.tokenRequest,
    h.textResponse, h.fullText⟩).bind fun _ => ?_
  refine (keeps_plain_readChoice response).bind fun response => ?_
  refine (Py.keeps_modify fun _ h => ⟨h.ofRequest, h.textRequest, h.tokenRequest,
    h.textResponse, h.fullText⟩).bind fun _ => ?_
  refine (Py.keeps_modify fun _ h => ⟨h.ofRequest, h.textRequest, h.tokenRequest,
    h.textResponse, h.fullText⟩).bind fun _ => ?_
  exact (keeps_plain_readUsage _).bind fun _ => Py.keeps_pure _

theorem direct_plain (inference : Except Raised ChatResponse) (request : Request) :
    ∀ c ∈ (Run.direct inference : Run π).handed env request, Plain request c := by
  have start : Plain request (createContext request) := ⟨rfl, rfl, rfl, rfl, rfl⟩
  have kept := Py.ends_state.mpr (keeps_plain_readResponse inference _ start)
  exact (direct_handed (plain_settling request) inference request).mpr
    (kept.mono (fun _ _ h => h) fun _ _ h _ => h)

theorem direct_recovered_iff (inference : Except Raised ChatResponse) (request : Request)
    (tokenizerPath : String) :
    (∀ c ∈ (Run.direct inference : Run π).handed env request, Recovered tokenizerPath c) ↔
      DirectRecoverable inference := by
  have same : (∀ c ∈ (Run.direct inference : Run π).handed env request, Recovered tokenizerPath c) ↔
      ∀ c ∈ (Run.direct inference : Run π).handed env request, IdsRecovered c :=
    forall₂_congr fun c mem =>
      recovered_iff (direct_plain inference request c mem).coherent tokenizerPath
  exact same.trans ((direct_handed idsRecovered_settling inference request).trans
    (readResponse_recovered_iff inference request))

end Response

section Stream

/-- `prompt_tokens` after these chunks: the last one that is not `null`. -/
def streamedCount (chunks : List Direct.ChatChunk) : Json :=
  chunks.foldl (fun old chunk =>
    Direct.usageCount ((Direct.chunkUsage chunk).getD []) "prompt_tokens" old) .null

/-- A stream that nothing interrupts brings ids its usage tells apart. -/
def DirectStreamCalls.Recoverable (calls : DirectStreamCalls) : Prop :=
  loopRaised calls.exhausted calls.rounds = none →
    Splits ((lastPromptTokenIds (takenChunks calls.rounds)).getD [])
      ((Direct.choices (takenChunks calls.rounds)).flatMap Direct.tokenIdPiece)
      (streamedCount (takenChunks calls.rounds))

theorem processStream_promptTokens (ctx : Direct.DirectContext) (chunks : List Direct.ChatChunk) :
    (Direct.processStream ctx chunks).2.promptTokens =
      chunks.foldl (fun old chunk =>
        Direct.usageCount ((Direct.chunkUsage chunk).getD []) "prompt_tokens" old)
        ctx.promptTokens := by
  induction chunks generalizing ctx with
  | nil => rfl
  | cons chunk chunks ih =>
    have first : (Direct.accumulateStreamFields ctx chunk).promptTokens =
        Direct.usageCount ((Direct.chunkUsage chunk).getD []) "prompt_tokens" ctx.promptTokens := by
      unfold Direct.accumulateStreamFields
      dsimp only
      split <;> rfl
    rw [Direct.processStream, ih, List.foldl_cons]
    exact congrArg (chunks.foldl _) first

theorem estimateTokens_promptTokens (ctx : Direct.DirectContext) :
    (Direct.estimateTokens ctx).promptTokens = ctx.promptTokens := by
  unfold Direct.estimateTokens
  split_ifs <;> rfl

theorem streamed_plain (generated : Items Json) (stream : Direct.DirectContext) :
    Plain request ((createContext request).streamed generated stream) :=
  ⟨rfl, rfl, rfl, rfl, rfl⟩

theorem directStream_plain (calls : DirectStreamCalls) (request : Request) :
    ∀ c ∈ (Run.directStream calls : Run π).handed env request, Plain request c := by
  change ∀ c ∈ ((calls.processStream env).run (.initial request .initial)).2.handed, _
  rw [directStream_handed]
  cases loopRaised calls.exhausted calls.rounds with
  | some e => exact fun c mem => absurd mem List.not_mem_nil
  | none =>
    intro c mem
    rw [List.mem_singleton.mp mem]
    exact streamed_plain calls.generated _

theorem directStream_recovered_iff (calls : DirectStreamCalls) (request : Request)
    (tokenizerPath : String) :
    (∀ c ∈ (Run.directStream calls : Run π).handed env request, Recovered tokenizerPath c) ↔
      calls.Recoverable := by
  change (∀ c ∈ ((calls.processStream env).run (.initial request .initial)).2.handed, _) ↔ _
  rw [directStream_handed, DirectStreamCalls.Recoverable]
  cases loopRaised calls.exhausted calls.rounds with
  | some e => exact iff_of_true (fun c mem => absurd mem List.not_mem_nil) fun h => nomatch h
  | none =>
    let stream := (Direct.processStream .initial (takenChunks calls.rounds)).2
    let c := (createContext request).streamed calls.generated stream
    have coherent : Coherent request c := (streamed_plain calls.generated stream).coherent
    have full : c.fullConversationTokenIds = joinedIds c.tokenIds c.responseIds := joinIds_full rfl
    have prompt : c.tokenIds = lastPromptTokenIds (takenChunks calls.rounds) := by
      change stream.streamPromptTokenIds.or none = _
      rw [Option.or_none, streamPromptTokenIds_eq]
      exact Option.or_none
    have response : c.responseIds.getD [] =
        (Direct.choices (takenChunks calls.rounds)).flatMap Direct.tokenIdPiece := by
      change (stream.streamTokenIds.or none).getD [] = _
      rw [Option.or_none]
      exact (Direct.processStream_accumulated .initial (takenChunks calls.rounds)).tokenIds
    have count : c.promptTokens = streamedCount (takenChunks calls.rounds) :=
      (estimateTokens_promptTokens stream).trans (processStream_promptTokens _ _)
    rw [forall_prop_of_true rfl, ← prompt, ← response, ← count, ← idsRecovered_iff full,
      ← recovered_iff coherent tokenizerPath]
    simp only [List.mem_singleton, forall_eq]
    rfl

end Stream

end TrajProxy.Record
