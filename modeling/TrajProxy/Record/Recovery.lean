import TrajProxy.Record.Rows

/-! When a compact row gives back the full one. The context handed over is still
that of its request, so messages and requests are always given back; what the ids
and `prompt_tokens` have to be is worked out for each of the four functions. -/

namespace TrajProxy.Record

variable {π : Type} {env : Surroundings} {request : Request} {c : ProcessContext}

section Coherence

/-- The fields that no stage changes. -/
structure Identity where
  requestId : String
  model : String
  sessionId : Option String
  runId : Option String
  uniqueId : String
  messages : List Json
  requestParams : Items Json
  rawRequest : Items Json
  startTime : Option Nat

def ProcessContext.identity (c : ProcessContext) : Identity where
  requestId := c.requestId
  model := c.model
  sessionId := c.sessionId
  runId := c.runId
  uniqueId := c.uniqueId
  messages := c.messages
  requestParams := c.requestParams
  rawRequest := c.rawRequest
  startTime := c.startTime

/-- The context is still the one of the request. -/
def OfRequest (request : Request) (c : ProcessContext) : Prop :=
  c.identity = (createContext request).identity

/-- `{"prompt": …, "model": …, **request_params}` -/
def Request.inferRequest (request : Request) (prompt : Json) : Items Json :=
  Items.update [("prompt", prompt), ("model", .str request.model)] request.params.items

/-- The requests and the response in text are those of the other fields. -/
structure Coherent (request : Request) (c : ProcessContext) : Prop where
  ofRequest : OfRequest request c
  textRequest : ∀ d, c.textRequest = some d →
    ∃ text, c.promptText = some text ∧ d = request.inferRequest (.str text)
  tokenRequest : ∀ d, c.tokenRequest = some d →
    ∃ ids, c.tokenIds = some ids ∧ d = request.inferRequest (Pipeline.tokenIdsJson ids)
  textResponse : ∀ t, c.textResponse = some t → t = ⟨c.responseText, c.responseIds⟩

/-- The slices give back the ids of the context. -/
def IdsRecovered (c : ProcessContext) : Prop :=
  match c.fullConversationTokenIds with
  | none => c.tokenIds.getD [] = [] ∧ c.responseIds.getD [] = []
  | some ids => ∃ bound, sliceBound c.promptTokens = some bound ∧
      Slice.upTo ids bound = c.tokenIds.getD [] ∧
      Slice.startingAt ids bound = c.responseIds.getD []

theorem rawRequest_eq (request : Request) :
    rawRequest request = [("model", .str request.model), ("messages", .arr request.messages),
      ("stream", .bool request.isStream)] ++ request.params.items := by
  refine Items.update_of_disjoint request.params.unique ?_
  intro key there known
  exact request.params.passed key known there

theorem recoverParams_eq {row : DetailRow}
    (h : rawRequestItems row = rawRequest request) : recoverParams row = request.params.items := by
  have passed := request.params.passed
  have model := Items.erase_of_notMem (passed "model" (by decide))
  have messages := Items.erase_of_notMem (passed "messages" (by decide))
  have stream := Items.erase_of_notMem (passed "stream" (by decide))
  rw [recoverParams, h, rawRequest_eq]
  simp [paramBlacklist, Items.erase, model, messages, stream]

theorem recoverRequest_eq {row : DetailRow} (h : rawRequestItems row = rawRequest request)
    (prompt : Json) : recoverRequest row prompt = .obj (request.inferRequest prompt) := by
  have model : Json.getD (rawRequestItems row) "model" = .str request.model := by
    rw [h, rawRequest_eq]
    rfl
  rw [recoverRequest, recoverParams_eq h, model]
  rfl

theorem rawRequestItems_compact (ofRequest : OfRequest request c) (tokenizerPath : String) :
    rawRequestItems (detailRow .compact tokenizerPath c) = rawRequest request := by
  have stored : (detailRow .compact tokenizerPath c).rawRequest =
      jsonColumn (some (rawRequest request)) := by
    have same : c.rawRequest = rawRequest request := congrArg Identity.rawRequest ofRequest
    rw [← same]
    rfl
  rw [rawRequestItems, stored, rawRequest_eq]
  rfl

theorem jsonColumn_eq_some {d : Option (Items Json)} {value : Json}
    (h : jsonColumn d = some value) :
    ∃ items, d = some items ∧ value = .obj items := by
  cases d with
  | none => cases h
  | some items =>
    cases items with
    | nil => cases h
    | cons item items => exact ⟨_, rfl, (Option.some.inj h).symm⟩

theorem recoverTokenIds_eq_iff (tokenizerPath : String) :
    (recoverTokenIds (metadataRow c) (detailRow .compact tokenizerPath c) =
        some (c.tokenIds.getD []) ∧
      recoverResponseIds (metadataRow c) (detailRow .compact tokenizerPath c) =
        some (c.responseIds.getD [])) ↔ IdsRecovered c := by
  unfold IdsRecovered recoverTokenIds recoverResponseIds
  change (match c.fullConversationTokenIds with
      | none => some []
      | some ids => (sliceBound c.promptTokens).map (Slice.upTo ids)) = _ ∧
    (match c.fullConversationTokenIds with
      | none => some []
      | some ids => (sliceBound c.promptTokens).map (Slice.startingAt ids)) = _ ↔ _
  cases c.fullConversationTokenIds with
  | none =>
    have same : ∀ ids : List Int, some [] = some ids ↔ ids = [] :=
      fun ids => ⟨fun h => (Option.some.inj h).symm, fun h => congrArg some h.symm⟩
    exact and_congr (same _) (same _)
  | some ids => cases sliceBound c.promptTokens <;> simp

/-- Everything but the ids is always given back. -/
theorem recovered_iff (coherent : Coherent request c) (tokenizerPath : String) :
    Recovered tokenizerPath c ↔ IdsRecovered c := by
  have raw := rawRequestItems_compact coherent.ofRequest tokenizerPath
  refine ⟨fun h => (recoverTokenIds_eq_iff tokenizerPath).mp ⟨h.tokenIds, h.responseIds⟩, ?_⟩
  intro recovered
  obtain ⟨tokenIds, responseIds⟩ := (recoverTokenIds_eq_iff tokenizerPath).mpr recovered
  refine ⟨tokenIds, responseIds, ?_, ?_, ?_, ?_⟩
  · have stored : (detailRow .full tokenizerPath c).messages.getD (.arr []) =
        .arr request.messages := by
      have same : c.messages = request.messages := congrArg Identity.messages coherent.ofRequest
      rw [← same]
      change (if c.messages.isEmpty then none else some (Json.arr c.messages)).getD (.arr []) = _
      cases c.messages <;> rfl
    rw [recoverMessages, raw, rawRequest_eq, stored]
    rfl
  · intro d there
    obtain ⟨items, set, rfl⟩ := jsonColumn_eq_some there
    obtain ⟨text, prompt, rfl⟩ := coherent.textRequest items set
    have column : (detailRow .compact tokenizerPath c).promptText = some text := by
      change some (c.promptText.getD "") = _
      rw [prompt]
      rfl
    rw [recoverTextRequest, recoverRequest_eq raw, column]
    rfl
  · intro d there
    obtain ⟨items, set, rfl⟩ := jsonColumn_eq_some there
    obtain ⟨ids, prompt, rfl⟩ := coherent.tokenRequest items set
    rw [recoverTokenRequest, tokenIds, prompt, Option.map_some, recoverRequest_eq raw]
    rfl
  · intro d there
    obtain ⟨items, set, rfl⟩ := jsonColumn_eq_some there
    obtain ⟨t, here, rfl⟩ := Option.map_eq_some_iff.mp set
    rw [coherent.textResponse t here, responseIds]
    refine ⟨rfl, ?_⟩
    change some ((c.responseIds.getD []).map Json.int) =
      some (elements (.ofOption Pipeline.tokenIdsJson c.responseIds))
    cases c.responseIds <;> rfl

/-- The full conversation, once it is there, is the prompt and the response. -/
def Conversed (c : ProcessContext) : Prop :=
  ∀ text, c.fullConversationText = some text → ∃ prompt response,
    c.promptText = some prompt ∧ c.responseText = some response ∧ text = prompt ++ response

theorem conversed_of_none (none : c.fullConversationText = none) : Conversed c :=
  fun _ there => nomatch none.symm.trans there

theorem conversed_settling : Settling Conversed :=
  ⟨fun _ _ => Iff.rfl, fun _ _ _ => Iff.rfl⟩

theorem coherent_settling (request : Request) : Settling (Coherent request) := by
  refine ⟨fun _ _ => ⟨?_, ?_⟩, fun _ _ _ => ⟨?_, ?_⟩⟩
  all_goals
    intro h
    exact ⟨h.ofRequest, h.textRequest, h.tokenRequest, h.textResponse⟩

theorem idsRecovered_settling : Settling IdsRecovered :=
  ⟨fun _ _ => Iff.rfl, fun _ _ _ => Iff.rfl⟩

end Coherence

section Joined

/-- `token_ids + response_ids`, once both are there and not empty. -/
def joinedIds (tokenIds responseIds : Option (List Int)) : Option (List Int) :=
  match Pipeline.nonemptyIds tokenIds, Pipeline.nonemptyIds responseIds with
  | some prompt, some ids => some (prompt ++ ids)
  | _, _ => none

/-- No ids at all, or ids of both kinds and a count that tells them apart, from
either end. -/
def Splits (prompt response : List Int) (promptTokens : Json) : Prop :=
  (prompt = [] ∧ response = []) ∨
    (prompt ≠ [] ∧ response ≠ [] ∧
      (promptTokens = .int prompt.length ∨ promptTokens = .int (-(response.length : Int))))

theorem sliceBound_eq_some_some {count : Json} {n : Int} :
    sliceBound count = some (some n) ↔ count = .int n := by
  cases count <;> simp [sliceBound]

theorem slices_append_iff {before after : List Int} (hbefore : before ≠ []) (hafter : after ≠ [])
    (count : Json) :
    (∃ bound, sliceBound count = some bound ∧ Slice.upTo (before ++ after) bound = before ∧
        Slice.startingAt (before ++ after) bound = after) ↔
      count = .int before.length ∨ count = .int (-(after.length : Int)) := by
  rw [← sliceBound_eq_some_some, ← sliceBound_eq_some_some]
  refine ⟨fun ⟨bound, there, upTo, _⟩ => ?_, fun h => ?_⟩
  · rw [there]
    exact ((Slice.upTo_append_iff hbefore hafter bound).mp upTo).imp (congrArg some) (congrArg some)
  · have cut : ∀ bound, Slice.upTo (before ++ after) bound = before →
        Slice.upTo (before ++ after) bound = before ∧
          Slice.startingAt (before ++ after) bound = after :=
      fun _ upTo => ⟨upTo, Slice.startingAt_append hbefore hafter upTo⟩
    obtain there | there := h
    · exact ⟨_, there, cut _ ((Slice.upTo_append_iff hbefore hafter _).mpr (Or.inl rfl))⟩
    · exact ⟨_, there, cut _ ((Slice.upTo_append_iff hbefore hafter _).mpr (Or.inr rfl))⟩

/-- The lists of ids that count are the ones stored. -/
theorem nonemptyIds_cases (ids : Option (List Int)) :
    (Pipeline.nonemptyIds ids = none ∧ ids.getD [] = []) ∨
      (Pipeline.nonemptyIds ids = some (ids.getD []) ∧ ids.getD [] ≠ []) := by
  cases ids with
  | none => exact Or.inl ⟨rfl, rfl⟩
  | some ids =>
    rw [Pipeline.nonemptyIds_some, Option.getD_some]
    by_cases empty : ids = []
    · exact Or.inl ⟨if_pos empty, empty⟩
    · exact Or.inr ⟨if_neg empty, empty⟩

/-- Where the ids were joined as the two lists that are stored. -/
theorem idsRecovered_iff (full : c.fullConversationTokenIds = joinedIds c.tokenIds c.responseIds) :
    IdsRecovered c ↔ Splits (c.tokenIds.getD []) (c.responseIds.getD []) c.promptTokens := by
  rw [IdsRecovered, full, joinedIds]
  obtain ⟨noPrompt, prompt⟩ | ⟨somePrompt, prompt⟩ := nonemptyIds_cases c.tokenIds
  · rw [noPrompt, prompt]
    exact (or_iff_left fun h => h.1 rfl).symm
  · rw [somePrompt]
    obtain ⟨noResponse, response⟩ | ⟨someResponse, response⟩ := nonemptyIds_cases c.responseIds
    · rw [noResponse, response]
      exact (or_iff_left fun h => h.2.1 rfl).symm
    · rw [someResponse]
      refine (slices_append_iff prompt response c.promptTokens).trans ?_
      refine ⟨fun h => Or.inr ⟨prompt, response, h⟩, fun h => ?_⟩
      obtain ⟨none, -⟩ | ⟨-, -, counts⟩ := h
      · exact absurd none prompt
      · exact counts

/-- A count of the prompt's ids leaves the two lists. -/
theorem splits_length_iff (prompt response : List Int) :
    Splits prompt response (.int prompt.length) ↔ (prompt = [] ↔ response = []) := by
  unfold Splits
  by_cases noPrompt : prompt = [] <;> by_cases noResponse : response = [] <;>
    simp [noPrompt, noResponse]

theorem splits_of_nil (response : List Int) (count : Json) :
    Splits [] response count ↔ response = [] := by
  simp [Splits]

end Joined

end TrajProxy.Record
