import TrajProxy.Record.Hidden

/-! What the record of a direct request keeps of the internal fields: all of a
response, and of a stream what fits into one choice. -/

namespace TrajProxy.Record

variable {π : Type} {env : Surroundings}

theorem kept_settling (upstream : List (Items Json)) : Settling (Kept upstream) := by
  refine ⟨fun _ _ => ⟨?_, ?_⟩, fun _ _ _ => ⟨?_, ?_⟩⟩
  all_goals
    intro h
    exact ⟨h.tokenIds, h.logprobs, h.otherLogprobs, h.routedExperts, h.promptTokenIds⟩

section Response

theorem getD_mirrored (choice : ResponseChoice) {key : String} (hidden : key ∈ hiddenKeys) :
    Json.getD choice.mirrorReasoning.toItems key = Json.getD choice.toItems key := by
  simp only [hiddenKeys, List.mem_cons, List.not_mem_nil, or_false] at hidden
  obtain rfl | rfl | rfl := hidden <;>
    simp [ResponseChoice.toItems, ResponseChoice.mirrorReasoning, Json.getD_setField]

theorem choiceAt_response (response : ChatResponse) (i : Nat) :
    choiceAt response.toItems i =
      (((response.choices.get.getD [])[i]?).map ResponseChoice.toItems).getD [] := by
  rw [choiceAt, choicesOf_response, getD_map]

theorem mirrored_sameHidden {response : ChatResponse} {choice : ResponseChoice}
    {rest : List ResponseChoice} (there : response.choices = .value (choice :: rest)) :
    SameHidden response.toItems
      { response with choices := .value (choice.mirrorReasoning :: rest) }.toItems := by
  refine ⟨?_, ?_⟩
  · intro i key hidden
    rw [choiceAt_response, choiceAt_response, there]
    cases i with
    | zero => exact (getD_mirrored choice hidden).symm
    | succ i => rfl
  · rw [getD_response_promptTokenIds, getD_response_promptTokenIds]

theorem sameHidden_refl (d : Items Json) : SameHidden d d := ⟨fun _ _ _ => rfl, rfl⟩

/-- What `readChoice` leaves: the response with the reasoning mirrored. -/
structure ChoiceRead (response response' : ChatResponse) (c c' : ProcessContext) : Prop where
  stored : c'.rawResponse = some response'.toItems
  same : SameHidden response.toItems response'.toItems
  promptTokenIds : response'.promptTokenIds = response.promptTokenIds
  tokenIds : c'.tokenIds = c.tokenIds

theorem readChoice_read {response : ChatResponse} {c : ProcessContext}
    (stored : c.rawResponse = some response.toItems) :
    (readChoice response).Ends c (fun response' c' => ChoiceRead response response' c c')
      fun _ c' => c' = c := by
  unfold readChoice
  split
  · next choice rest there =>
    split
    · rfl
    · exact ⟨rfl, mirrored_sameHidden there, rfl, rfl⟩
  · exact ⟨stored, sameHidden_refl _, rfl, rfl⟩

theorem readUsage_frame (usage : Field (Items Json)) (c : ProcessContext) :
    (readUsage usage).Ends c
      (fun _ c' => c'.rawResponse = c.rawResponse ∧ c'.tokenIds = c.tokenIds)
      fun _ c' => c'.rawResponse = c.rawResponse ∧ c'.tokenIds = c.tokenIds := by
  cases usage with
  | missing => exact ⟨rfl, rfl⟩
  | null => exact ⟨rfl, rfl⟩
  | value usage => exact ⟨rfl, rfl⟩

theorem readResponse_kept (inference : Except Raised ChatResponse) (request : Request) :
    (readResponse inference).Ends (createContext request)
      (fun _ c => Kept (upstreamOf inference) c) fun _ c => Kept (upstreamOf inference) c := by
  unfold readResponse
  rw [Py.ends_bind, Py.ends_ofExcept]
  cases inference with
  | error e => exact ⟨fun _ => rfl, fun _ => rfl, by simp [upstreamOf, Except.toOption],
      by simp [upstreamOf, Except.toOption], by simp [upstreamOf, Except.toOption]⟩
  | ok response =>
    dsimp only
    rw [Py.ends_bind, Py.ends_modify, Py.ends_bind]
    refine (readChoice_read rfl).mono ?_ ?_
    · intro response' c read
      rw [Py.ends_bind, Py.ends_modify, Py.ends_bind, Py.ends_modify, Py.ends_bind]
      have column : ∀ ids, response'.promptTokenIds.get.or c.tokenIds = some ids →
          Direct.tokenIdsJson ids = Json.getD response.toItems "prompt_token_ids" := by
        intro ids h
        rw [getD_response_promptTokenIds, ← read.promptTokenIds]
        rw [read.tokenIds, createContext, Option.or_none] at h
        rw [h, Json.ofOption]
      refine (readUsage_frame _ _).mono ?_ ?_
      · intro _ c' frame
        exact kept_of_sameHidden (frame.1.trans read.stored) read.same
          fun ids h => column ids (frame.2.symm.trans h)
      · intro _ c' frame
        exact kept_of_sameHidden (frame.1.trans read.stored) read.same
          fun ids h => column ids (frame.2.symm.trans h)
    · intro e c unchanged
      rw [unchanged]
      exact kept_of_sameHidden rfl (sameHidden_refl _) fun ids h => by cases h

/-- A response that cannot be prepared is stored once more, with the same ids. -/
theorem prepareResponse_ends {Q : ProcessContext → Prop} (response : ChatResponse)
    (c : ProcessContext) (h : Q c) :
    (prepareResponse response).Ends c (fun _ _ => True) fun _ c' => Q c' := by
  unfold prepareResponse
  cases response.choices with
  | null => exact h
  | missing => trivial
  | value choices => trivial

theorem direct_handed {Q : ProcessContext → Prop} (settling : Settling Q)
    (inference : Except Raised ChatResponse) (request : Request) :
    (∀ c ∈ (Run.direct inference : Run π).handed env request, Q c) ↔
      (readResponse inference).Ends (createContext request) (fun _ c => Q c)
        fun e c => e.isException = true → Q c :=
  runStages_handed settling prepareResponse_ends rfl

theorem direct_kept (inference : Except Raised ChatResponse) (request : Request) :
    ∀ c ∈ (Run.direct inference : Run π).handed env request, Kept (upstreamOf inference) c := by
  refine (direct_handed (kept_settling _) inference request).mpr ?_
  exact (readResponse_kept inference request).mono (fun _ _ h => h) fun _ _ h _ => h

end Response

section Stream

variable {chunks : List Direct.ChatChunk}

theorem lastPromptTokenIds_cons (chunk : Direct.ChatChunk) (chunks : List Direct.ChatChunk) :
    lastPromptTokenIds (chunk :: chunks) =
      (lastPromptTokenIds chunks).or chunk.promptTokenIds.get := by
  unfold lastPromptTokenIds
  rw [List.filterMap_cons]
  cases chunk.promptTokenIds.get with
  | none => rw [Option.or_none]
  | some ids =>
    rw [List.getLast?_cons]
    cases (chunks.filterMap fun chunk => chunk.promptTokenIds.get).getLast? <;> rfl

theorem streamPromptTokenIds_eq (ctx : Direct.DirectContext) (chunks : List Direct.ChatChunk) :
    (Direct.processStream ctx chunks).2.streamPromptTokenIds =
      (lastPromptTokenIds chunks).or ctx.streamPromptTokenIds := by
  induction chunks generalizing ctx with
  | nil => rfl
  | cons chunk chunks ih =>
    have first : (Direct.accumulateStreamFields ctx chunk).streamPromptTokenIds =
        chunk.promptTokenIds.get.or ctx.streamPromptTokenIds := by
      unfold Direct.accumulateStreamFields
      dsimp only
      split <;> rfl
    rw [Direct.processStream, ih, lastPromptTokenIds_cons, Option.or_assoc, first]

theorem accumulateLogprobs_extras (acc : Option Direct.Logprobs) (choice : Direct.ChatChoice) :
    (Direct.accumulateLogprobs acc choice).map Direct.Logprobs.extras =
      (acc.or (Direct.choiceLogprobs choice)).map Direct.Logprobs.extras := by
  unfold Direct.accumulateLogprobs
  cases Direct.choiceLogprobs choice with
  | none => rw [Option.or_none]
  | some logprobs =>
    cases acc with
    | none => rfl
    | some old =>
      dsimp only
      split <;> rfl

/-- Of `logprobs` the other keys are those of the first ones. -/
theorem streamLogprobs_extras (ctx : Direct.DirectContext) (chunks : List Direct.ChatChunk) :
    (Direct.processStream ctx chunks).2.streamLogprobs.map Direct.Logprobs.extras =
      (ctx.streamLogprobs.or ((Direct.choices chunks).findSome? Direct.choiceLogprobs)).map
        Direct.Logprobs.extras := by
  induction chunks generalizing ctx with
  | nil =>
    rw [Direct.processStream, Direct.choices, List.filterMap_nil, List.findSome?_nil,
      Option.or_none]
  | cons chunk chunks ih =>
    have first : (Direct.accumulateStreamFields ctx chunk).streamLogprobs.map
        Direct.Logprobs.extras =
          (ctx.streamLogprobs.or ((Direct.choices [chunk]).findSome? Direct.choiceLogprobs)).map
            Direct.Logprobs.extras := by
      cases hchoices : chunk.choices with
      | nil => simp [Direct.accumulateStreamFields, Direct.accumulateTop, Direct.choices, hchoices]
      | cons choice rest =>
        have all : Direct.choices [chunk] = [choice] := by simp [Direct.choices, hchoices]
        have run : (Direct.accumulateStreamFields ctx chunk).streamLogprobs =
            Direct.accumulateLogprobs ctx.streamLogprobs choice := by
          simp [Direct.accumulateStreamFields, hchoices, Direct.accumulateChoice,
            Direct.accumulateDelta, Direct.accumulateTop]
        rw [run, all, List.findSome?_singleton]
        exact accumulateLogprobs_extras _ choice
    rw [Direct.processStream, ih, Option.map_or, first, ← Option.map_or,
      Direct.choices_cons chunk chunks, List.findSome?_append, Option.or_assoc]

variable {generated : Items Json} {ctx : Direct.DirectContext} {c : ProcessContext}

theorem choiceAt_streamed (i : Nat) :
    choiceAt ((c.streamed generated ctx).rawResponse.getD []) i =
      if i = 0 then (Direct.finalChoice ctx).toItems else [] := by
  have there : Json.getD (Direct.finalizeStream generated ctx).toItems "choices" =
      .arr [.obj (Direct.finalChoice ctx).toItems] := by
    rw [Direct.RawResponse.toItems, Json.getD_set, if_neg (by decide), Json.getD_set, if_pos rfl]
    rfl
  have stored : choicesOf ((c.streamed generated ctx).rawResponse.getD []) =
      [(Direct.finalChoice ctx).toItems] := by
    change choicesOf (Direct.finalizeStream generated ctx).toItems = _
    rw [choicesOf, there]
    rfl
  rw [choiceAt, stored]
  cases i <;> rfl

theorem getD_finalChoice_tokenIds (ctx : Direct.DirectContext) :
    Json.getD (Direct.finalChoice ctx).toItems "token_ids" =
      Json.ofOption Direct.tokenIdsJson ctx.streamTokenIds := by
  unfold Direct.RawChoice.toItems
  dsimp only
  split_ifs <;> simp [Json.getD_set, Direct.finalChoice]

theorem getD_finalChoice_logprobs (ctx : Direct.DirectContext) :
    Json.getD (Direct.finalChoice ctx).toItems "logprobs" =
      Json.ofOption (fun logprobs => .obj logprobs.toItems) ctx.streamLogprobs := by
  unfold Direct.RawChoice.toItems
  dsimp only
  split_ifs <;> simp [Json.getD_set, Direct.finalChoice]

theorem getD_finalChoice_routedExperts (chunks : List Direct.ChatChunk) :
    Json.getD (Direct.finalChoice (Direct.processStream .initial chunks).2).toItems
        "routed_experts" =
      (lastSent ((Direct.choices chunks).map Direct.ChatChoice.extras) "routed_experts").getD
        .null := by
  have captured := (Direct.processStream_captured .initial chunks).choiceExtras
  have extras : (Direct.finalChoice (Direct.processStream .initial chunks).2).extras =
      ((Direct.choices chunks).map Direct.ChatChoice.extras).foldl Direct.captureItems [] :=
    captured
  unfold Json.getD
  rw [Direct.get?_choiceItems, extras, get?_captured]
  · rw [extras]
    exact nodup_captured _
  · decide

/-- The other keys of a `logprobs` dictionary, which has `content` last. -/
theorem get?_logprobs (logprobs : Option Direct.Logprobs) {key : String} (other : key ≠ "content") :
    Items.get? (itemsOf (Json.ofOption (fun lp => .obj lp.toItems) logprobs)) key =
      ((logprobs.map Direct.Logprobs.extras).getD []).get? key := by
  cases logprobs with
  | none => rfl
  | some logprobs =>
    change (logprobs.extras.setField "content" .arr logprobs.content).get? key = _
    rw [Items.get?_setField, if_neg other]
    rfl

theorem elements_content (logprobs : Option Direct.Logprobs) :
    elements (Json.getD (itemsOf (Json.ofOption (fun lp => .obj lp.toItems) logprobs)) "content") =
      (logprobs.bind fun lp => lp.content.get).getD [] := by
  cases logprobs with
  | none => rfl
  | some logprobs =>
    change elements (Json.getD (logprobs.extras.setField "content" .arr logprobs.content) _) = _
    rw [Json.getD_setField, if_pos rfl, Option.bind_some]
    cases logprobs.content.get <;> rfl

theorem elements_tokenIds (ids : Option (List Int)) :
    elements (Json.ofOption Direct.tokenIdsJson ids) = (ids.getD []).map Json.int := by
  cases ids <;> rfl

theorem flatMap_first (piece : Direct.ChatChoice → List Json) (chunks : List Direct.ChatChunk) :
    (chunks.flatMap fun chunk => ((chunk.choices[0]?).map piece).getD []) =
      (Direct.choices chunks).flatMap piece := by
  induction chunks with
  | nil => rfl
  | cons chunk chunks ih =>
    rw [List.flatMap_cons, ih, Direct.choices_cons chunk chunks, List.flatMap_append]
    cases hchoices : chunk.choices with
    | nil => simp [Direct.choices, hchoices]
    | cons choice rest => simp [Direct.choices, hchoices]

/-- What a record with the pieces of the first choices has of the others: nothing. -/
theorem pieces_iff {piece : Direct.ChatChoice → List Json} :
    (∀ i, (if i = 0 then (Direct.choices chunks).flatMap piece else []) =
      chunks.flatMap fun chunk => ((chunk.choices[i]?).map piece).getD []) ↔
        ∀ chunk ∈ chunks, ∀ choice ∈ chunk.choices.tail, piece choice = [] := by
  refine ⟨?_, ?_⟩
  · intro all chunk mem choice later
    obtain ⟨i, there⟩ := List.mem_iff_getElem?.mp later
    rw [List.getElem?_tail] at there
    have none := all (i + 1)
    rw [if_neg (Nat.succ_ne_zero i), eq_comm, List.flatMap_eq_nil_iff] at none
    have here := none chunk mem
    rw [there] at here
    exact here
  · intro bare i
    cases i with
    | zero => rw [if_pos rfl, flatMap_first]
    | succ i =>
      rw [if_neg (Nat.succ_ne_zero i), eq_comm, List.flatMap_eq_nil_iff]
      intro chunk mem
      cases there : chunk.choices[i + 1]? with
      | none => rfl
      | some choice =>
        rw [← List.getElem?_tail] at there
        exact bare chunk mem choice (List.mem_of_getElem? there)

/-- A property of every choice is one of the first and one of the later choices. -/
theorem forall_choices_iff {P Q : Direct.ChatChoice → Prop} :
    (∀ i, ∀ chunk ∈ chunks, ∀ choice, chunk.choices[i]? = some choice →
      if i = 0 then P choice else Q choice) ↔
      (∀ choice ∈ Direct.choices chunks, P choice) ∧
        ∀ chunk ∈ chunks, ∀ choice ∈ chunk.choices.tail, Q choice := by
  refine ⟨?_, ?_⟩
  · intro all
    refine ⟨?_, ?_⟩
    · intro choice mem
      obtain ⟨chunk, there, head⟩ := List.mem_filterMap.mp mem
      rw [List.head?_eq_getElem?] at head
      exact all 0 chunk there choice head
    · intro chunk mem choice later
      obtain ⟨i, there⟩ := List.mem_iff_getElem?.mp later
      rw [List.getElem?_tail] at there
      exact all (i + 1) chunk mem choice there
  · rintro ⟨first, later⟩ i chunk mem choice there
    cases i with
    | zero =>
      rw [← List.head?_eq_getElem?] at there
      exact first choice (List.mem_filterMap.mpr ⟨chunk, mem, there⟩)
    | succ i =>
      rw [← List.getElem?_tail] at there
      exact later chunk mem choice (List.mem_of_getElem? there)

/-- The context `_finalize_stream` stores. -/
def streamStored (request : Request) (generated : Items Json) (chunks : List Direct.ChatChunk) :
    ProcessContext :=
  (createContext request).streamed generated (Direct.processStream .initial chunks).2

variable {request : Request}

/-- A field that collects the pieces of the first choices has those of all
choices exactly if the later choices bring none. -/
theorem pieces_kept_iff (field : Items Json → List Json) (piece : Direct.ChatChoice → List Json)
    (absent : field [] = [])
    (sent : ∀ choice : Direct.ChatChoice, field choice.toItems = piece choice)
    (recorded : field (Direct.finalChoice (Direct.processStream .initial chunks).2).toItems =
      (Direct.choices chunks).flatMap piece) :
    (∀ i, field (choiceAt ((streamStored request generated chunks).rawResponse.getD []) i) =
      (chunks.map Direct.ChatChunk.toItems).flatMap fun d => field (choiceAt d i)) ↔
      ∀ chunk ∈ chunks, ∀ choice ∈ chunk.choices.tail, piece choice = [] := by
  have left : ∀ i,
      field (choiceAt ((streamStored request generated chunks).rawResponse.getD []) i) =
      if i = 0 then (Direct.choices chunks).flatMap piece else [] := by
    intro i
    rw [streamStored, choiceAt_streamed]
    split_ifs
    · exact recorded
    · exact absent
  have right : ∀ i, ((chunks.map Direct.ChatChunk.toItems).flatMap fun d => field (choiceAt d i)) =
      chunks.flatMap fun chunk => ((chunk.choices[i]?).map piece).getD [] := by
    intro i
    rw [List.flatMap_map]
    congr
    funext chunk
    rw [choiceAt_chunk]
    cases chunk.choices[i]? with
    | none => exact absent
    | some choice => exact sent choice
  simp only [left, right, pieces_iff]

theorem tokenIds_kept_iff :
    (∀ i, elements (Json.getD (choiceAt
        ((streamStored request generated chunks).rawResponse.getD []) i) "token_ids") =
      (chunks.map Direct.ChatChunk.toItems).flatMap fun d =>
        elements (Json.getD (choiceAt d i) "token_ids")) ↔
      ∀ chunk ∈ chunks, ∀ choice ∈ chunk.choices.tail, Direct.tokenIdPiece choice = [] := by
  let piece (choice : Direct.ChatChoice) : List Json := (Direct.tokenIdPiece choice).map .int
  have sent : ∀ choice : Direct.ChatChoice,
      elements (Json.getD choice.toItems "token_ids") = piece choice := by
    intro choice
    rw [getD_choice_tokenIds, elements_tokenIds]
    rfl
  have recorded : elements (Json.getD
      (Direct.finalChoice (Direct.processStream .initial chunks).2).toItems "token_ids") =
        (Direct.choices chunks).flatMap piece := by
    rw [getD_finalChoice_tokenIds, elements_tokenIds,
      (Direct.processStream_accumulated .initial chunks).tokenIds]
    exact List.map_flatMap
  refine (pieces_kept_iff (fun d => elements (Json.getD d "token_ids")) piece rfl sent
    recorded).trans ?_
  simp only [piece, List.map_eq_nil_iff]

theorem logprobs_kept_iff :
    (∀ i, elements (Json.getD (logprobsAt
        ((streamStored request generated chunks).rawResponse.getD []) i) "content") =
      (chunks.map Direct.ChatChunk.toItems).flatMap fun d =>
        elements (Json.getD (logprobsAt d i) "content")) ↔
      ∀ chunk ∈ chunks, ∀ choice ∈ chunk.choices.tail, Direct.logprobPiece choice = [] := by
  let content (d : Items Json) : List Json :=
    elements (Json.getD (itemsOf (Json.getD d "logprobs")) "content")
  have sent : ∀ choice : Direct.ChatChoice,
      content choice.toItems = Direct.logprobPiece choice := by
    intro choice
    unfold content
    rw [getD_choice_logprobs, elements_content]
    rfl
  have recorded : content (Direct.finalChoice (Direct.processStream .initial chunks).2).toItems =
      (Direct.choices chunks).flatMap Direct.logprobPiece := by
    unfold content
    rw [getD_finalChoice_logprobs, elements_content]
    exact (Direct.processStream_accumulated .initial chunks).logprobs
  exact pieces_kept_iff content Direct.logprobPiece rfl sent recorded

/-- The record answers for every upstream choice: with its one choice for the
first ones, with nothing for the later ones. -/
theorem forall_upstream_iff {K : Items Json → Items Json → Prop} (absent : ∀ stored, K [] stored) :
    (∀ i, ∀ d ∈ chunks.map Direct.ChatChunk.toItems, K (choiceAt d i)
      (choiceAt ((streamStored request generated chunks).rawResponse.getD []) i)) ↔
      (∀ choice ∈ Direct.choices chunks, K choice.toItems
        (Direct.finalChoice (Direct.processStream .initial chunks).2).toItems) ∧
        ∀ chunk ∈ chunks, ∀ choice ∈ chunk.choices.tail, K choice.toItems [] := by
  refine Iff.trans ?_ forall_choices_iff
  refine forall_congr' fun i => ?_
  rw [List.forall_mem_map]
  refine forall₂_congr fun chunk _ => ?_
  rw [choiceAt_chunk, streamStored, choiceAt_streamed]
  cases chunk.choices[i]? with
  | none => simp [absent]
  | some choice => split_ifs <;> simp

theorem extras_of_empty {choice : Direct.ChatChoice} {logprobs : Direct.Logprobs}
    (there : choice.logprobs.get = some logprobs) (counted : Direct.choiceLogprobs choice = none) :
    logprobs.extras = [] := by
  obtain ⟨content, extras⟩ := logprobs
  rw [Direct.choiceLogprobs, there] at counted
  cases content <;> cases extras <;> simp [Option.filter, Direct.Logprobs.isEmpty] at counted ⊢

theorem otherLogprobs_kept_iff :
    (∀ i, ∀ d ∈ chunks.map Direct.ChatChunk.toItems, ∀ key ≠ "content", ∀ value,
      (logprobsAt d i).get? key = some value → (logprobsAt
        ((streamStored request generated chunks).rawResponse.getD []) i).get? key = some value) ↔
      (∀ choice ∈ Direct.choices chunks, ∀ logprobs, choice.logprobs.get = some logprobs →
        ∀ first, (Direct.choices chunks).findSome? Direct.choiceLogprobs = some first →
          ∀ key ≠ "content", ∀ value, logprobs.extras.get? key = some value →
            first.extras.get? key = some value) ∧
        ∀ chunk ∈ chunks, ∀ choice ∈ chunk.choices.tail, ∀ logprobs,
          choice.logprobs.get = some logprobs → ∀ key ≠ "content",
            logprobs.extras.get? key = none := by
  let first := (Direct.choices chunks).findSome? Direct.choiceLogprobs
  let K (d stored : Items Json) : Prop := ∀ key ≠ "content", ∀ value,
    (itemsOf (Json.getD d "logprobs")).get? key = some value →
      (itemsOf (Json.getD stored "logprobs")).get? key = some value
  have sent : ∀ (choice : Direct.ChatChoice), ∀ key ≠ "content",
      (itemsOf (Json.getD choice.toItems "logprobs")).get? key =
        ((choice.logprobs.get.map Direct.Logprobs.extras).getD []).get? key := by
    intro choice key other
    rw [getD_choice_logprobs, get?_logprobs _ other]
  have recorded : ∀ key ≠ "content", (itemsOf (Json.getD
      (Direct.finalChoice (Direct.processStream .initial chunks).2).toItems "logprobs")).get? key =
        ((first.map Direct.Logprobs.extras).getD []).get? key := by
    intro key other
    rw [getD_finalChoice_logprobs, get?_logprobs _ other, streamLogprobs_extras]
    rfl
  have absent : ∀ stored, K [] stored := by
    intro stored key _ value there
    cases there
  refine (forall_upstream_iff (K := K) absent).trans (and_congr ?_ ?_)
  · refine forall₂_congr fun choice mem => ?_
    have compared : K choice.toItems
        (Direct.finalChoice (Direct.processStream .initial chunks).2).toItems ↔
        ∀ key ≠ "content", ∀ value,
          ((choice.logprobs.get.map Direct.Logprobs.extras).getD []).get? key = some value →
            ((first.map Direct.Logprobs.extras).getD []).get? key = some value := by
      refine forall₂_congr fun key other => ?_
      rw [sent choice key other, recorded key other]
    rw [compared]
    cases there : choice.logprobs.get with
    | none => simp
    | some logprobs =>
      simp only [Option.map_some, Option.getD_some, Option.some.injEq, forall_eq']
      cases found : (Direct.choices chunks).findSome? Direct.choiceLogprobs with
      | none =>
        have counted := List.findSome?_eq_none_iff.mp found choice mem
        simp [extras_of_empty there counted]
      | some first' => simp [first, found]
  · refine forall₂_congr fun chunk mem => forall₂_congr fun choice later => ?_
    have compared : K choice.toItems [] ↔ ∀ key ≠ "content",
        ((choice.logprobs.get.map Direct.Logprobs.extras).getD []).get? key = none := by
      refine forall₂_congr fun key other => ?_
      rw [sent choice key other, Option.eq_none_iff_forall_ne_some]
      exact forall_congr' fun value => imp_congr_right fun _ =>
        iff_of_false (fun there => by cases there) id
    rw [compared]
    cases choice.logprobs.get with
    | none => simp
    | some logprobs => simp

theorem routedExperts_kept_iff :
    (∀ i, ∀ d ∈ chunks.map Direct.ChatChunk.toItems,
      Json.getD (choiceAt d i) "routed_experts" ≠ .null →
        Json.getD (choiceAt ((streamStored request generated chunks).rawResponse.getD []) i)
          "routed_experts" = Json.getD (choiceAt d i) "routed_experts") ↔
      (∀ choice ∈ Direct.choices chunks, Json.getD choice.extras "routed_experts" ≠ .null →
        lastSent ((Direct.choices chunks).map Direct.ChatChoice.extras) "routed_experts" =
          some (Json.getD choice.extras "routed_experts")) ∧
        ∀ chunk ∈ chunks, ∀ choice ∈ chunk.choices.tail,
          Json.getD choice.extras "routed_experts" = .null := by
  let K (d stored : Items Json) : Prop := Json.getD d "routed_experts" ≠ .null →
    Json.getD stored "routed_experts" = Json.getD d "routed_experts"
  refine (forall_upstream_iff (K := K) fun _ some => absurd rfl some).trans (and_congr ?_ ?_)
  · refine forall₂_congr fun choice mem => ?_
    unfold K
    rw [getD_finalChoice_routedExperts, getD_choice_routedExperts]
    refine imp_congr_right fun there => ?_
    cases lastSent ((Direct.choices chunks).map Direct.ChatChoice.extras) "routed_experts" with
    | none => exact iff_of_false (fun same => there same.symm) (by simp)
    | some value => rw [Option.getD_some, Option.some_inj]
  · refine forall₂_congr fun chunk mem => forall₂_congr fun choice later => ?_
    unfold K
    rw [getD_choice_routedExperts]
    refine ⟨fun kept => ?_, fun bare there => absurd bare there⟩
    by_contra there
    exact there (kept there).symm

theorem tokenIdsJson_injective {ids ids' : List Int}
    (h : Direct.tokenIdsJson ids = Direct.tokenIdsJson ids') : ids = ids' :=
  List.map_injective_iff.mpr (fun _ _ same => Json.int.inj same) (Json.arr.inj h)

theorem promptTokenIds_kept_iff :
    (∀ d ∈ chunks.map Direct.ChatChunk.toItems, Json.getD d "prompt_token_ids" ≠ .null →
      storedPromptTokenIds (streamStored request generated chunks) =
        Json.getD d "prompt_token_ids") ↔
      ∀ chunk ∈ chunks, ∀ ids, chunk.promptTokenIds.get = some ids →
        lastPromptTokenIds chunks = some ids := by
  have column : (streamStored request generated chunks).tokenIds = lastPromptTokenIds chunks := by
    change ((Direct.processStream .initial chunks).2.streamPromptTokenIds.or none) = _
    rw [streamPromptTokenIds_eq, Option.or_none]
    exact Option.or_none
  rw [List.forall_mem_map]
  refine forall₂_congr fun chunk mem => ?_
  rw [getD_chunk_promptTokenIds]
  cases there : chunk.promptTokenIds.get with
  | none => simp [Json.ofOption]
  | some ids =>
    have some_ne : Json.ofOption Direct.tokenIdsJson (some ids) ≠ .null := by
      intro h
      cases h
    simp only [some_ne, ne_eq, not_false_eq_true, true_implies, Option.some.injEq, forall_eq']
    have sent : (lastPromptTokenIds chunks).isSome := by
      rw [lastPromptTokenIds, List.getLast?_isSome]
      intro none
      have here : ids ∈ chunks.filterMap fun chunk => chunk.promptTokenIds.get :=
        List.mem_filterMap.mpr ⟨chunk, mem, there⟩
      rw [none] at here
      cases here
    obtain ⟨last, found⟩ := Option.isSome_iff_exists.mp sent
    rw [storedPromptTokenIds, column, found]
    refine ⟨fun same => ?_, fun same => ?_⟩
    · rw [tokenIdsJson_injective same]
    · rw [Option.some.inj same]
      rfl

theorem streamStored_kept_iff :
    Kept (chunks.map Direct.ChatChunk.toItems) (streamStored request generated chunks) ↔
      OneRecord chunks := by
  refine ⟨?_, ?_⟩
  · intro kept
    have tokenIds := tokenIds_kept_iff.mp kept.tokenIds
    have logprobs := logprobs_kept_iff.mp kept.logprobs
    have other := otherLogprobs_kept_iff.mp kept.otherLogprobs
    have routed := routedExperts_kept_iff.mp kept.routedExperts
    refine ⟨?_, other.1, routed.1, promptTokenIds_kept_iff.mp kept.promptTokenIds⟩
    exact fun chunk mem choice later => ⟨tokenIds chunk mem choice later,
      logprobs chunk mem choice later, other.2 chunk mem choice later,
      routed.2 chunk mem choice later⟩
  · intro one
    have bare := one.firstOnly
    exact ⟨tokenIds_kept_iff.mpr
        fun chunk mem choice later => (bare chunk mem choice later).tokenIds,
      logprobs_kept_iff.mpr fun chunk mem choice later => (bare chunk mem choice later).logprobs,
      otherLogprobs_kept_iff.mpr ⟨one.logprobs,
        fun chunk mem choice later => (bare chunk mem choice later).otherLogprobs⟩,
      routedExperts_kept_iff.mpr ⟨one.routedExperts,
        fun chunk mem choice later => (bare chunk mem choice later).routedExperts⟩,
      promptTokenIds_kept_iff.mpr one.promptTokenIds⟩

theorem directStream_kept_iff (calls : DirectStreamCalls) :
    (∀ c ∈ (Run.directStream calls : Run π).handed env request,
      Kept ((takenChunks calls.rounds).map Direct.ChatChunk.toItems) c) ↔
        HiddenWhen env request (Run.directStream calls : Run π) := by
  change (∀ c ∈ ((calls.processStream env).run (.initial request .initial)).2.handed, _) ↔
    (loopRaised calls.exhausted calls.rounds = none → OneRecord (takenChunks calls.rounds))
  rw [directStream_handed]
  cases loopRaised calls.exhausted calls.rounds with
  | some e => simp
  | none =>
    simp only [List.mem_singleton, forall_eq, true_implies]
    exact streamStored_kept_iff

theorem directStream_forwarded (calls : DirectStreamCalls) :
    List.Forall₂ Forwarded ((takenChunks calls.rounds).map Direct.ChatChunk.toItems)
      ((Run.directStream calls : Run π).sent env request) := by
  have sent : (Run.directStream calls : Run π).sent env request =
      (takenChunks calls.rounds).map fun chunk => (Direct.stripChunk chunk).toItems :=
    directStream_sent calls request
  rw [sent, List.forall₂_map_left_iff, List.forall₂_map_right_iff]
  exact List.forall₂_same.mpr fun chunk _ => stripChunk_forwarded chunk

end Stream

/-- Internal fields are hidden and kept for exactly the requests of `HiddenWhen`. -/
theorem hidden_iff (env : Surroundings) (request : Request) (run : Run π) :
    Hidden env request run ↔ HiddenWhen env request run := by
  cases run with
  | token calls =>
    refine ⟨fun h => (token_clean_iff calls request).mp h.clean, fun h => ⟨?_, trivial, trivial⟩⟩
    exact (token_clean_iff calls request).mpr h
  | tokenStream calls =>
    refine ⟨fun _ => trivial, fun _ => ⟨tokenStream_clean calls request, trivial, trivial⟩⟩
  | direct inference =>
    refine ⟨fun _ => trivial, fun _ => ⟨direct_clean inference request, trivial, ?_⟩⟩
    exact direct_kept (π := π) inference request
  | directStream calls =>
    refine ⟨fun h => (directStream_kept_iff (π := π) calls).mp h.kept, fun h => ⟨?_, ?_, ?_⟩⟩
    · intro d mem
      have sent : (Run.directStream calls : Run π).sent env request =
          (takenChunks calls.rounds).map fun chunk => (Direct.stripChunk chunk).toItems :=
        directStream_sent calls request
      rw [sent] at mem
      obtain ⟨chunk, -, rfl⟩ := List.mem_map.mp mem
      exact stripChunk_clean chunk
    · exact directStream_forwarded (π := π) calls
    · exact (directStream_kept_iff (π := π) calls).mpr h

section Leaks

def plainRequest : Request where
  requestId := ⟨"0a", fun c mem => of_decide_eq_true (List.all_eq_true.mp
    (rfl : "0a".toList.all (fun c => decide (c ∈ "0123456789abcdef-".toList)) = true) c mem)⟩
  model := "m"
  sessionId := none
  runId := none
  messages := []
  params := ⟨[], List.nodup_nil, fun _ _ => List.not_mem_nil⟩
  isStream := false
  now := 0

def quiet : Surroundings := ⟨fun _ => "", fun _ => "", fun _ => .stored⟩

/-- A completion with the ids of its text, as the infer service returns it. -/
private def answered : TokenCalls where
  tok := Pipeline.codePoints
  build := Pipeline.plainEnv
  convert := .ok "a"
  encode := .ok [97]
  complete := .ok (Pipeline.oneChoice (.value "h") (.value [104]) (.value "stop"))
  decode := none
  requestParser := .ok Pipeline.noParser
  redecode := none

/-- A chunk with two choices, both with ids. -/
private def twoChoices : Direct.ChatChunk :=
  let choice (ids : List Int) : Direct.ChatChoice :=
    ⟨⟨.missing, .value "h", .missing, .missing, .missing, .missing, []⟩, .value "stop", .missing,
      .value ids, .null, []⟩
  ⟨[choice [104], choice [105]], .missing, .missing, []⟩

/-- The response of a completion shows `token_ids` to the client, and the record
of a stream with two choices has the ids of the first only. -/
theorem internal_fields_leak :
    (¬∀ env request, ∀ run : Run Unit, Hidden env request run) ∧
      ¬∀ env request, ∀ calls : DirectStreamCalls,
        ∀ c ∈ (Run.directStream calls : Run Unit).handed env request,
          Kept ((takenChunks calls.rounds).map Direct.ChatChunk.toItems) c := by
  refine ⟨?_, ?_⟩
  · intro all
    have sent : ∃ d, (Run.token answered : Run Unit).sent quiet plainRequest = [d] ∧
        ∃ choice, choicesOf d = [choice] ∧
          Json.getD choice "token_ids" = .arr [.int 104] := ⟨_, rfl, _, rfl, rfl⟩
    obtain ⟨d, sent, choice, only, ids⟩ := sent
    have clean := (all quiet plainRequest (.token answered)).clean d
      (sent ▸ List.mem_singleton_self d)
    have hidden := clean.choices choice (only ▸ List.mem_singleton_self choice) "token_ids"
      (by decide)
    rw [ids] at hidden
    cases hidden
  · intro all
    let calls : DirectStreamCalls := ⟨[⟨.ok twoChoices, none⟩], none, []⟩
    let c := streamStored plainRequest [] [twoChoices]
    have stored : (Run.directStream calls : Run Unit).handed quiet plainRequest = [c] :=
      directStream_handed calls plainRequest
    have none : choiceAt (c.rawResponse.getD []) 1 = [] := choiceAt_streamed 1
    have kept := (all quiet plainRequest calls c (stored ▸ List.mem_singleton_self c)).tokenIds 1
    rw [none] at kept
    cases kept

end Leaks

end TrajProxy.Record
