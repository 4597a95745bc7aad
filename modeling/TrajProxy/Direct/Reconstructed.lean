import TrajProxy.Direct.Reconstruction

/-! `_finalize_stream` after any split of a completion. Each accumulated field
is a fold over the pieces of that field alone; the tool calls are grouped by
index, in the order of their first fragments. -/

namespace TrajProxy.Direct

variable {chunks : List ChatChunk} {ctx : DirectContext} {completion : Completion}

def logprobContent (acc : Option Logprobs) : List Json :=
  (acc.bind fun logprobs => logprobs.content.get).getD []

/-- The context after a stream, as folds over its pieces. -/
structure Accumulated (ctx : DirectContext) (chunks : List ChatChunk) (ctx' : DirectContext) :
    Prop where
  text : ctx'.streamBufferText = ((choices chunks).map fun choice =>
    choice.delta.content.text).foldl (· ++ ·) ctx.streamBufferText
  reasoning : ctx'.streamReasoning = ((choices chunks).map fun choice =>
    deltaReasoning choice.delta).foldl (· ++ ·) ctx.streamReasoning
  toolCalls : ctx'.streamToolCalls = ctx.streamToolCalls ++ fragments chunks
  functionCall : ctx'.streamFunctionCall = (functionFragments chunks).foldl
    extendCall ctx.streamFunctionCall
  logprobs : logprobContent ctx'.streamLogprobs =
    logprobContent ctx.streamLogprobs ++ (choices chunks).flatMap logprobPiece
  tokenIds : ctx'.streamTokenIds.getD [] =
    ctx.streamTokenIds.getD [] ++ (choices chunks).flatMap tokenIdPiece
  stopReason : ctx'.streamStopReason = (choices chunks).foldl (fun stop choice =>
    if choice.stopReason.isNull then stop else choice.stopReason) ctx.streamStopReason
  finishReason : ctx'.streamFinishReason = ((choices chunks).map fun choice =>
    choice.finishReason.text).foldl keepTruthy ctx.streamFinishReason
  usage : ctx'.streamUsageFull = (chunks.filterMap chunkUsage).getLast?.or ctx.streamUsageFull

theorem accumulateLogprobs_content (acc : Option Logprobs) (choice : ChatChoice) :
    logprobContent (accumulateLogprobs acc choice) = logprobContent acc ++ logprobPiece choice := by
  unfold accumulateLogprobs
  cases hchoice : choiceLogprobs choice with
  | none =>
    have hpiece : logprobPiece choice = [] := by
      unfold choiceLogprobs at hchoice
      unfold logprobPiece
      cases hget : choice.logprobs.get with
      | none => rfl
      | some logprobs =>
        obtain ⟨content, extras⟩ := logprobs
        rw [hget] at hchoice
        cases content with
        | missing => rfl
        | null => simp [Option.filter, Logprobs.isEmpty] at hchoice
        | value items => simp [Option.filter, Logprobs.isEmpty] at hchoice
    rw [hpiece, List.append_nil]
  | some logprobs =>
    have hget : choice.logprobs.get = some logprobs := (Option.filter_eq_some_iff.mp hchoice).1
    have hpiece : logprobPiece choice = logprobs.content.get.getD [] := by
      rw [logprobPiece, hget, Option.bind_some]
    rw [hpiece]
    cases acc with
    | none => simp [logprobContent]
    | some old =>
      dsimp only
      cases hcontent : logprobs.content.get with
      | none => simp
      | some items =>
        cases items with
        | nil => simp
        | cons item items => simp [logprobContent, Field.get]

theorem accumulateStreamFields_accumulated (ctx : DirectContext) (chunk : ChatChunk) :
    Accumulated ctx [chunk] (accumulateStreamFields ctx chunk) := by
  have husage : ∀ old : Option (Items Json),
      (chunkUsage chunk).or old = ([chunk].filterMap chunkUsage).getLast?.or old := by
    intro old
    cases h : chunkUsage chunk <;> simp [h]
  cases hchoices : chunk.choices with
  | nil =>
    constructor <;>
      simp [accumulateStreamFields, hchoices, accumulateTop, choices, fragments,
        functionFragments, husage]
  | cons choice more =>
    have hrun : accumulateStreamFields ctx chunk =
        accumulateChoice (accumulateDelta (accumulateTop ctx chunk) choice.delta) choice := by
      simp [accumulateStreamFields, hchoices]
    have hall : choices [chunk] = [choice] := by simp [choices, hchoices]
    rw [hrun]
    refine ⟨?_, ?_, ?_, ?_, ?_, ?_, ?_, ?_, ?_⟩
    · simp [hall, accumulateChoice, accumulateDelta, accumulateTop]
    · simp [hall, accumulateChoice, accumulateDelta, accumulateTop]
    · simp [fragments, hall, accumulateChoice, accumulateDelta, accumulateTop]
    · cases hf : functionDelta choice.delta.functionCall <;>
        simp [functionFragments, hall, hf, accumulateChoice, accumulateDelta, accumulateTop]
    · rw [hall, List.flatMap_singleton]
      exact accumulateLogprobs_content _ _
    · rw [hall, List.flatMap_singleton]
      simp only [accumulateChoice, accumulateDelta, accumulateTop, tokenIdPiece]
      cases choice.tokenIds.get with
      | none => simp
      | some ids => cases ids <;> simp
    · simp [hall, accumulateChoice, accumulateDelta, accumulateTop]
    · simp [hall, accumulateChoice, accumulateDelta, accumulateTop]
    · exact husage _

theorem choices_cons (chunk : ChatChunk) (chunks : List ChatChunk) :
    choices (chunk :: chunks) = choices [chunk] ++ choices chunks := by
  rw [choices, choices, choices, ← List.filterMap_append]
  rfl

theorem Accumulated.trans {chunk : ChatChunk} {mid ctx' : DirectContext}
    (first : Accumulated ctx [chunk] mid) (rest : Accumulated mid chunks ctx') :
    Accumulated ctx (chunk :: chunks) ctx' where
  text := by
    rw [rest.text, first.text, choices_cons chunk chunks, List.map_append, List.foldl_append]
  reasoning := by
    rw [rest.reasoning, first.reasoning, choices_cons chunk chunks, List.map_append,
      List.foldl_append]
  toolCalls := by
    rw [rest.toolCalls, first.toolCalls, List.append_assoc, fragments, fragments, fragments,
      choices_cons chunk chunks, List.flatMap_append]
  functionCall := by
    rw [rest.functionCall, first.functionCall, functionFragments, functionFragments,
      functionFragments, choices_cons chunk chunks, List.filterMap_append, List.foldl_append]
  logprobs := by
    rw [rest.logprobs, first.logprobs, choices_cons chunk chunks, List.flatMap_append,
      List.append_assoc]
  tokenIds := by
    rw [rest.tokenIds, first.tokenIds, choices_cons chunk chunks, List.flatMap_append,
      List.append_assoc]
  stopReason := by
    rw [rest.stopReason, first.stopReason, choices_cons chunk chunks, List.foldl_append]
  finishReason := by
    rw [rest.finishReason, first.finishReason, choices_cons chunk chunks, List.map_append,
      List.foldl_append]
  usage := by
    rw [rest.usage, first.usage, ← Option.or_assoc, ← List.getLast?_append,
      ← List.filterMap_append]
    rfl

theorem processStream_accumulated (ctx : DirectContext) (chunks : List ChatChunk) :
    Accumulated ctx chunks (processStream ctx chunks).2 := by
  induction chunks generalizing ctx with
  | nil => constructor <;> simp [processStream, choices, fragments, functionFragments]
  | cons chunk chunks ih =>
    have first := accumulateStreamFields_accumulated ctx chunk
    have counted : Accumulated ctx [chunk] { accumulateStreamFields ctx chunk with
        streamChunkCount := (accumulateStreamFields ctx chunk).streamChunkCount + 1 } :=
      ⟨first.text, first.reasoning, first.toolCalls, first.functionCall, first.logprobs,
        first.tokenIds, first.stopReason, first.finishReason, first.usage⟩
    exact counted.trans (ih _)

section ToolCalls

theorem functionDelta_pieces (tc : ToolCallDelta) (entry : MergedToolCall) :
    (match functionDelta tc.function with
      | none => entry
      | some f => { entry with
        name := keepTruthy entry.name f.name.text
        arguments := entry.arguments ++ f.arguments.text }) =
      { entry with
        name := keepTruthy entry.name tc.namePiece
        arguments := entry.arguments ++ tc.argumentsPiece } := by
  unfold functionDelta ToolCallDelta.namePiece ToolCallDelta.argumentsPiece
  cases tc.function.get with
  | none => simp [Option.filter, keepTruthy]
  | some f =>
    by_cases hempty : f.isEmpty = true
    · obtain ⟨name, arguments, extras⟩ := f
      cases name <;> cases arguments <;> cases extras <;>
        simp_all [Option.filter, FunctionDelta.isEmpty, Field.text, Field.get, keepTruthy]
    · simp [Option.filter, hempty]

theorem merge_eq (entry : MergedToolCall) (tc : ToolCallDelta) :
    entry.merge tc = {
      id := keepTruthyField entry.id tc.id
      type := keepTruthyField entry.type tc.type
      name := keepTruthy entry.name tc.namePiece
      arguments := entry.arguments ++ tc.argumentsPiece } :=
  functionDelta_pieces tc _

theorem keepTruthyField_text (old : Option String) (new : Field String) :
    (keepTruthyField old new).getD "" = keepTruthy (old.getD "") new.text := by
  unfold keepTruthyField keepTruthy
  split_ifs with h
  · rfl
  · rfl

/-- What the fragments of one index make of an entry that is there. -/
theorem foldl_mergeEntry_text (parts : List ToolCallDelta) (entry : MergedToolCall) :
    ∃ merged, parts.foldl (fun entry tc => some (mergeEntry entry tc)) (some entry) = some merged ∧
      merged.toToolCall = {
        id := (parts.map fun tc => tc.id.text).foldl keepTruthy (entry.id.getD "")
        type := (parts.map fun tc => tc.type.text).foldl keepTruthy (entry.type.getD "")
        name := (parts.map ToolCallDelta.namePiece).foldl keepTruthy entry.name
        arguments := (parts.map ToolCallDelta.argumentsPiece).foldl (· ++ ·) entry.arguments } := by
  induction parts generalizing entry with
  | nil => exact ⟨entry, rfl, rfl⟩
  | cons tc parts ih =>
    obtain ⟨merged, hfold, htext⟩ := ih (entry.merge tc)
    refine ⟨merged, hfold, ?_⟩
    rw [htext, merge_eq]
    simp [keepTruthyField_text]

theorem getOr_text (field : Field String) (default : String) :
    (field.getOr default).getD "" = default ∨ (field.getOr default).getD "" = field.text := by
  cases field with
  | missing => exact Or.inl rfl
  | null => exact Or.inr rfl
  | value text => exact Or.inr rfl

/-- The merged tool call of a split one: the name is its last fragment. -/
theorem CallSplit.merged {call : ToolCall} {parts : List ToolCallDelta} (h : CallSplit call parts)
    (htype : call.type = "function") :
    ∃ merged, parts.foldl (fun entry tc => some (mergeEntry entry tc)) none = some merged ∧
      merged.toToolCall = { call with name := lastPiece (parts.map ToolCallDelta.namePiece) } := by
  obtain ⟨first, rest, hparts⟩ := List.exists_cons_of_ne_nil h.nonempty
  obtain ⟨merged, hfold, htext⟩ := foldl_mergeEntry_text parts (.start first)
  refine ⟨merged, ?_, ?_⟩
  · rw [← hfold, hparts]
    rfl
  · have hfirst : first ∈ parts := hparts ▸ List.mem_cons_self
    have hid : (parts.map fun tc => tc.id.text).foldl keepTruthy ((first.id.getOr "").getD "") =
        call.id := by
      apply foldl_keepTruthy_whole h.ids
      rcases getOr_text first.id "" with hdefault | htext
      · exact Or.inl hdefault
      · rw [htext]
        exact h.ids.only _ (List.mem_map_of_mem hfirst)
    have htypes : (parts.map fun tc => tc.type.text).foldl keepTruthy
        ((first.type.getOr "function").getD "") = call.type := by
      rw [htype]
      apply foldl_keepTruthy_whole h.types
      rcases getOr_text first.type "function" with hdefault | htext
      · exact Or.inr hdefault
      · rw [htext]
        exact h.types.only _ (List.mem_map_of_mem hfirst)
    have hname : (parts.map ToolCallDelta.namePiece).foldl keepTruthy "" =
        lastPiece (parts.map ToolCallDelta.namePiece) := by
      rw [foldl_keepTruthy]
      split_ifs with hempty
      · exact hempty.symm
      · rfl
    rw [htext]
    simp only [MergedToolCall.start, hid, htypes, hname]
    rw [← h.arguments]
    rfl

theorem Split.fragment_key (h : Split completion chunks) {tc : ToolCallDelta}
    (hmem : tc ∈ fragments chunks) :
    tc.isEmpty = false ∧ ∃ i < completion.toolCalls.length, tc.key = some i := by
  obtain ⟨i, hi, hindex⟩ := h.indexed tc hmem
  obtain ⟨index, id, type, function, extras⟩ := tc
  dsimp only at hindex
  subst hindex
  exact ⟨rfl, i, hi, rfl⟩

theorem Split.firstIndexes_lt (h : Split completion chunks) {i : Nat}
    (hmem : i ∈ firstIndexes chunks) : i < completion.toolCalls.length := by
  rw [firstIndexes, List.mem_reverse, List.mem_dedup, List.mem_reverse, List.mem_filterMap] at hmem
  obtain ⟨tc, htc, hkey⟩ := hmem
  obtain ⟨_, j, hj, hkey'⟩ := h.fragment_key htc
  rw [hkey'] at hkey
  exact Option.some.inj hkey ▸ hj

/-- The call of an index, with the name the merge gives it. -/
def mergedCall (completion : Completion) (chunks : List ChatChunk) (i : Nat) : ToolCall :=
  { completion.toolCalls[i]?.getD ⟨"", "", "", ""⟩ with
    name := lastPiece ((partsOf chunks i).map ToolCallDelta.namePiece) }

theorem mergedCall_eq {i : Nat} (hi : i < completion.toolCalls.length) :
    mergedCall completion chunks i = { completion.toolCalls[i] with
      name := lastPiece ((partsOf chunks i).map ToolCallDelta.namePiece) } := by
  rw [mergedCall, List.getElem?_eq_getElem hi, Option.getD_some]

theorem Split.mergedToolCalls (h : Split completion chunks) :
    (mergeStreamToolCalls (fragments chunks)).map MergedToolCall.toToolCall =
      (firstIndexes chunks).map (mergedCall completion chunks) := by
  have hkept : (fragments chunks).filter (fun tc => !tc.isEmpty) = fragments chunks := by
    rw [List.filter_eq_self]
    intro tc htc
    rw [(h.fragment_key htc).1]
    rfl
  have hkeys : (fragments chunks).map ToolCallDelta.key =
      ((fragments chunks).filterMap ToolCallDelta.key).map some := by
    rw [List.map_filterMap]
    rw [← List.filterMap_eq_map]
    apply List.filterMap_congr
    intro tc htc
    obtain ⟨_, i, _, hkey⟩ := h.fragment_key htc
    simp [hkey]
  rw [mergeStreamToolCalls, hkept, OrderedDict.values_foldl_updateItem, hkeys, ← List.map_reverse,
    List.dedup_map_of_injective fun _ _ => Option.some.inj, ← List.map_reverse,
    List.filterMap_map, List.map_filterMap, ← List.filterMap_eq_map]
  apply List.filterMap_congr
  intro i hmem
  have hi := h.firstIndexes_lt hmem
  obtain ⟨merged, hfold, htext⟩ := (h.calls i hi).merged
    (h.functionTypes _ (List.getElem_mem hi))
  have hgroup : ((fragments chunks).filter fun tc => tc.key = some i).foldl
      (fun entry tc => some (mergeEntry entry tc)) none = some merged := hfold
  simp only [Function.comp_apply, hgroup, Option.map_some, htext, mergedCall_eq hi]

/-- The merged tool calls are those of the completion exactly if they begin in
order and their last name fragments are whole. -/
theorem Split.toolCalls_iff (h : Split completion chunks) :
    (mergeStreamToolCalls (fragments chunks)).map MergedToolCall.toToolCall =
        completion.toolCalls ↔
      firstIndexes chunks = List.range completion.toolCalls.length ∧
        ∀ i (hi : i < completion.toolCalls.length),
          lastPiece ((partsOf chunks i).map ToolCallDelta.namePiece) =
            completion.toolCalls[i].name := by
  rw [h.mergedToolCalls]
  refine ⟨?_, ?_⟩
  · intro heq
    have hids : (firstIndexes chunks).map (fun i => (mergedCall completion chunks i).id) =
        completion.toolCalls.map ToolCall.id := by
      rw [← heq, List.map_map]
      rfl
    have hindex : ∀ i, i < completion.toolCalls.length →
        (completion.toolCalls.map ToolCall.id).idxOf (mergedCall completion chunks i).id = i := by
      intro i hi
      have hmap : i < (completion.toolCalls.map ToolCall.id).length := by simpa using hi
      have hid : (mergedCall completion chunks i).id =
          (completion.toolCalls.map ToolCall.id)[i] := by
        rw [mergedCall_eq hi, List.getElem_map]
      rw [hid]
      exact h.distinctIds.idxOf_getElem i hmap
    have hrange : (List.range completion.toolCalls.length).map
        (fun i => (mergedCall completion chunks i).id) = completion.toolCalls.map ToolCall.id := by
      apply List.ext_getElem
      · simp
      · intro i hi hi'
        have hlt : i < completion.toolCalls.length := by simpa using hi
        simp [mergedCall_eq hlt]
    have hordered : firstIndexes chunks = List.range completion.toolCalls.length := by
      have hleft : (firstIndexes chunks).map (fun i =>
          (completion.toolCalls.map ToolCall.id).idxOf (mergedCall completion chunks i).id) =
            firstIndexes chunks :=
        (List.map_congr_left fun i hi => hindex i (h.firstIndexes_lt hi)).trans (List.map_id' _)
      have hright : (List.range completion.toolCalls.length).map (fun i =>
          (completion.toolCalls.map ToolCall.id).idxOf (mergedCall completion chunks i).id) =
            List.range completion.toolCalls.length :=
        (List.map_congr_left fun i hi => hindex i (List.mem_range.mp hi)).trans (List.map_id' _)
      have hboth := congrArg (List.map (completion.toolCalls.map ToolCall.id).idxOf)
        (hids.trans hrange.symm)
      rw [List.map_map, List.map_map] at hboth
      exact hleft.symm.trans (hboth.trans hright)
    refine ⟨hordered, fun i hi => ?_⟩
    have hget : (mergedCall completion chunks i).name = completion.toolCalls[i].name := by
      have hlist := heq
      rw [hordered] at hlist
      have hi' : i < ((List.range completion.toolCalls.length).map
        (mergedCall completion chunks)).length := by simpa using hi
      have hentry : ((List.range completion.toolCalls.length).map
          (mergedCall completion chunks))[i] = completion.toolCalls[i] := by
        simp only [hlist]
      rw [← hentry, List.getElem_map, List.getElem_range]
    rwa [mergedCall_eq hi] at hget
  · rintro ⟨hordered, hnames⟩
    rw [hordered]
    apply List.ext_getElem
    · simp
    · intro i hi hi'
      rw [List.getElem_map, List.getElem_range, mergedCall_eq hi', hnames i hi']

end ToolCalls

section FunctionCalls

theorem foldl_extend (parts : List FunctionDelta) (call : FunctionCall) :
    parts.foldl extendCall (some call) = some {
      name := (parts.map fun f => f.name.text).foldl keepTruthy call.name
      arguments := (parts.map fun f => f.arguments.text).foldl (· ++ ·) call.arguments } := by
  induction parts generalizing call with
  | nil => rfl
  | cons f parts ih =>
    exact ih (call.extend f)

theorem foldl_extend_none {parts : List FunctionDelta} (nonempty : parts ≠ []) :
    parts.foldl extendCall none = some {
      name := lastPiece (parts.map fun f => f.name.text)
      arguments := String.join (parts.map fun f => f.arguments.text) } := by
  have hname : (parts.map fun f => f.name.text).foldl keepTruthy "" =
      lastPiece (parts.map fun f => f.name.text) := by
    rw [foldl_keepTruthy]
    split_ifs with hempty
    · exact hempty.symm
    · rfl
  have hstart : parts.foldl extendCall none =
      parts.foldl extendCall (some ⟨"", ""⟩) := by
    obtain ⟨f, rest, rfl⟩ := List.exists_cons_of_ne_nil nonempty
    rfl
  rw [hstart, foldl_extend, hname]
  rfl

theorem Split.functionCall_iff (h : Split completion chunks) :
    (functionFragments chunks).foldl extendCall none =
        completion.functionCall ↔
      ∀ call, completion.functionCall = some call →
        lastPiece ((functionFragments chunks).map fun f => f.name.text) = call.name := by
  have hsplit := h.functionCall
  cases hcall : completion.functionCall with
  | none =>
    rw [hcall] at hsplit
    simp only at hsplit
    simp [hsplit]
  | some call =>
    rw [hcall] at hsplit
    obtain ⟨nonempty, _, arguments⟩ : FunctionSplit call (functionFragments chunks) := hsplit
    rw [foldl_extend_none nonempty, arguments]
    refine ⟨?_, ?_⟩
    · intro heq other hother
      rw [← Option.some.inj hother, ← Option.some.inj heq]
    · intro hname
      rw [hname call rfl]

end FunctionCalls

theorem eq_null_of_isNull {value : Json} (h : value.isNull = true) : value = .null := by
  cases value with
  | null => rfl
  | _ => nomatch h

theorem foldl_stopReason {stop : Json} {choices : List ChatChoice} {start : Json}
    (only : ∀ choice ∈ choices, choice.stopReason.isNull ∨ choice.stopReason = stop)
    (sent : start = stop ∨ stop.isNull = false ∧ ∃ choice ∈ choices, choice.stopReason = stop) :
    choices.foldl (fun stop choice =>
      if choice.stopReason.isNull then stop else choice.stopReason) start = stop := by
  induction choices generalizing start with
  | nil =>
    rcases sent with hstart | ⟨_, _, hmem, _⟩
    · exact hstart
    · nomatch hmem
  | cons choice rest ih =>
    rw [List.foldl_cons]
    apply ih fun other hother => only other (List.mem_cons_of_mem choice hother)
    by_cases hnull : choice.stopReason.isNull = true
    · rw [if_pos hnull]
      rcases sent with hstart | ⟨hsome, other, hmem, hother⟩
      · exact Or.inl hstart
      · rcases List.mem_cons.mp hmem with rfl | hrest
        · rw [hother, hsome] at hnull
          nomatch hnull
        · exact Or.inr ⟨hsome, other, hrest, hother⟩
    · rw [if_neg hnull]
      exact Or.inl ((only choice List.mem_cons_self).resolve_left hnull)

theorem getD_setdefault_null (d : Items Json) (key key' : String) :
    Json.getD (d.setdefault key .null) key' = Json.getD d key' := by
  unfold Items.setdefault
  cases h : d.get? key with
  | some value => rfl
  | none =>
    rw [Json.getD, Json.getD, Items.get?_set]
    split_ifs with heq
    · rw [heq, h]
      rfl
    · rfl

theorem nonemptyText_getD (text : String) : (nonemptyText text).getD "" = text := by
  unfold nonemptyText
  split_ifs with h
  · exact h.symm
  · rfl

/-- From a split of a completion, the stream stores the choice and the usage of
the completion exactly if its tool calls begin in order and the last fragment of
each function name is the whole name. -/
theorem reconstructs_iff (generated : Items Json) (completion : Completion)
    (chunks : List ChatChunk) (h : Split completion chunks) :
    Reconstructs completion
        (finalizeStream generated (processStream .initial chunks).2) ↔
      OrderedWhole completion chunks := by
  have acc := processStream_accumulated .initial chunks
  generalize (processStream .initial chunks).2 = ctx at acc
  have htools : (finalMessage ctx).toolCalls = mergeStreamToolCalls (fragments chunks) :=
    congrArg mergeStreamToolCalls acc.toolCalls
  have hcontent : (finalMessage ctx).content.getD "" = completion.content := by
    have htext : ctx.streamBufferText = completion.content := acc.text.trans h.content
    rw [← htext, finalMessage]
    cases hempty : nonemptyText ctx.streamBufferText with
    | some text => rw [← nonemptyText_getD ctx.streamBufferText, hempty]
    | none =>
      rw [← nonemptyText_getD ctx.streamBufferText, hempty]
      split_ifs <;> rfl
  have hreasoning : (finalMessage ctx).reasoning.getD "" = completion.reasoning := by
    rw [finalMessage, nonemptyText_getD]
    exact acc.reasoning.trans h.reasoning
  have hfinish : (finalChoice ctx).finishReason = completion.finishReason := by
    have hreason : ctx.streamFinishReason = completion.finishReason :=
      acc.finishReason.trans (foldl_keepTruthy_whole h.finishReason (Or.inl rfl))
    rw [finalChoice, hreason, keepTruthy, if_neg h.finished]
  have hstop : (finalChoice ctx).stopReason = completion.stopReason := by
    refine acc.stopReason.trans (foldl_stopReason h.stopReason ?_)
    by_cases hnull : completion.stopReason.isNull = true
    · exact Or.inl (eq_null_of_isNull hnull).symm
    · exact Or.inr ⟨Bool.not_eq_true _ ▸ hnull, h.stopSent.resolve_left hnull⟩
  have husage : ∀ key, Json.getD (finalUsage ctx) key = Json.getD completion.usage key := by
    intro key
    have hfull : (estimateTokens ctx).streamUsageFull = some completion.usage := by
      have hacc := acc.usage
      rw [h.usage, Option.some_or] at hacc
      unfold estimateTokens
      split_ifs <;> exact hacc
    rw [finalUsage, getD_setdefault_null, getD_setdefault_null, hfull, Option.getD_some]
  refine ⟨?_, ?_⟩
  · intro reconstructs
    have htoolCalls := reconstructs.toolCalls
    have hcall := reconstructs.functionCall
    rw [show (finalizeStream generated ctx).choice.message.toolCalls =
      mergeStreamToolCalls (fragments chunks) from htools] at htoolCalls
    obtain ⟨ordered, names⟩ := h.toolCalls_iff.mp htoolCalls
    exact ⟨ordered, names, h.functionCall_iff.mp (acc.functionCall.symm.trans hcall)⟩
  · intro hordered
    exact {
      content := hcontent
      reasoning := hreasoning
      toolCalls := by
        rw [show (finalizeStream generated ctx).choice.message.toolCalls =
          mergeStreamToolCalls (fragments chunks) from htools]
        exact h.toolCalls_iff.mpr ⟨hordered.ordered, hordered.names⟩
      functionCall := acc.functionCall.trans (h.functionCall_iff.mpr hordered.functionName)
      logprobs := acc.logprobs.trans h.logprobs
      tokenIds := acc.tokenIds.trans h.tokenIds
      stopReason := hstop
      finishReason := hfinish
      usage := husage }

section TwoCalls

def wholeFragment (i : Nat) (id name : String) : ToolCallDelta :=
  ⟨.value i, .value id, .value "function", .value ⟨.value name, .value "{}", []⟩, []⟩

def toolCallChunk (parts : List ToolCallDelta) : ChatChunk where
  choices := [{
    delta := ⟨.missing, .missing, .missing, .missing, .value parts, .missing, []⟩
    finishReason := .value "tool_calls"
    logprobs := .missing
    tokenIds := .missing
    stopReason := .null
    extras := [] }]
  usage := .value [("total_tokens", .int 3)]
  promptTokenIds := .missing
  metadata := []

def twoCalls : Completion where
  content := ""
  reasoning := ""
  toolCalls := [⟨"a", "function", "f", "{}"⟩, ⟨"b", "function", "g", "{}"⟩]
  functionCall := none
  logprobs := []
  tokenIds := []
  stopReason := .null
  finishReason := "tool_calls"
  usage := [("total_tokens", .int 3)]

/-- A call that comes in one fragment. -/
theorem callSplit_wholeFragment (i : Nat) (id name : String) :
    CallSplit ⟨id, "function", name, "{}"⟩ [wholeFragment i id name] where
  nonempty := List.cons_ne_nil _ _
  ids := ⟨fun _ h => Or.inr (List.mem_singleton.mp h), Or.inr (List.mem_singleton.mpr rfl)⟩
  types := ⟨fun _ h => Or.inr (List.mem_singleton.mp h), Or.inr (List.mem_singleton.mpr rfl)⟩
  names := Or.inr
    ⟨fun _ h => Or.inr (List.mem_singleton.mp h), Or.inr (List.mem_singleton.mpr rfl)⟩
  arguments := rfl

theorem twoCalls_split {parts : List ToolCallDelta}
    (h : parts = [wholeFragment 0 "a" "f", wholeFragment 1 "b" "g"] ∨
      parts = [wholeFragment 1 "b" "g", wholeFragment 0 "a" "f"]) :
    Split twoCalls [toolCallChunk parts] where
  content := rfl
  reasoning := rfl
  indexed := by
    have hparts : fragments [toolCallChunk parts] = parts := List.append_nil parts
    rw [hparts]
    rcases h with rfl | rfl <;> simp [wholeFragment, twoCalls]
  calls i hi := by
    have hi' : i = 0 ∨ i = 1 := by
      have hlt : i < 2 := hi
      omega
    rcases hi' with rfl | rfl
    · have hpart : partsOf [toolCallChunk parts] 0 = [wholeFragment 0 "a" "f"] := by
        rcases h with rfl | rfl <;> rfl
      rw [hpart]
      exact callSplit_wholeFragment 0 "a" "f"
    · have hpart : partsOf [toolCallChunk parts] 1 = [wholeFragment 1 "b" "g"] := by
        rcases h with rfl | rfl <;> rfl
      rw [hpart]
      exact callSplit_wholeFragment 1 "b" "g"
  functionTypes := by simp [twoCalls]
  distinctIds := by decide
  functionCall := rfl
  logprobs := rfl
  tokenIds := rfl
  stopReason := by simp [choices, toolCallChunk, Json.isNull]
  stopSent := Or.inl rfl
  finishReason :=
    ⟨fun _ h => Or.inr (List.mem_singleton.mp h), Or.inr (List.mem_singleton.mpr rfl)⟩
  finished := by decide
  usage := rfl

theorem reconstructs_ordered :
    Reconstructs twoCalls (finalizeStream [] (processStream .initial
      [toolCallChunk [wholeFragment 0 "a" "f", wholeFragment 1 "b" "g"]]).2) := by
  refine (reconstructs_iff [] twoCalls _ (twoCalls_split (Or.inl rfl))).mpr ⟨rfl, ?_, nofun⟩
  intro i hi
  have hi' : i = 0 ∨ i = 1 := by
    have hlt : i < 2 := hi
    omega
  rcases hi' with rfl | rfl <;> rfl

/-- Two calls whose fragments arrive as second, first are stored in that order. -/
theorem toolCalls_swapped :
    ¬∀ completion chunks, Split completion chunks →
      Reconstructs completion (finalizeStream [] (processStream .initial chunks).2) := by
  intro h
  have split := twoCalls_split (Or.inr rfl)
  have swapped := (h twoCalls _ split).toolCalls
  exact absurd swapped (by decide)

end TwoCalls

end TrajProxy.Direct
