import TrajProxy.Direct.Reconstructed

/-! Streams of several choices. The accumulation takes the first choice of every
chunk and never reads its index, so the stored choice is that of index 0 only
when no chunk carries another one. A choice without data does no harm
(`storedChoice_filter`). -/

namespace TrajProxy.Direct

/-- A chunk with the `index` of its first choice. -/
structure IndexedChunk where
  index : Int
  chunk : ChatChunk

namespace IndexedChunk

/-- The index of the choice it carries, if any. -/
def choiceIndex (c : IndexedChunk) : Option Int := c.chunk.choices.head?.map fun _ => c.index

/-- One of the same choice, and of the same contents if that is choice 0. -/
structure AgreeOnZero (c c' : IndexedChunk) : Prop where
  index : c.choiceIndex = c'.choiceIndex
  zero : c.choiceIndex = some 0 → c.chunk = c'.chunk

theorem AgreeOnZero.refl (c : IndexedChunk) : AgreeOnZero c c := ⟨rfl, fun _ => rfl⟩

end IndexedChunk

def firstChoices (chunks : List IndexedChunk) : List ChatChoice := choices (chunks.map (·.chunk))

def zeroChunks (chunks : List IndexedChunk) : List IndexedChunk :=
  chunks.filter (·.choiceIndex = some 0)

/-- `raw_response["choices"][0]` after the stream. -/
def storedChoice (generated : Items Json) (chunks : List IndexedChunk) : RawChoice :=
  (finalizeStream generated (processStream .initial (chunks.map (·.chunk))).2).choice

/-- The stored choice depends on the chunks of index 0 alone, and its content is
theirs. -/
structure DependsOnZero (generated : Items Json) (chunks : List IndexedChunk) : Prop where
  independent : ∀ chunks', List.Forall₂ IndexedChunk.AgreeOnZero chunks chunks' →
    storedChoice generated chunks' = storedChoice generated chunks
  content : (storedChoice generated chunks).message.content.getD "" =
    String.join ((firstChoices (zeroChunks chunks)).map fun choice => choice.delta.content.text)

section Choices

/-- What the choices of the chunks leave in the context. -/
def accumulateChoices (ctx : DirectContext) (choices : List ChatChoice) : DirectContext :=
  choices.foldl (fun ctx choice => accumulateChoice (accumulateDelta ctx choice.delta) choice) ctx

/-- Forgets what is not stored in the choice. -/
def choicePart (ctx : DirectContext) : DirectContext :=
  { ctx with
    streamResponseMetadata := []
    streamPromptTokenIds := none
    streamUsageFull := none
    promptTokens := .null
    completionTokens := .null
    totalTokens := .null
    streamChunkCount := 0 }

theorem choicePart_processStream (ctx : DirectContext) (chunks : List ChatChunk) :
    choicePart (processStream ctx chunks).2 =
      accumulateChoices (choicePart ctx) (choices chunks) := by
  induction chunks generalizing ctx with
  | nil => rfl
  | cons chunk rest ih =>
    have first : choicePart (accumulateStreamFields ctx chunk) =
        accumulateChoices (choicePart ctx) (choices [chunk]) := by
      unfold accumulateStreamFields
      cases carried : chunk.choices with
      | nil => simp [choices, carried, accumulateChoices, choicePart, accumulateTop]
      | cons choice more =>
        simp [choices, carried, accumulateChoices, choicePart, accumulateTop, accumulateDelta,
          accumulateChoice]
    rw [choices_cons, accumulateChoices, List.foldl_append]
    rw [accumulateChoices] at first
    rw [← first]
    exact ih _

theorem storedChoice_eq (generated : Items Json) (chunks : List IndexedChunk) :
    storedChoice generated chunks =
      finalChoice (accumulateChoices .initial (firstChoices chunks)) := by
  have same := choicePart_processStream .initial (chunks.map (·.chunk))
  change finalChoice (choicePart _) = _
  rw [same]
  rfl

/-- `message["content"]` is the accumulated text, `None` read as empty. -/
theorem content_finalMessage (ctx : DirectContext) :
    (finalMessage ctx).content.getD "" = ctx.streamBufferText := by
  unfold finalMessage nonemptyText
  dsimp only
  by_cases empty : ctx.streamBufferText = ""
  · rw [if_pos empty, empty]
    dsimp only
    split_ifs <;> rfl
  · rw [if_neg empty]
    rfl

theorem content_storedChoice (generated : Items Json) (chunks : List IndexedChunk) :
    (storedChoice generated chunks).message.content.getD "" =
      String.join ((firstChoices chunks).map fun choice => choice.delta.content.text) :=
  (content_finalMessage _).trans (processStream_accumulated .initial (chunks.map (·.chunk))).text

end Choices

/-- A choice without data. -/
structure ChatChoice.Silent (choice : ChatChoice) : Prop where
  role : choice.delta.role.text = ""
  content : choice.delta.content.text = ""
  reasoning : deltaReasoning choice.delta = ""
  toolCalls : choice.delta.toolCalls.get.getD [] = []
  functionCall : functionDelta choice.delta.functionCall = none
  deltaExtras : ∀ item ∈ choice.delta.extras, item.2.isNull = true
  logprobs : choiceLogprobs choice = none
  stopReason : choice.stopReason.isNull = true
  tokenIds : choice.tokenIds.get.getD [] = []
  finishReason : choice.finishReason.text = ""
  extras : ∀ item ∈ choice.extras, item.2.isNull = true

theorem captureItems_null (captured : Items Json) {items : Items Json}
    (null : ∀ item ∈ items, item.2.isNull = true) : captureItems captured items = captured := by
  have none : items.filter (fun item => !item.2.isNull) = [] := by
    rw [List.filter_eq_nil_iff]
    intro item mem
    simp [null item mem]
  unfold captureItems
  rw [none]
  rfl

theorem accumulate_silent (ctx : DirectContext) {choice : ChatChoice} (h : choice.Silent) :
    accumulateChoice (accumulateDelta ctx choice.delta) choice = ctx := by
  have delta : accumulateDelta ctx choice.delta = ctx := by
    unfold accumulateDelta
    rw [h.role, h.content, h.reasoning, h.toolCalls, h.functionCall,
      captureItems_null _ h.deltaExtras]
    simp [keepTruthy]
  have logprobs : accumulateLogprobs ctx.streamLogprobs choice = ctx.streamLogprobs := by
    unfold accumulateLogprobs
    rw [h.logprobs]
  have tokenIds : choice.tokenIds.get = none ∨ choice.tokenIds.get = some [] := by
    have empty := h.tokenIds
    cases ids : choice.tokenIds.get with
    | none => exact .inl rfl
    | some ids' =>
      rw [ids, Option.getD_some] at empty
      exact .inr (congrArg some empty)
  rw [delta]
  unfold accumulateChoice
  rw [logprobs, if_pos h.stopReason, h.finishReason, captureItems_null _ h.extras]
  obtain missing | empty := tokenIds
  · rw [missing]
    simp [keepTruthy]
  · rw [empty]
    simp [keepTruthy]

theorem firstChoices_cons (c : IndexedChunk) (rest : List IndexedChunk) :
    firstChoices (c :: rest) = c.chunk.choices.head?.toList ++ firstChoices rest := by
  unfold firstChoices
  rw [List.map_cons, choices_cons]
  cases carried : c.chunk.choices <;> simp [choices, carried]

/-- Choices without data in the other chunks do no harm. -/
theorem storedChoice_filter (generated : Items Json) {chunks : List IndexedChunk}
    (silent : ∀ c ∈ chunks, c.choiceIndex ≠ some 0 → ∀ choice ∈ c.chunk.choices.head?,
      choice.Silent) :
    storedChoice generated chunks = storedChoice generated (zeroChunks chunks) := by
  have same (ctx : DirectContext) : accumulateChoices ctx (firstChoices chunks) =
      accumulateChoices ctx (firstChoices (zeroChunks chunks)) := by
    induction chunks generalizing ctx with
    | nil => rfl
    | cons c rest ih =>
      rw [List.forall_mem_cons] at silent
      have later := ih silent.2
      unfold zeroChunks at later ⊢
      rw [List.filter_cons]
      split_ifs with zero
      · rw [firstChoices_cons, firstChoices_cons]
        unfold accumulateChoices at later ⊢
        rw [List.foldl_append, List.foldl_append]
        exact later _
      · rw [firstChoices_cons, ← later ctx]
        have quiet := silent.1 (by simpa using zero)
        cases carried : c.chunk.choices.head? with
        | none => rfl
        | some choice =>
          unfold accumulateChoices
          rw [Option.toList_some, List.singleton_append, List.foldl_cons,
            accumulate_silent ctx (quiet choice carried)]
  rw [storedChoice_eq, storedChoice_eq, same]

/-- Every choice in the stream has index 0. -/
def OnlyZero (chunks : List IndexedChunk) : Prop :=
  ∀ c ∈ chunks, ∀ k, c.choiceIndex = some k → k = 0

theorem OnlyZero.firstChoices_eq {chunks chunks' : List IndexedChunk} (only : OnlyZero chunks)
    (agree : List.Forall₂ IndexedChunk.AgreeOnZero chunks chunks') :
    firstChoices chunks' = firstChoices chunks := by
  induction agree with
  | nil => rfl
  | @cons c c' rest rest' same _ ih =>
    have only' : OnlyZero rest := fun d mem => only d (List.mem_cons_of_mem c mem)
    rw [firstChoices_cons, firstChoices_cons, ih only']
    cases index : c.choiceIndex with
    | none =>
      have empty : c.chunk.choices.head? = none := Option.map_eq_none_iff.mp index
      have empty' : c'.chunk.choices.head? = none :=
        Option.map_eq_none_iff.mp (same.index.symm.trans index)
      rw [empty, empty']
    | some k =>
      rw [only c List.mem_cons_self k index] at index
      rw [same.zero index]

/-- Another text in the choice the chunk carries. -/
def IndexedChunk.extend (c : IndexedChunk) : IndexedChunk where
  index := c.index
  chunk := { c.chunk with
    choices := c.chunk.choices.modifyHead fun choice => { choice with
      delta := { choice.delta with content := .value (choice.delta.content.text ++ "x") } } }

theorem foldl_eq_join (pieces : List String) (start : String) :
    pieces.foldl (· ++ ·) start = start ++ String.join pieces := by
  unfold String.join
  induction pieces generalizing start with
  | nil => exact (String.append_empty).symm
  | cons piece rest ih => rw [List.foldl_cons, List.foldl_cons, ih, ih (_ ++ piece),
      String.empty_append, String.append_assoc]

/-- The length of a text around one of its pieces. -/
theorem length_join (front back : List String) (piece : String) :
    (String.join (front ++ piece :: back)).length =
      (String.join front).length + piece.length + (String.join back).length := by
  rw [String.join, List.foldl_append, List.foldl_cons, foldl_eq_join, String.length_append,
    String.length_append]
  rfl

theorem IndexedChunk.agree_extend {c : IndexedChunk} {k : Int} (index : c.choiceIndex = some k)
    (other : k ≠ 0) : c.AgreeOnZero c.extend := by
  refine ⟨?_, fun zero => absurd (Option.some.inj (index.symm.trans zero)) other⟩
  unfold choiceIndex extend
  cases c.chunk.choices <;> rfl

theorem firstChoices_append (front back : List IndexedChunk) :
    firstChoices (front ++ back) = firstChoices front ++ firstChoices back := by
  unfold firstChoices choices
  rw [List.map_append, List.filterMap_append]

/-- A longer text of another choice shows in the stored content. -/
theorem not_dependsOnZero {generated : Items Json} {chunks : List IndexedChunk}
    {c : IndexedChunk} (mem : c ∈ chunks) {k : Int} (index : c.choiceIndex = some k)
    (other : k ≠ 0) : ¬DependsOnZero generated chunks := by
  intro h
  obtain ⟨front, back, rfl⟩ := List.append_of_mem mem
  have same (chunks : List IndexedChunk) : List.Forall₂ IndexedChunk.AgreeOnZero chunks chunks :=
    List.forall₂_same.mpr fun c _ => .refl c
  have agree : List.Forall₂ IndexedChunk.AgreeOnZero (front ++ c :: back)
      (front ++ c.extend :: back) :=
    List.rel_append (same front) (.cons (IndexedChunk.agree_extend index other) (same back))
  obtain ⟨choice, carried, -⟩ := Option.map_eq_some_iff.mp index
  have longer : c.extend.chunk.choices.head? = some { choice with
      delta := { choice.delta with content := .value (choice.delta.content.text ++ "x") } } := by
    unfold IndexedChunk.extend
    cases choices : c.chunk.choices with
    | nil =>
      rw [choices] at carried
      cases carried
    | cons first more =>
      rw [choices] at carried
      cases carried
      rfl
  have lengths := congrArg (fun choice : RawChoice => (choice.message.content.getD "").length)
    (h.independent _ agree)
  simp only [content_storedChoice, firstChoices_append, firstChoices_cons, longer, carried,
    Option.toList_some, List.map_append, List.map_cons, List.singleton_append,
    length_join] at lengths
  have grown : (Field.value (choice.delta.content.text ++ "x")).text.length =
      choice.delta.content.text.length + 1 := String.length_append ..
  omega

/-- The stored choice depends on the chunks of index 0 alone exactly if the
stream carries no other index. -/
theorem dependsOnZero_iff (generated : Items Json) (chunks : List IndexedChunk) :
    DependsOnZero generated chunks ↔ OnlyZero chunks := by
  refine ⟨fun h c mem k index => ?_, fun only => ⟨?_, ?_⟩⟩
  · by_contra other
    exact not_dependsOnZero mem index other h
  · intro chunks' agree
    rw [storedChoice_eq, storedChoice_eq, only.firstChoices_eq agree]
  · rw [storedChoice_filter generated (fun c mem index choice carried => ?_),
      content_storedChoice]
    have zero := only c mem c.index (by rw [IndexedChunk.choiceIndex, carried]; rfl)
    rw [IndexedChunk.choiceIndex, carried, zero] at index
    exact absurd rfl index

/-- The text of choice 1 is stored behind that of choice 0. -/
theorem secondary_choice_stored :
    ¬∀ (generated : Items Json) (chunks : List IndexedChunk), DependsOnZero generated chunks := by
  intro always
  let chunk (index : Int) (text : String) : IndexedChunk :=
    ⟨index, ⟨[⟨⟨.missing, .value text, .missing, .missing, .missing, .missing, []⟩,
      .missing, .missing, .missing, .null, []⟩], .missing, .missing, []⟩⟩
  have content := (always [] [chunk 0 "a", chunk 1 "b"]).content
  have stored : (storedChoice [] [chunk 0 "a", chunk 1 "b"]).message.content = some "ab" := by
    decide
  rw [stored] at content
  exact absurd content (by decide)

end TrajProxy.Direct
