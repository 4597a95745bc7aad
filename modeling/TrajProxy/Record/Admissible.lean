import TrajProxy.Library.JsonText
import TrajProxy.Record.Compact

/-! When the two rows of a context meet the constraints of their tables. A JSON
column never has a NUL character and `unique_id` tells requests apart; a TEXT
column has one exactly if its text does. -/

namespace TrajProxy.Record

variable {π : Type} {env : Surroundings} {request : Request} {c : ProcessContext}

section Constraints

def NulFree (text : String) : Prop := '\x00' ∉ text.toList

instance : DecidablePred NulFree := fun _ => inferInstanceAs (Decidable (_ ∉ _))

/-- The columns of type `TEXT`. -/
def MetadataRow.textColumns (row : MetadataRow) : List (Option String) :=
  [row.uniqueId, row.requestId, row.sessionId, row.runId, row.model, row.error]

def DetailRow.textColumns (row : DetailRow) : List (Option String) :=
  [row.uniqueId, row.tokenizerPath, row.promptText, row.responseText, row.fullConversationText,
    row.errorTraceback]

/-- The columns of type `JSON`. -/
def DetailRow.jsonColumns (row : DetailRow) : List (Option Json) :=
  [row.messages, row.rawRequest, row.rawResponse, row.textRequest, row.textResponse,
    row.tokenRequest, row.tokenResponse]

/-- The constraints of `request_metadata`. -/
structure MetadataRow.Admissible (row : MetadataRow) : Prop where
  uniqueId : row.uniqueId ≠ none
  requestId : row.requestId ≠ none
  sessionId : row.sessionId ≠ none
  model : row.model ≠ none
  startTime : row.startTime ≠ none
  texts : ∀ column ∈ row.textColumns, ∀ text ∈ column, NulFree text

/-- The constraints of `request_details_active`. -/
structure DetailRow.Admissible (floats : JsonText.FloatText) (row : DetailRow) : Prop where
  uniqueId : row.uniqueId ≠ none
  messages : row.messages ≠ none
  texts : ∀ column ∈ row.textColumns, ∀ text ∈ column, NulFree text
  json : ∀ column ∈ row.jsonColumns, ∀ value ∈ column, '\x00' ∉ JsonText.dumps floats value

/-- The texts that are written as they are have no NUL character. -/
structure NulFreeTexts (tokenizerPath : String) (c : ProcessContext) : Prop where
  sessionId : ∀ text ∈ c.sessionId, NulFree text
  runId : ∀ text ∈ c.runId, NulFree text
  model : NulFree c.model
  tokenizerPath : NulFree tokenizerPath
  promptText : ∀ text ∈ c.promptText, NulFree text
  responseText : ∀ text ∈ c.responseText, NulFree text
  error : ∀ text ∈ c.error, NulFree text
  errorTraceback : ∀ text ∈ c.errorTraceback, NulFree text

end Constraints

section Columns

theorem nulFree_append {text text' : String} (h : NulFree text) (h' : NulFree text') :
    NulFree (text ++ text') := by
  unfold NulFree
  rw [String.toList_append, List.mem_append, not_or]
  exact ⟨h, h'⟩

/-- `text or ""` -/
theorem nulFree_getD_iff (text : Option String) :
    NulFree (text.getD "") ↔ ∀ text' ∈ text, NulFree text' := by
  cases text with
  | none =>
    have empty : NulFree "" := List.not_mem_nil
    exact iff_of_true empty fun _ there => nomatch there
  | some text => simp

theorem requestId_nulFree (id : RequestId) : NulFree id.text := by
  intro mem
  have digit := id.uuid _ mem
  revert digit
  decide

theorem uniqueId_nulFree (id : RequestId) {sessionId : Option String}
    (session : ∀ text ∈ sessionId, NulFree text) : NulFree (uniqueId sessionId id.text) := by
  unfold uniqueId
  split
  · exact requestId_nulFree id
  · exact requestId_nulFree id
  · next text _ =>
    have comma : NulFree "," := by decide
    exact nulFree_append (nulFree_append (session text rfl) comma) (requestId_nulFree id)

/-- `json.dumps` escapes what is not printable. -/
theorem dumps_nulFree (floats : JsonText.FloatText) (value : Json) :
    '\x00' ∉ JsonText.dumps floats value := by
  intro mem
  have printable := JsonText.dumps_printable value _ mem
  revert printable
  decide

theorem textColumns_detailRow (mode : StorageMode) (tokenizerPath : String) (c : ProcessContext) :
    (detailRow mode tokenizerPath c).textColumns =
      [some c.uniqueId, some tokenizerPath, some (c.promptText.getD ""), c.responseText,
        c.fullConversationText, c.errorTraceback] := by
  cases mode <;> rfl

/-- `messages` is `NULL` in a full row without messages only. -/
theorem messages_detailRow (mode : StorageMode) (tokenizerPath : String) (c : ProcessContext) :
    (detailRow mode tokenizerPath c).messages ≠ none ↔ mode = .compact ∨ c.messages ≠ [] := by
  cases mode with
  | compact => exact iff_of_true (Option.some_ne_none _) (Or.inl rfl)
  | full =>
    change (if c.messages.isEmpty then none else some (Json.arr c.messages)) ≠ none ↔ _
    cases c.messages with
    | nil => simp
    | cons message messages => simp

end Columns

section UniqueId

theorem notMem_requestId (id : RequestId) : ',' ∉ id.text.toList := by
  intro mem
  have digit := id.uuid _ mem
  revert digit
  decide

theorem uniqueId_ne {id id' : RequestId} (h : id.text ≠ id'.text)
    (sessionId sessionId' : Option String) :
    uniqueId sessionId id.text ≠ uniqueId sessionId' id'.text :=
  fun same => h (uniqueId_inj (notMem_requestId id) (notMem_requestId id') same)

end UniqueId

section Rows

theorem handed_coherent (env : Surroundings) (request : Request) (run : Run π) :
    ∀ c ∈ run.handed env request, Coherent request c := by
  cases run with
  | token calls => exact token_coherent calls request
  | tokenStream calls => exact tokenStream_coherent calls request
  | direct inference => exact fun c mem => (direct_plain inference request c mem).coherent
  | directStream calls => exact fun c mem => (directStream_plain calls request c mem).coherent

theorem handed_conversed (env : Surroundings) (request : Request) (run : Run π) :
    ∀ c ∈ run.handed env request, Conversed c := by
  cases run with
  | token calls => exact token_conversed calls request
  | tokenStream calls => exact tokenStream_conversed calls request
  | direct inference =>
    exact fun c mem => conversed_of_none (direct_plain inference request c mem).fullText
  | directStream calls =>
    exact fun c mem => conversed_of_none (directStream_plain calls request c mem).fullText

/-- The texts of both rows, of which those derived from others add no NUL character. -/
theorem texts_iff (ofRequest : OfRequest request c) (conversed : Conversed c) (mode : StorageMode)
    (tokenizerPath : String) :
    ((∀ column ∈ (metadataRow c).textColumns, ∀ text ∈ column, NulFree text) ∧
        ∀ column ∈ (detailRow mode tokenizerPath c).textColumns, ∀ text ∈ column, NulFree text) ↔
      NulFreeTexts tokenizerPath c := by
  have uniqueId : c.uniqueId = uniqueId c.sessionId request.requestId.text := by
    have session : c.sessionId = request.sessionId := congrArg Identity.sessionId ofRequest
    rw [session]
    exact congrArg Identity.uniqueId ofRequest
  have requestId : c.requestId = request.requestId.text := congrArg Identity.requestId ofRequest
  rw [textColumns_detailRow]
  change ((∀ column ∈ [some c.uniqueId, some c.requestId, some (c.sessionId.getD ""), c.runId,
    some c.model, c.error], ∀ text ∈ column, NulFree text) ∧ _) ↔ _
  simp only [List.forall_mem_cons, Option.mem_some_iff, forall_eq', nulFree_getD_iff]
  refine ⟨?_, fun h => ⟨⟨?_, ?_, h.sessionId, h.runId, h.model, h.error, fun _ mem => nomatch mem⟩,
    ?_, h.tokenizerPath, h.promptText, h.responseText, ?_, h.errorTraceback,
    fun _ mem => nomatch mem⟩⟩
  · intro ⟨⟨_, _, sessionId, runId, model, error, _⟩, _, path, prompt, response, _, traceback, _⟩
    exact ⟨sessionId, runId, model, path, prompt, response, error, traceback⟩
  · rw [uniqueId]
    exact uniqueId_nulFree request.requestId h.sessionId
  · rw [requestId]
    exact requestId_nulFree request.requestId
  · rw [uniqueId]
    exact uniqueId_nulFree request.requestId h.sessionId
  · intro text there
    obtain ⟨prompt, response, promptText, responseText, rfl⟩ := conversed text there
    exact nulFree_append (h.promptText prompt promptText) (h.responseText response responseText)

theorem admissible_iff (coherent : Coherent request c) (conversed : Conversed c)
    (floats : JsonText.FloatText) (mode : StorageMode) (tokenizerPath : String) :
    ((metadataRow c).Admissible ∧ (detailRow mode tokenizerPath c).Admissible floats) ↔
      (mode = .compact ∨ request.messages ≠ []) ∧ NulFreeTexts tokenizerPath c := by
  have messages : c.messages = request.messages :=
    congrArg Identity.messages coherent.ofRequest
  have startTime : c.startTime = some request.now :=
    congrArg Identity.startTime coherent.ofRequest
  rw [← texts_iff coherent.ofRequest conversed mode tokenizerPath, ← messages,
    ← messages_detailRow mode tokenizerPath c]
  refine ⟨fun ⟨metadata, detail⟩ => ⟨detail.messages, metadata.texts, detail.texts⟩, ?_⟩
  intro ⟨messages, metadata, detail⟩
  refine ⟨⟨?_, ?_, ?_, ?_, ?_, metadata⟩, ⟨?_, messages, detail, ?_⟩⟩
  · exact Option.some_ne_none _
  · exact Option.some_ne_none _
  · exact Option.some_ne_none _
  · exact Option.some_ne_none _
  · exact ne_of_eq_of_ne startTime (Option.some_ne_none _)
  · cases mode <;> exact Option.some_ne_none _
  · exact fun _ _ value _ => dumps_nulFree floats value

/-- Unless an empty list of messages is to be stored in full, the rows are rejected for
a NUL character in one of these texts only. -/
theorem rows_admissible_iff (env : Surroundings) (request : Request) (run : Run π)
    (floats : JsonText.FloatText) (mode : StorageMode) (tokenizerPath : String)
    (stored : mode = .compact ∨ request.messages ≠ []) :
    ∀ c ∈ run.handed env request,
      (((metadataRow c).Admissible ∧ (detailRow mode tokenizerPath c).Admissible floats) ↔
        NulFreeTexts tokenizerPath c) ∧
      ∀ env' request' (π' : Type) (run' : Run π'), ∀ c' ∈ run'.handed env' request',
        request'.requestId.text ≠ request.requestId.text → c'.uniqueId ≠ c.uniqueId := by
  intro c mem
  have coherent := handed_coherent env request run c mem
  have conversed := handed_conversed env request run c mem
  refine ⟨?_, ?_⟩
  · rw [admissible_iff coherent conversed floats mode tokenizerPath]
    exact and_iff_right stored
  · intro env' request' π' run' c' mem' other
    have coherent' := handed_coherent env' request' run' c' mem'
    have uniqueId : c.uniqueId = _ := congrArg Identity.uniqueId coherent.ofRequest
    have uniqueId' : c'.uniqueId = _ := congrArg Identity.uniqueId coherent'.ofRequest
    rw [uniqueId, uniqueId']
    exact uniqueId_ne other request'.sessionId request.sessionId

/-- No float is written in the rows below. -/
private def zeros : JsonText.FloatText where
  text _ := ['0']
  printable _ c mem := by
    rw [List.mem_singleton.mp mem]
    decide

/-- A failed request without messages is stored in compact mode. -/
theorem rows_admissible_unanswered :
    ∃ c, (Run.token unanswered : Run Unit).handed quiet plainRequest = [c] ∧
      (metadataRow c).Admissible ∧ (detailRow .compact "" c).Admissible zeros := by
  have stored : ∃ c, (Run.token unanswered : Run Unit).handed quiet plainRequest = [c] ∧
      c.sessionId = none ∧ c.runId = none ∧ c.model = "m" ∧ c.promptText = some "a" ∧
      c.responseText = none ∧ c.error = some "" ∧ c.errorTraceback = some "" :=
    ⟨_, rfl, rfl, rfl, rfl, rfl, rfl, rfl, rfl⟩
  obtain ⟨c, only, sessionId, runId, model, prompt, response, error, traceback⟩ := stored
  have mem := only ▸ List.mem_singleton_self c
  refine ⟨c, only, (rows_admissible_iff quiet plainRequest (.token unanswered) zeros .compact ""
    (Or.inl rfl) c mem).1.mpr ⟨?_, ?_, ?_, ?_, ?_, ?_, ?_, ?_⟩⟩
  all_goals simp [sessionId, runId, model, prompt, response, error, traceback, NulFree]

end Rows

section Rejected

/-- A chat completion whose text has a NUL character. -/
private def nulText : ChatResponse where
  choices := .value [⟨.value ⟨.value "\x00", []⟩, .missing, []⟩]
  usage := .missing
  promptTokenIds := .missing
  items := []

/-- A NUL character in the text of the response, and in full mode an empty list of
messages, make a row that is rejected. -/
theorem rows_rejected :
    (¬∀ env request floats tokenizerPath, ∀ run : Run Unit, ∀ c ∈ run.handed env request,
      (metadataRow c).Admissible ∧ (detailRow .compact tokenizerPath c).Admissible floats) ∧
    ¬∀ env request floats tokenizerPath, ∀ run : Run Unit, ∀ c ∈ run.handed env request,
      (metadataRow c).Admissible ∧ (detailRow .full tokenizerPath c).Admissible floats := by
  refine ⟨fun all => ?_, fun all => ?_⟩
  · let run : Run Unit := .direct (.ok nulText)
    have stored : ∃ c, run.handed quiet plainRequest = [c] ∧ c.responseText = some "\x00" :=
      ⟨_, rfl, rfl⟩
    obtain ⟨c, only, response⟩ := stored
    have mem := only ▸ List.mem_singleton_self c
    have texts := ((admissible_iff (handed_coherent _ _ _ c mem) (handed_conversed _ _ _ c mem)
      zeros .compact "").mp (all quiet plainRequest zeros "" run c mem)).2
    exact absurd (texts.responseText "\x00" response) (by decide)
  · let run : Run Unit := .token unanswered
    have stored : ∃ c, run.handed quiet plainRequest = [c] := ⟨_, rfl⟩
    obtain ⟨c, only⟩ := stored
    have mem := only ▸ List.mem_singleton_self c
    have messages := (all quiet plainRequest zeros "" run c mem).2.messages
    rw [messages_detailRow] at messages
    have none : c.messages = [] :=
      congrArg Identity.messages (handed_coherent quiet plainRequest run c mem).ofRequest
    simp [none] at messages

end Rejected

end TrajProxy.Record
