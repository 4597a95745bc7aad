import TrajProxy.Library.Effect
import TrajProxy.Library.Json
import TrajProxy.Library.Separator

/-! `ProcessContext` as `RequestRepository.insert` reads it, and what the two
pipelines share: `_create_context`, `_store_trajectory`, `_handle_error` and the
`try` around the stages of `process`. Of the times only `start_time` is a field;
cache figures are not, and the state of a stream stands beside the context. -/

namespace TrajProxy.Record

/-- `str(uuid.uuid4())`: hexadecimal digits and hyphens. -/
structure RequestId where
  text : String
  uuid : ∀ c ∈ text.toList, c ∈ "0123456789abcdef-".toList

/-- `PARAM_BLACKLIST` of the route. -/
def paramBlacklist : List String := ["model", "messages", "stream"]

/-- The parameters of a request the route passes on. -/
structure RequestParams where
  items : Items Json
  unique : (items.map Prod.fst).Nodup
  passed : ∀ key ∈ paramBlacklist, key ∉ items.map Prod.fst

/-- The arguments of `_create_context`, with the time of the call. -/
structure Request where
  requestId : RequestId
  model : String
  sessionId : Option String
  runId : Option String
  messages : List Json
  params : RequestParams
  isStream : Bool
  now : Nat

/-- `text_response`, a dictionary with these two keys. -/
structure TextResponse where
  responseText : Option String
  responseIds : Option (List Int)

structure ProcessContext where
  requestId : String
  model : String
  sessionId : Option String
  runId : Option String
  uniqueId : String
  messages : List Json
  requestParams : Items Json
  rawRequest : Items Json
  rawResponse : Option (Items Json)
  textRequest : Option (Items Json)
  textResponse : Option TextResponse
  promptText : Option String
  tokenIds : Option (List Int)
  tokenRequest : Option (Items Json)
  tokenResponse : Option (Items Json)
  responseText : Option String
  responseIds : Option (List Int)
  fullConversationText : Option String
  fullConversationTokenIds : Option (List Int)
  startTime : Option Nat
  promptTokens : Json
  completionTokens : Json
  totalTokens : Json
  error : Option String
  errorTraceback : Option String

/-- `f"{session_id},{request_id}" if session_id else request_id` -/
def uniqueId (sessionId : Option String) (requestId : String) : String :=
  match sessionId with
  | none | some "" => requestId
  | some session => session ++ "," ++ requestId

section UniqueId

variable {sessionId sessionId' : Option String} {session requestId requestId' : String}

theorem uniqueId_cases (sessionId : Option String) (requestId : String) :
    (sessionId.getD "" = "" ∧ uniqueId sessionId requestId = requestId) ∨
      (sessionId.getD "" ≠ "" ∧
        uniqueId sessionId requestId = sessionId.getD "" ++ "," ++ requestId) := by
  unfold uniqueId
  split
  · exact .inl ⟨rfl, rfl⟩
  · exact .inl ⟨rfl, rfl⟩
  · next session nonempty =>
    exact .inr ⟨nonempty, rfl⟩

theorem joined_inj {session' : String} (fresh : ',' ∉ requestId.toList)
    (fresh' : ',' ∉ requestId'.toList)
    (same : session ++ "," ++ requestId = session' ++ "," ++ requestId') :
    session = session' ∧ requestId = requestId' := by
  have texts := congrArg String.toList same
  simp only [String.toList_append, List.append_assoc] at texts
  obtain ⟨sessions, requestIds⟩ := Text.join_inj fresh fresh' texts
  exact ⟨String.toList_injective sessions, String.toList_injective requestIds⟩

/-- The ids joined by a comma are the `unique_id` of a request with a session only. -/
theorem uniqueId_eq_joined_iff (fresh : ',' ∉ requestId.toList)
    (fresh' : ',' ∉ requestId'.toList) :
    uniqueId sessionId requestId = session ++ "," ++ requestId' ↔
      sessionId.getD "" ≠ "" ∧ sessionId.getD "" = session ∧ requestId = requestId' := by
  rcases uniqueId_cases sessionId requestId with ⟨empty, eq⟩ | ⟨nonempty, eq⟩
  · rw [eq]
    refine iff_of_false (fun same => fresh ?_) (fun joined => joined.1 empty)
    rw [same, String.toList_append, String.toList_append]
    simp
  · rw [eq]
    constructor
    · exact fun same => ⟨nonempty, joined_inj fresh fresh' same⟩
    · rintro ⟨-, rfl, rfl⟩
      rfl

/-- The id of the request is read back from `unique_id`, whatever the session. -/
theorem uniqueId_inj (fresh : ',' ∉ requestId.toList) (fresh' : ',' ∉ requestId'.toList)
    (same : uniqueId sessionId requestId = uniqueId sessionId' requestId') :
    requestId = requestId' := by
  rcases uniqueId_cases sessionId' requestId' with ⟨empty', eq'⟩ | ⟨-, eq'⟩
  · rcases uniqueId_cases sessionId requestId with ⟨-, eq⟩ | ⟨-, eq⟩
    · exact eq.symm.trans (same.trans eq')
    · have joined := (uniqueId_eq_joined_iff fresh' fresh).mp (same.symm.trans eq)
      exact absurd empty' joined.1
  · exact ((uniqueId_eq_joined_iff fresh fresh').mp (same.trans eq')).2.2

end UniqueId

/-- `{"model": …, "messages": …, "stream": …, **request_params}` -/
def rawRequest (request : Request) : Items Json :=
  Items.update [("model", .str request.model), ("messages", .arr request.messages),
    ("stream", .bool request.isStream)] request.params.items

/-- `_create_context` -/
def createContext (request : Request) : ProcessContext where
  requestId := request.requestId.text
  model := request.model
  sessionId := request.sessionId
  runId := request.runId
  uniqueId := uniqueId request.sessionId request.requestId.text
  messages := request.messages
  requestParams := request.params.items
  rawRequest := rawRequest request
  rawResponse := none
  textRequest := none
  textResponse := none
  promptText := none
  tokenIds := none
  tokenRequest := none
  tokenResponse := none
  responseText := none
  responseIds := none
  fullConversationText := none
  fullConversationTokenIds := none
  startTime := some request.now
  promptTokens := .null
  completionTokens := .null
  totalTokens := .null
  error := none
  errorTraceback := none

/-- The end of one `request_repository.insert`. -/
inductive InsertReply
  | stored
  | databaseError (message : String)
  | raised (e : Raised)

/-- A request on its way; `handed` are the contexts `insert` was called with and
`sent` the chunks yielded to the client, oldest first. -/
structure World (σ : Type) where
  context : ProcessContext
  stream : σ
  handed : List ProcessContext
  sent : List (Items Json)

def World.initial {σ : Type} (request : Request) (stream : σ) : World σ :=
  ⟨createContext request, stream, [], []⟩

/-- How exceptions are written, and what the repository answers. -/
structure Surroundings where
  errorText : Raised → String
  traceback : Raised → String
  insert : Nat → InsertReply

variable {σ α : Type} (env : Surroundings)

/-- A stage, which works on the context alone. -/
def onContext (stage : Py ProcessContext α) : Py (World σ) α := ⟨fun w =>
  let (result, context) := stage.run w.context
  (result, { w with context := context })⟩

/-- `yield chunk`, and how it ends. -/
def yieldChunk (chunk : Items Json) (ends : Option Raised) : Py (World σ) Unit := do
  Py.modify fun w => { w with sent := w.sent ++ [chunk] }
  Py.callAll [ends]

/-- `context.error = f"存储轨迹失败: {str(e)}"` -/
def ProcessContext.notStored (message : String) (c : ProcessContext) : ProcessContext :=
  { c with error := some ("存储轨迹失败: " ++ message) }

/-- `_store_trajectory` -/
def storeTrajectory : Py (World σ) Unit := do
  let w ← Py.read
  Py.modify fun w => { w with handed := w.handed ++ [w.context] }
  match env.insert w.handed.length with
  | .stored => pure ()
  | .databaseError message => onContext (Py.modify (·.notStored message))
  | .raised e => Py.raise e

/-- `_handle_error` -/
def ProcessContext.failed (e : Raised) (c : ProcessContext) : ProcessContext :=
  { c with error := some (env.errorText e), errorTraceback := some (env.traceback e) }

/-- The `except Exception` of both `process` functions. -/
def storeFailed (e : Raised) : Py (World σ) Unit := do
  onContext (Py.modify (·.failed env e))
  Py.tryExcept (storeTrajectory env) fun _ => pure ()
  Py.raise e

/-- Both `process` functions: the stages, the store, and what is done after it. -/
def runStages (stages : Py ProcessContext α) (postprocess : α → Py ProcessContext Unit) :
    Py (World σ) Unit :=
  Py.tryExcept
    (do
      let result ← onContext stages
      storeTrajectory env
      onContext (postprocess result))
    (storeFailed env)

end TrajProxy.Record
