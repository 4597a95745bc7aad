import TrajProxy.Library.Json
import TrajProxy.Library.Effect
import TrajProxy.Library.Text

/-! `OffloadingRepository.insert`: route_experts leaves the trajectory record,
a reference row and a background upload take its place.
The outcome of every fallible call (serialisation in the thread pool, the
reference insert, each `inner.insert`) is a field of `Env`, so a theorem about
all environments is about all combinations of outcomes.
A started upload task is recorded with its arguments; the task itself runs
after `insert` and is not part of the call. -/

namespace TrajProxy.Store
open Text

/-- `_UNKNOWN_SEGMENT` -/
def unknownSegment : String := "unknown"

/-- `_ROUTE_EXPERTS_MAX_BYTES` -/
def routeExpertsMaxBytes : Nat := 50 * 1024 * 1024

/-- The part of `ProcessContext` the decorator reads or writes. The remaining
fields travel to `inner.insert` untouched, as `rest`. -/
structure ProcessContext (ρ : Type) where
  requestId : String
  sessionId : Option String
  tokenResponse : Json
  rawResponse : Json
  rest : ρ

/-- The response attribute route_experts was found in. -/
inductive SourceField | tokenResponse | rawResponse
  deriving DecidableEq

inductive RefStatus | uploading | ready | consumed
  deriving DecidableEq

/-- A row of `r3_blob_refs`; `request_id` is its primary key. -/
structure RefRow where
  requestId : String
  sessionId : String
  blobKey : String
  backend : String
  status : RefStatus
  sizeBytes : Nat
  expiresAt : Nat
  deriving DecidableEq

/-- The arguments of one `_upload_and_mark_ready` task. -/
structure Upload where
  blobKey : String
  data : List UInt8
  requestId : String
  deriving DecidableEq

structure Config where
  backend : String
  endpoint : String
  bucket : String
  accessPath : String
  ttlHours : Nat
  blobKeyPrefix : String

/-- What the surroundings of one call decide. `inner n` is the outcome of the
call number `n` of `inner.insert`. -/
structure Env where
  config : Config
  serialise : Json → Except Raised (List UInt8)
  now : Nat
  insertRefRaises : Option Raised
  inner : Nat → Option Raised

structure World (ρ : Type) where
  context : ProcessContext ρ
  refs : List RefRow
  uploads : List Upload
  /-- the contexts `inner.insert` was called with, oldest first -/
  handed : List (ProcessContext ρ)

/-- `segment.replace("..", "_")` on the characters. -/
def replaceDots : List Char → List Char
  | '.' :: '.' :: rest => '_' :: replaceDots rest
  | c :: rest => c :: replaceDots rest
  | [] => []

/-- `_sanitize_path_segment` -/
def sanitizePathSegment (segment : String) : String :=
  let sanitized := String.ofList
    (replaceDots (replaceChar (replaceChar segment '/' '_') '\\' '_').toList)
  if sanitized = "" then unknownSegment else sanitized

/-- `value or _UNKNOWN_SEGMENT` -/
def orUnknown : Option String → String
  | none => unknownSegment
  | some value => if value = "" then unknownSegment else value

/-- `_make_blob_key` -/
def makeBlobKey (cfg : Config) (runId sessionId : Option String) (requestId : String) : String :=
  cfg.blobKeyPrefix ++ "/" ++ sanitizePathSegment (orUnknown runId) ++ "/" ++
    sanitizePathSegment (orUnknown sessionId) ++ "/" ++
    sanitizePathSegment requestId ++ ".json"

/-- `_build_marker` -/
def buildMarker (cfg : Config) (blobKey : String) : Json :=
  if cfg.backend = "csb" then
    .obj [("_offloaded", .bool true), ("backend", .str "csb"),
      ("location", .obj [("endpoint", .str cfg.endpoint), ("bucket", .str cfg.bucket),
        ("key", .str blobKey)])]
  else
    .obj [("_offloaded", .bool true), ("backend", .str "local"),
      ("location", .obj [("path", .str (cfg.accessPath ++ "/" ++ blobKey))])]

/-- `isinstance(v, dict) and v.get("_offloaded") is True` -/
def isMarker : Json → Bool
  | .obj items =>
    match Items.get? items "_offloaded" with
    | some (.bool true) => true
    | _ => false
  | _ => false

/-- `data["choices"][0]` when it is a dictionary inside a non-empty list. -/
def firstChoice : Json → Option (Items Json)
  | .obj items =>
    match Items.get? items "choices" with
    | some (.arr (.obj choice :: _)) => some choice
    | _ => none
  | _ => none

/-- The route_experts of one response, unless it is a marker already. -/
def extractFrom (data : Json) : Option Json :=
  match firstChoice data with
  | some choice =>
    match choice.get? "routed_experts" with
    | some value => if isMarker value then none else some value
    | none => none
  | none => none

/-- Assignment to `data["choices"][0]["routed_experts"]`. -/
def setRoutedExperts (value : Json) : Json → Json
  | .obj items =>
    match Items.get? items "choices" with
    | some (.arr (.obj choice :: choices)) =>
      .obj (Items.set items "choices"
        (.arr (.obj (Items.set choice "routed_experts" value) :: choices)))
    | _ => .obj items
  | data => data

/-- `data` with `choices[0].routed_experts` left out. -/
def dropRoutedExperts : Json → Json
  | .obj items =>
    match Items.get? items "choices" with
    | some (.arr (.obj choice :: choices)) =>
      .obj (Items.set items "choices"
        (.arr (.obj (Items.erase choice "routed_experts") :: choices)))
    | _ => .obj items
  | data => data

section Insert

variable {ρ : Type}

namespace ProcessContext

def response (context : ProcessContext ρ) : SourceField → Json
  | .tokenResponse => context.tokenResponse
  | .rawResponse => context.rawResponse

def assign (context : ProcessContext ρ) (value : Json) : SourceField → ProcessContext ρ
  | .tokenResponse => { context with
      tokenResponse := setRoutedExperts value context.tokenResponse }
  | .rawResponse => { context with
      rawResponse := setRoutedExperts value context.rawResponse }

/-- Everything but the two route_experts places. -/
def frame (context : ProcessContext ρ) : ProcessContext ρ :=
  { context with
    tokenResponse := dropRoutedExperts context.tokenResponse
    rawResponse := dropRoutedExperts context.rawResponse }

end ProcessContext

/-- `_extract`: token_response first, then raw_response. -/
def extract (context : ProcessContext ρ) : Option (Json × SourceField) :=
  match extractFrom context.tokenResponse with
  | some value => some (value, .tokenResponse)
  | none =>
    match extractFrom context.rawResponse with
    | some value => some (value, .rawResponse)
    | none => none

/-- One call of `inner.insert(context, …)`. -/
def innerInsert (env : Env) : Py (World ρ) Unit := do
  let w ← Py.read
  Py.modify fun w => { w with handed := w.handed ++ [w.context] }
  match env.inner w.handed.length with
  | some e => Py.raise e
  | none => pure ()

/-- `R3RefRepository.insert_ref`: `ON CONFLICT (request_id) DO NOTHING`. -/
def insertRef (env : Env) (row : RefRow) : Py (World ρ) Unit :=
  match env.insertRefRaises with
  | some e => Py.raise e
  | none => Py.modify fun w =>
      if w.refs.any (·.requestId = row.requestId) then w
      else { w with refs := w.refs ++ [row] }

/-- Step 3 of `insert`. The `try` yields the serialised bytes when offloading
goes on, and `none` where the source returns from inside the statement. -/
def reserve (env : Env) (runId : Option String) (reData : Json) :
    Py (World ρ) (Option (List UInt8)) := do
  let w ← Py.read
  Py.tryExcept
    (do
      let serialized ← Py.ofExcept (env.serialise reData)
      if routeExpertsMaxBytes < serialized.length then
        innerInsert env
        pure none
      else
        insertRef env
          { requestId := w.context.requestId
            sessionId := orUnknown w.context.sessionId
            blobKey := makeBlobKey env.config runId w.context.sessionId w.context.requestId
            backend := env.config.backend
            status := .uploading
            sizeBytes := serialized.length
            expiresAt := env.now + env.config.ttlHours * 3600 }
        pure (some serialized))
    (fun _ => do
      innerInsert env
      pure none)

/-- Steps 4 to 6 of `insert`: start the upload, put the marker, delegate. -/
def offload (env : Env) (runId : Option String) (reData : Json) (sourceField : SourceField)
    (serialized : List UInt8) : Py (World ρ) Unit := do
  let w ← Py.read
  let blobKey := makeBlobKey env.config runId w.context.sessionId w.context.requestId
  Py.modify fun w => { w with
    uploads := w.uploads ++ [⟨blobKey, serialized, w.context.requestId⟩] }
  Py.modify fun w => { w with
    context := w.context.assign (buildMarker env.config blobKey) sourceField }
  Py.tryExcept (innerInsert env) fun e => do
    Py.modify fun w => { w with context := w.context.assign reData sourceField }
    Py.raise e

/-- `OffloadingRepository.insert` -/
def insert (env : Env) (runId : Option String) : Py (World ρ) Unit := do
  let w ← Py.read
  match extract w.context with
  | none => innerInsert env
  | some (reData, sourceField) =>
    match ← reserve env runId reData with
    | none => pure ()
    | some serialized => offload env runId reData sourceField serialized

end Insert

end TrajProxy.Store
