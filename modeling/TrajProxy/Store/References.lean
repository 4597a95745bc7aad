import TrajProxy.Store.OffloadingSafety
import TrajProxy.Library.OrderedDict
import TrajProxy.Library.Transition

/-! The reference table and the blob store between all the tasks that use them.
A request's `insert` reserves a row, its upload task puts the blob and marks the
row ready; clients ask for the row and read the blob. The labels of `Exchange`
are what can happen between two suspension points, a call that raises or is
cancelled included, so a run is any interleaving of any number of requests.
Blobs are addressed by name alone, and `sanitizePathSegment` is not injective:
the results are about requests whose blobs have names of their own. -/

namespace TrajProxy.Store
open Transition

/-- The arguments of one `insert` call; `now` is read when the row is built. -/
structure Call (ρ : Type) where
  context : ProcessContext ρ
  runId : Option String
  now : Nat

inductive TaskStage
  /-- `insert` is inside `insert_ref`. -/
  | reserving (serialized : List UInt8)
  /-- The row is committed, `insert_ref` has yet to return. -/
  | reserved (serialized : List UInt8)
  /-- `_upload_and_mark_ready` is inside `put`. -/
  | putting (data : List UInt8)
  /-- `put` is done, `mark_ready` is not. -/
  | stored (data : List UInt8)
  /-- Nothing is left that writes to either store. -/
  | finished

/-- A request, from `insert` to the end of its upload task. -/
structure Task (ρ : Type) where
  call : Call ρ
  stage : TaskStage

/-- `RouteExpertsFetchResult`; `streamed` is what the handle has yielded. -/
inductive RouteExpertsFetchResult
  | notFound
  | uploading (retryAfterSeconds : Nat)
  | ready (blobKey : String) (streamed : List UInt8)
  | consumed

inductive FetchStage
  /-- `get_route_experts` is inside `open_stream`. -/
  | opening (blobKey : String)
  | answered (result : RouteExpertsFetchResult)
  | raised

structure Fetch where
  sessionId : String
  requestId : String
  stage : FetchStage

structure Exchange (ρ : Type) where
  refs : List RefRow
  blobs : OrderedDict String (List UInt8)
  tasks : OrderedDict String (Task ρ)
  fetches : OrderedDict Nat Fetch

inductive ExchangeLabel (ρ : Type)
  | insert (call : Call ρ)
  | insertRef (requestId : String)
  | createTask (requestId : String)
  /-- The first `n` octets of the blob have reached the store. -/
  | write (requestId : String) (n : Nat)
  | put (requestId : String)
  | markReady (requestId : String)
  /-- The call the task is inside raises, or the task is cancelled there. -/
  | fail (requestId : String)
  | markConsumed (requestId : String)
  | getForFetch (client : Nat) (sessionId requestId : String)
  | openStream (client : Nat)
  | openStreamRaises (client : Nat)
  | iterBytes (client : Nat) (n : Nat)

section Tables

/-- `insert_ref`: `ON CONFLICT (request_id) DO NOTHING`. -/
def addRef (refs : List RefRow) (row : RefRow) : List RefRow :=
  if refs.any (·.requestId = row.requestId) then refs else refs ++ [row]

/-- `UPDATE … SET status = new WHERE request_id = … AND status = old`. -/
def updateStatus (old new : RefStatus) (requestId : String) (refs : List RefRow) : List RefRow :=
  refs.map fun row =>
    if row.requestId = requestId ∧ row.status = old then { row with status := new } else row

def markReady : String → List RefRow → List RefRow := updateStatus .uploading .ready

def markConsumed : String → List RefRow → List RefRow := updateStatus .ready .consumed

/-- `get_for_fetch` -/
def getForFetch (refs : List RefRow) (sessionId requestId : String) : Option RefRow :=
  refs.find? fun row => row.sessionId = sessionId ∧ row.requestId = requestId

/-- `get_route_experts` up to `open_stream`. -/
def getRouteExperts : Option RefRow → FetchStage
  | none => .answered .notFound
  | some row =>
    match row.status with
    | .uploading => .answered (.uploading 30)
    | .ready => if row.blobKey = "" then .answered .notFound else .opening row.blobKey
    | .consumed => .answered .consumed

end Tables

variable {ρ : Type} (cfg : Config) (serialise : Json → Except Raised (List UInt8))

namespace Call

def blobKey (call : Call ρ) : String :=
  makeBlobKey cfg call.runId call.context.sessionId call.context.requestId

/-- The request's serialised route_experts, when they are to be offloaded. -/
def offered (call : Call ρ) : Option (List UInt8) :=
  match extract call.context with
  | none => none
  | some (reData, _) =>
    match serialise reData with
    | .error _ => none
    | .ok serialized => if routeExpertsMaxBytes < serialized.length then none else some serialized

def refRow (call : Call ρ) (serialized : List UInt8) : RefRow where
  requestId := call.context.requestId
  sessionId := orUnknown call.context.sessionId
  blobKey := call.blobKey cfg
  backend := cfg.backend
  status := .uploading
  sizeBytes := serialized.length
  expiresAt := call.now + cfg.ttlHours * 3600

end Call

namespace Exchange

def setStage (s : Exchange ρ) (call : Call ρ) (requestId : String) (stage : TaskStage) :
    Exchange ρ :=
  { s with tasks := s.tasks.setItem requestId ⟨call, stage⟩ }

def setFetch (s : Exchange ρ) (client : Nat) (fetch : Fetch) : Exchange ρ :=
  { s with fetches := s.fetches.setItem client fetch }

/-- A request id is used by one `insert` call, a client number by one fetch. -/
def step (s : Exchange ρ) : ExchangeLabel ρ → Option (Exchange ρ)
  | .insert call =>
    if call.context.requestId ∈ s.tasks then none
    else some (s.setStage call call.context.requestId
      (match call.offered serialise with
        | none => .finished
        | some serialized => .reserving serialized))
  | .insertRef requestId =>
    match s.tasks.get requestId with
    | some ⟨call, .reserving serialized⟩ =>
      some { s.setStage call requestId (.reserved serialized) with
        refs := addRef s.refs (call.refRow cfg serialized) }
    | _ => none
  | .createTask requestId =>
    match s.tasks.get requestId with
    | some ⟨call, .reserved serialized⟩ => some (s.setStage call requestId (.putting serialized))
    | _ => none
  | .write requestId n =>
    match s.tasks.get requestId with
    | some ⟨call, .putting data⟩ =>
      some { s with blobs := s.blobs.setItem (call.blobKey cfg) (data.take n) }
    | _ => none
  | .put requestId =>
    match s.tasks.get requestId with
    | some ⟨call, .putting data⟩ =>
      some { s.setStage call requestId (.stored data) with
        blobs := s.blobs.setItem (call.blobKey cfg) data }
    | _ => none
  | .markReady requestId =>
    match s.tasks.get requestId with
    | some ⟨call, .stored _⟩ =>
      some { s.setStage call requestId .finished with refs := markReady requestId s.refs }
    | _ => none
  | .fail requestId =>
    match s.tasks.get requestId with
    | some ⟨call, _⟩ => some (s.setStage call requestId .finished)
    | none => none
  | .markConsumed requestId => some { s with refs := markConsumed requestId s.refs }
  | .getForFetch client sessionId requestId =>
    if client ∈ s.fetches then none
    else some (s.setFetch client
      ⟨sessionId, requestId, getRouteExperts (getForFetch s.refs sessionId requestId)⟩)
  | .openStream client =>
    match s.fetches.get client with
    | some ⟨sessionId, requestId, .opening blobKey⟩ =>
      if blobKey ∈ s.blobs then
        some (s.setFetch client ⟨sessionId, requestId, .answered (.ready blobKey [])⟩)
      else none
    | _ => none
  | .openStreamRaises client =>
    match s.fetches.get client with
    | some ⟨sessionId, requestId, .opening _⟩ =>
      some (s.setFetch client ⟨sessionId, requestId, .raised⟩)
    | _ => none
  | .iterBytes client n =>
    match s.fetches.get client with
    | some ⟨sessionId, requestId, .answered (.ready blobKey streamed)⟩ =>
      (s.blobs.get blobKey).map fun content =>
        s.setFetch client ⟨sessionId, requestId,
          .answered (.ready blobKey (streamed ++ (content.drop streamed.length).take n))⟩
    | _ => none

def machine : Machine (Exchange ρ) (ExchangeLabel ρ) where
  step := step cfg serialise

/-- Both stores empty, no request yet. -/
def start : Exchange ρ := ⟨[], ∅, ∅, ∅⟩

end Exchange

end TrajProxy.Store
