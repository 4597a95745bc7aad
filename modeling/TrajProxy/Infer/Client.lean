import TrajProxy.Library.Json
import TrajProxy.Library.Loop
import TrajProxy.Library.Text
import Mathlib.Algebra.Group.Nat.Defs

/-! `InferClient`: the two request helpers with their retry loops.
The upstream is a script that says how each attempt goes; `json.loads` is a
parameter. Every request sent, pause and chunk handed to the caller is an event
of the call's trace. -/

namespace TrajProxy.Infer

/-- The subclasses of `httpx.RequestError` that `_wrap_request_error` tells
apart. -/
inductive RequestErrorKind
  | connectTimeout
  | readTimeout
  | other
  deriving DecidableEq

structure RequestError where
  kind : RequestErrorKind
  message : String
  deriving DecidableEq

/-- The two httpx exceptions with an `except` clause. The text of a response is
`none` when its body was never read. -/
inductive HttpxError
  | status (code : Nat) (text : Option String)
  | request (e : RequestError)

/-- `JSONDecodeError`, or what else `json.loads` raises: a `ValueError` for an
integer of too many digits, a `RecursionError`. -/
inductive LoadsError
  | jsonDecodeError
  | other
  deriving DecidableEq

/-- An exception that leaves a helper. -/
inductive Error
  | inferTimeoutError (message : String)
  | inferServiceError (message : String)
  | responseNotRead
  | loads (e : LoadsError)
  deriving DecidableEq

inductive Event
  | request (attempt : Nat)
  | sleep (seconds : Nat)
  | chunk (parsed : Json)

/-- The locals of a call, its trace and the client's `_last_retry_count`. -/
structure Call where
  trace : List Event
  hasYielded : Bool
  lastError : Option HttpxError
  lastRetryCount : Nat

namespace Call

def emit (c : Call) (e : Event) : Call := { c with trace := c.trace ++ [e] }

/-- `has_yielded = True; yield parsed` -/
def yieldChunk (c : Call) (parsed : Json) : Call :=
  { c.emit (.chunk parsed) with hasYielded := true }

def retryCount (c : Call) (attempt : Nat) : Call := { c with lastRetryCount := attempt }

/-- The state in which a helper starts. -/
def start (lastRetryCount : Nat) : Call := ⟨[], false, none, lastRetryCount⟩

end Call

/-- `_RETRY_STATUS_CODES` -/
def retryStatusCodes : List Nat := [502, 503, 504]

/-- `response.raise_for_status()`: only a 2xx status is a success. -/
def raiseForStatus (code : Nat) (text : Option String) : Except HttpxError Unit :=
  if 200 ≤ code ∧ code ≤ 299 then .ok () else .error (.status code text)

/-- The parameters of a client and its environment. -/
structure Client where
  baseUrl : String
  maxRetries : Nat
  loads : String → Except LoadsError Json

namespace Client

variable (client : Client)

/-- `_wrap_request_error`, on the exceptions it is called with: what it raises.
The text of an unread response raises itself. -/
def wrapRequestError : HttpxError → Error
  | .request ⟨.connectTimeout, _⟩ => .inferTimeoutError s!"推理服务连接超时: {client.baseUrl}"
  | .request ⟨.readTimeout, _⟩ => .inferTimeoutError s!"推理服务读取超时: {client.baseUrl}"
  | .status code (some text) => .inferServiceError s!"Infer 请求失败 [{code}]: {text}"
  | .status _ none => .responseNotRead
  | .request ⟨.other, message⟩ => .inferServiceError s!"Infer 请求失败: {message}"

/-- How `client.post` ends; the body of a response is read, and `json` is what
`response.json()` makes of it. -/
inductive Reply
  | failed (e : RequestError)
  | response (code : Nat) (text : String) (json : Except LoadsError Json)

/-- One round of the loop of `_handle_request`. -/
def requestAttempt (script : Nat → Reply) (attempt : Nat) (c : Call) :
    Option (Except Error Json) × Call :=
  let c := c.emit (.request attempt)
  match script attempt with
  | .response code text json =>
    if code ∈ retryStatusCodes ∧ attempt < client.maxRetries then
      (none, c.emit (.sleep (2 ^ attempt)))
    else match raiseForStatus code (some text) with
      | .ok _ => (some (json.mapError Error.loads), c.retryCount attempt)
      | .error e =>
        let c := { c with lastError := some e }
        if code ∈ retryStatusCodes ∧ attempt < client.maxRetries then
          (none, c.emit (.sleep (2 ^ attempt)))
        else (some (.error (client.wrapRequestError e)), c.retryCount attempt)
  | .failed e =>
    let c := { c with lastError := some (.request e) }
    if attempt < client.maxRetries then (none, c.emit (.sleep (2 ^ attempt)))
    else (some (.error (client.wrapRequestError (.request e))), c.retryCount attempt)

/-- `_handle_request`; `ok none` is the `None` returned when the loop and the
lines below it are passed. -/
def handleRequest (script : Nat → Reply) (c : Call) : Except Error (Option Json) × Call :=
  match forRange (client.requestAttempt script) (client.maxRetries + 1) 0 c with
  | (some result, c) => (result.map some, c)
  | (none, c) =>
    match c.lastError with
    | some e => (.error (client.wrapRequestError e), c)
    | none => (.ok none, c)

/-- How one `client.stream` goes: it fails to open, or a response with a status,
a body that `aread` may fail to drain, the lines of `aiter_lines` and how they
end. -/
inductive StreamReply
  | failed (e : RequestError)
  | opened (code : Nat) (drained : Option RequestError) (lines : List String)
      (failure : Option RequestError)

/-- Why reading the lines stopped before the stream's end. -/
inductive ReadError
  | request (e : RequestError)
  | loads (e : LoadsError)

/-- `async for line in response.aiter_lines()` -/
def readLines (failure : Option RequestError) :
    List String → Call → Except ReadError Unit × Call
  | [], c =>
    match failure with
    | some e => (.error (.request e), c)
    | none => (.ok (), c)
  | line :: lines, c =>
    if line = "" then readLines failure lines c
    else if Text.startsWith line "data: " then
      let content := Text.dropFirst line 6
      if content = "[DONE]" then (.ok (), c)
      else match client.loads content with
        | .ok parsed => readLines failure lines (c.yieldChunk parsed)
        | .error .jsonDecodeError => readLines failure lines c
        | .error .other => (.error (.loads .other), c)
    else readLines failure lines c

/-- The `except httpx.RequestError` clause of `_handle_stream_request`. -/
def streamRequestError (attempt : Nat) (e : RequestError) (c : Call) :
    Option (Except Error Unit) × Call :=
  let c := { c with lastError := some (.request e) }
  if !c.hasYielded ∧ attempt < client.maxRetries then (none, c.emit (.sleep (2 ^ attempt)))
  else (some (.error (client.wrapRequestError (.request e))), c.retryCount attempt)

/-- One round of the loop of `_handle_stream_request`. -/
def streamAttempt (script : Nat → StreamReply) (attempt : Nat) (c : Call) :
    Option (Except Error Unit) × Call :=
  let c := c.emit (.request attempt)
  match script attempt with
  | .failed e => client.streamRequestError attempt e c
  | .opened code drained lines failure =>
    if code ∈ retryStatusCodes ∧ !c.hasYielded ∧ attempt < client.maxRetries then
      match drained with
      | some e => client.streamRequestError attempt e c
      | none => (none, c.emit (.sleep (2 ^ attempt)))
    else match raiseForStatus code none with
      | .error e => (some (.error (client.wrapRequestError e)), c.retryCount attempt)
      | .ok _ =>
        match client.readLines failure lines c with
        | (.ok _, c) => (some (.ok ()), c)
        | (.error (.request e), c) => client.streamRequestError attempt e c
        | (.error (.loads e), c) => (some (.error (.loads e)), c)

/-- `_handle_stream_request` -/
def handleStreamRequest (script : Nat → StreamReply) (c : Call) : Except Error Unit × Call :=
  match forRange (client.streamAttempt script) (client.maxRetries + 1) 0 c with
  | (some result, c) => (result, c)
  | (none, c) =>
    match c.lastError with
    | some e => (.error (client.wrapRequestError e), c)
    | none => (.ok (), c)

end Client
end TrajProxy.Infer
