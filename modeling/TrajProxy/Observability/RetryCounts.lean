import TrajProxy.Infer.Client
import TrajProxy.Library.OrderedDict
import TrajProxy.Library.Transition

/-! Retry counts of the inference events. The requests of one `InferClient` share its field
`_last_retry_count`: the helpers write it before they raise and before `_handle_request`
returns, and the two decorators read it when the request is over. A step of the machine is
what one request does between two suspension points. -/

namespace TrajProxy.Observability.RetryCounts
open Infer Transition

inductive Kind
  | request
  | stream
  deriving DecidableEq

/-- An exception; `other` is one that is not raised by the helpers themselves. -/
inductive Raised
  | error (e : Error) (cause : Option HttpxError)
  | other

/-- `classify_infer_error` -/
def classifyInferError : Raised → String
  | .error (.inferTimeoutError _) cause =>
    match cause with
    | some (.request ⟨.connectTimeout, _⟩) => "connect_timeout"
    | _ => "read_timeout"
  | .error (.inferServiceError _) cause =>
    match cause with
    | some (.status code _) => if code = 429 then "rate_limited" else "http_error"
    | some (.request _) => "connection"
    | none => "deserialization"
  | _ => "unknown"

/-- How a request ends. `CancelledError` and `GeneratorExit` are no `Exception`. -/
inductive Outcome
  | returned
  | raised (e : Raised)
  | cancelled

def Outcome.error : Outcome → Option Raised
  | .raised e => some e
  | _ => none

/-- What the request does after `response.aclose()`. -/
inductive Pending
  | returned
  | status (e : HttpxError)
  | request (e : RequestError)
  | raised (e : Raised)
  | cancelled
  | retried

/-- Where a request is suspended: in `get_shared_client`, in `post` or the opening of the
stream, in the pause before the next attempt, in `aread`, in `aiter_lines`, at the `yield` of
the decorator, or in `aclose`. -/
inductive Stage
  | starting
  | sending
  | sleeping (opened : Bool)
  | draining
  | reading
  | yielding
  | closing (pending : Pending)

/-- A stream is open, and `aclose` has not been called. -/
def Stage.isOpen : Stage → Bool
  | .draining | .reading | .sleeping true => true
  | _ => false

structure Request where
  kind : Kind
  model : String
  stage : Stage
  attempt : Nat
  call : Call
  /-- Attempts made. -/
  sent : Nat

/-- The retries the request has performed. -/
def Request.retries (r : Request) : Nat := r.sent - 1

/-- `EVENT_INFERENCE_COMPLETED`, with the retries the request performed. -/
structure Completed where
  model : String
  retryCount : Nat
  error : Option Raised
  errorType : Option String
  retries : Nat

/-- The `retry_count` of the decorators: `observe_inference` starts with 0 and reads the
field on a return and on an `Exception`, `observe_inference_stream` reads it in any case. -/
def retryCount (lastRetryCount : Nat) : Kind → Outcome → Nat
  | .request, .cancelled => 0
  | _, _ => lastRetryCount

/-- The end of `observe_inference` and `observe_inference_stream`. -/
def Request.completed (r : Request) (lastRetryCount : Nat) (outcome : Outcome) : Completed where
  model := r.model
  retryCount := retryCount lastRetryCount r.kind outcome
  error := outcome.error
  errorType := outcome.error.map classifyInferError
  retries := r.retries

/-- What resumes a request. -/
inductive Signal
  | clientReady
  | replied (reply : Client.Reply)
  | opened (code : Nat)
  | drained
  | line (text : String)
  | ended
  | woken
  | closed
  /-- The caller asks for the next chunk. -/
  | resumed
  /-- An await of the stream raises a `RequestError`. -/
  | broken (e : RequestError)
  /-- An await raises any other `Exception`. -/
  | raised
  | cancelled

/-- A request goes on, or is over. -/
inductive Move
  | goes (r : Request)
  | ends (outcome : Outcome)

inductive LineRead
  | skipped
  | chunk (parsed : Json)
  | done
  | raised (e : LoadsError)

section Attempts

variable (client : Client)

/-- One line of `async for line in response.aiter_lines()`. -/
def readLine (line : String) : LineRead :=
  if line = "" then .skipped
  else if Text.startsWith line "data: " then
    let content := Text.dropFirst line 6
    if content = "[DONE]" then .done
    else match client.loads content with
      | .ok parsed => .chunk parsed
      | .error .jsonDecodeError => .skipped
      | .error .other => .raised .other
  else .skipped

/-- `_wrap_request_error` raises the service's exceptions `from` the httpx one. -/
def causeOf (e : HttpxError) : Error → Option HttpxError
  | .inferTimeoutError _ | .inferServiceError _ => some e
  | .responseNotRead | .loads _ => none

namespace Request

def emit (r : Request) (e : Infer.Event) : Request := { r with call := r.call.emit e }

def goTo (r : Request) (stage : Stage) : Move := .goes { r with stage := stage }

/-- The call with the field as it stands now. -/
def resumeCall (r : Request) (lastRetryCount : Nat) : Call :=
  { r.call with lastRetryCount := lastRetryCount }

/-- A round of a retry loop: the pause before the next attempt, or the end. -/
def afterRound {α : Type} (r : Request) : Option (Except Error α) × Call → Move × Nat
  | (none, c) => (.goes { r with stage := .sleeping false, call := c }, c.lastRetryCount)
  | (some (.ok _), c) => (.ends .returned, c.lastRetryCount)
  | (some (.error e), c) =>
    (.ends (.raised (.error e (c.lastError.bind (causeOf · e)))), c.lastRetryCount)

/-- `except httpx.RequestError` of `_handle_stream_request` -/
def requestClause (r : Request) (lastRetryCount : Nat) (e : RequestError) : Move × Nat :=
  r.afterRound (client.streamRequestError r.attempt e (r.resumeCall lastRetryCount))

/-- `except httpx.HTTPStatusError` of `_handle_stream_request` -/
def statusClause (r : Request) (e : HttpxError) : Move × Nat :=
  let error := client.wrapRequestError e
  (.ends (.raised (.error error (causeOf e error))), r.attempt)

/-- The next round, or the lines below the loop. -/
def again (r : Request) : Move :=
  if r.attempt < client.maxRetries then
    .goes { r with stage := .sending, attempt := r.attempt + 1, sent := r.sent + 1 }
  else match r.call.lastError with
    | some e =>
      let error := client.wrapRequestError e
      .ends (.raised (.error error (causeOf e error)))
    | none => .ends .returned

/-- The stream is open and has a status. -/
def opened (r : Request) (code : Nat) : Move :=
  let r := r.emit (.request r.attempt)
  if code ∈ retryStatusCodes ∧ !r.call.hasYielded ∧ r.attempt < client.maxRetries then
    r.goTo .draining
  else match raiseForStatus code none with
    | .error e => r.goTo (.closing (.status e))
    | .ok _ => r.goTo .reading

def read (r : Request) (line : String) : Move :=
  match readLine client line with
  | .skipped => r.goTo .reading
  | .chunk parsed => .goes { r with stage := .yielding, call := r.call.yieldChunk parsed }
  | .done => r.goTo (.closing .returned)
  | .raised e => r.goTo (.closing (.raised (.error (.loads e) none)))

/-- The stream is closed. -/
def closed (r : Request) (lastRetryCount : Nat) : Pending → Move × Nat
  | .returned => (.ends .returned, lastRetryCount)
  | .status e => r.statusClause client e
  | .request e => r.requestClause client lastRetryCount e
  | .raised e => (.ends (.raised e), lastRetryCount)
  | .cancelled => (.ends .cancelled, lastRetryCount)
  | .retried => (r.again client, lastRetryCount)

/-- An `Exception` without a clause, or a cancellation: an open stream is closed first. -/
def abandoned (r : Request) (pending : Pending) (outcome : Outcome) : Move :=
  if r.stage.isOpen then r.goTo (.closing pending) else .ends outcome

/-- A request between two suspension points, and the field afterwards. -/
def advance (r : Request) (lastRetryCount : Nat) (signal : Signal) : Option (Move × Nat) :=
  match signal, r.stage, r.kind with
  | .clientReady, .starting, _ =>
    some (.goes { r with stage := .sending, sent := r.sent + 1 }, lastRetryCount)
  | .replied reply, .sending, .request =>
    some (r.afterRound (client.requestAttempt (fun _ => reply) r.attempt
      (r.resumeCall lastRetryCount)))
  | .opened code, .sending, .stream => some (r.opened client code, lastRetryCount)
  | .drained, .draining, _ =>
    some ((r.emit (.sleep (2 ^ r.attempt))).goTo (.sleeping true), lastRetryCount)
  | .line text, .reading, _ => some (r.read client text, lastRetryCount)
  | .ended, .reading, _ => some (r.goTo (.closing .returned), lastRetryCount)
  | .woken, .sleeping true, _ => some (r.goTo (.closing .retried), lastRetryCount)
  | .woken, .sleeping false, _ => some (r.again client, lastRetryCount)
  | .closed, .closing pending, _ => some (r.closed client lastRetryCount pending)
  | .resumed, .yielding, _ => some (r.goTo .reading, lastRetryCount)
  | .broken e, .sending, .stream =>
    some ((r.emit (.request r.attempt)).requestClause client lastRetryCount e)
  | .broken e, .draining, _ => some (r.goTo (.closing (.request e)), lastRetryCount)
  | .broken e, .reading, _ => some (r.goTo (.closing (.request e)), lastRetryCount)
  | .broken e, .closing _, _ => some (r.requestClause client lastRetryCount e)
  | .raised, .sleeping _, _ | .raised, .yielding, _ => none
  | .raised, _, _ => some (r.abandoned (.raised .other) (.raised .other), lastRetryCount)
  | .cancelled, _, _ => some (r.abandoned .cancelled .cancelled, lastRetryCount)
  | _, _, _ => none

end Request

end Attempts

section Machine

inductive Step
  | start (id : Nat) (kind : Kind) (model : String)
  | signal (id : Nat) (signal : Signal)

structure Observed where
  /-- `_last_retry_count` -/
  lastRetryCount : Nat
  requests : OrderedDict Nat Request
  events : List Completed

namespace Observed

/-- `InferClient.__init__` -/
def initial : Observed := ⟨0, ∅, []⟩

def start (s : Observed) (id : Nat) (kind : Kind) (model : String) : Observed :=
  let r : Request := ⟨kind, model, .starting, 0, .start s.lastRetryCount, 0⟩
  { s with requests := s.requests.setItem id r }

/-- The step of request `id`, which was `r`. -/
def moved (s : Observed) (id : Nat) (r : Request) : Move × Nat → Observed
  | (.goes r', lastRetryCount) =>
    { s with lastRetryCount := lastRetryCount, requests := s.requests.setItem id r' }
  | (.ends outcome, lastRetryCount) =>
    ⟨lastRetryCount, s.requests.pop id, s.events ++ [r.completed lastRetryCount outcome]⟩

def step (client : Client) (s : Observed) : Step → Option Observed
  | .start id kind model => if id ∈ s.requests then none else some (s.start id kind model)
  | .signal id signal =>
    (s.requests.get id).bind fun r =>
      (r.advance client s.lastRetryCount signal).map (s.moved id r)

end Observed

def clientMachine (client : Client) : Machine Observed Step := ⟨Observed.step client⟩

end Machine

section Rounds

variable {α : Type}

/-- A round writes the field when it is the last one, and leaves it otherwise. -/
structure Round (client : Client) (attempt n : Nat) (round : Option (Except Error α) × Call) :
    Prop where
  continues : round.1 = none → attempt < client.maxRetries ∧ round.2.lastRetryCount = n
  ends : round.1 ≠ none → round.2.lastRetryCount = attempt

theorem requestAttempt_round (client : Client) (script : Nat → Client.Reply) (attempt : Nat)
    (c : Call) :
    Round client attempt c.lastRetryCount (client.requestAttempt script attempt c) := by
  unfold Client.requestAttempt
  cases script attempt with
  | failed e =>
    dsimp only
    split_ifs with left
    · exact ⟨fun _ => ⟨left, rfl⟩, fun last => absurd rfl last⟩
    · exact ⟨nofun, fun _ => rfl⟩
  | response code text json =>
    dsimp only
    split_ifs with again
    · exact ⟨fun _ => ⟨again.2, rfl⟩, fun last => absurd rfl last⟩
    · split <;> exact ⟨nofun, fun _ => rfl⟩

theorem streamRequestError_round (client : Client) (attempt : Nat) (e : RequestError) (c : Call) :
    Round client attempt c.lastRetryCount (client.streamRequestError attempt e c) := by
  unfold Client.streamRequestError
  dsimp only
  split_ifs with left
  · exact ⟨fun _ => ⟨left.2, rfl⟩, fun last => absurd rfl last⟩
  · exact ⟨nofun, fun _ => rfl⟩

end Rounds

section Advance

/-- Stages from which the next attempt follows. -/
def Stage.Retries : Stage → Prop
  | .draining | .sleeping _ | .closing .retried => True
  | _ => False

/-- The local `attempt` counts the attempts made, and a pause has an attempt left. -/
structure Sound (client : Client) (r : Request) : Prop where
  fresh : r.stage = .starting → r.attempt = 0 ∧ r.sent = 0
  counted : r.stage ≠ .starting → r.sent = r.attempt + 1
  left : r.stage.Retries → r.attempt < client.maxRetries

/-- How a signal ends a request without a write to the field. -/
def silentEnd (stage : Stage) : Signal → Option Outcome
  | .raised =>
    match stage with
    | .starting | .sending | .closing _ => some (.raised .other)
    | _ => none
  | .cancelled => if stage.isOpen then none else some .cancelled
  | .closed =>
    match stage with
    | .closing .returned => some .returned
    | .closing (.raised e) => some (.raised e)
    | .closing .cancelled => some .cancelled
    | _ => none
  | _ => none

/-- What `advance` gives: the field keeps its value unless the request ends with a write of
its own retries. -/
inductive Fits (client : Client) (retries n : Nat) (silent : Option Outcome) :
    Move × Nat → Prop
  | goes {r : Request} (quiet : silent = none) (sound : Sound client r) :
      Fits client retries n silent (.goes r, n)
  | unwritten {outcome : Outcome} (quiet : silent = some outcome) :
      Fits client retries n silent (.ends outcome, n)
  | written {outcome : Outcome} (loud : silent = none) (whole : outcome ≠ .cancelled) :
      Fits client retries n silent (.ends outcome, retries)

variable {client : Client} {r : Request} {n : Nat}

theorem Sound.emit (h : Sound client r) (e : Infer.Event) : Sound client (r.emit e) :=
  ⟨h.fresh, h.counted, h.left⟩

theorem Sound.goTo (h : Sound client r) (running : r.stage ≠ .starting) {stage : Stage}
    (other : stage ≠ .starting) (left : stage.Retries → r.attempt < client.maxRetries) :
    Fits client r.retries n none (r.goTo stage, n) :=
  .goes rfl ⟨fun start => absurd start other, fun _ => h.counted running, left⟩

theorem Sound.retries_eq (h : Sound client r) (running : r.stage ≠ .starting) :
    r.retries = r.attempt := by
  unfold Request.retries
  rw [h.counted running, Nat.add_sub_cancel]

theorem Sound.afterRound {α : Type} (h : Sound client r) (running : r.stage ≠ .starting)
    {round : Option (Except Error α) × Call} (ran : Round client r.attempt n round) :
    Fits client r.retries n none (r.afterRound round) := by
  obtain ⟨result, c⟩ := round
  cases result with
  | none =>
    obtain ⟨left, same⟩ := ran.continues rfl
    dsimp only at same
    subst same
    exact .goes rfl ⟨nofun, fun _ => h.counted running, fun _ => left⟩
  | some result =>
    have written : c.lastRetryCount = r.retries :=
      (ran.ends nofun).trans (h.retries_eq running).symm
    cases result with
    | ok value =>
      rw [Request.afterRound, written]
      exact .written rfl nofun
    | error e =>
      rw [Request.afterRound, written]
      exact .written rfl nofun

theorem Sound.requestClause (h : Sound client r) (running : r.stage ≠ .starting)
    (e : RequestError) : Fits client r.retries n none (r.requestClause client n e) :=
  h.afterRound running (streamRequestError_round client r.attempt e (r.resumeCall n))

theorem Sound.statusClause (h : Sound client r) (running : r.stage ≠ .starting)
    (e : HttpxError) : Fits client r.retries n none (r.statusClause client e) := by
  unfold Request.statusClause
  rw [← h.retries_eq running]
  exact .written rfl nofun

theorem Sound.again (h : Sound client r) (paused : r.stage.Retries) :
    Fits client r.retries n none (r.again client, n) := by
  have running : r.stage ≠ .starting := by
    intro start
    rw [start] at paused
    exact paused
  unfold Request.again
  rw [if_pos (h.left paused)]
  exact .goes rfl ⟨nofun, fun _ => congrArg (· + 1) (h.counted running), nofun⟩

theorem Sound.read (h : Sound client r) (reading : r.stage = .reading) (line : String) :
    Fits client r.retries n none (r.read client line, n) := by
  have running : r.stage ≠ .starting := reading ▸ nofun
  unfold Request.read
  cases readLine client line with
  | skipped => exact h.goTo running nofun nofun
  | chunk parsed => exact .goes rfl ⟨nofun, fun _ => h.counted running, nofun⟩
  | done => exact h.goTo running nofun nofun
  | raised e => exact h.goTo running nofun nofun

theorem Sound.opened (h : Sound client r) (sending : r.stage = .sending) (code : Nat) :
    Fits client r.retries n none (r.opened client code, n) := by
  have running : r.stage ≠ .starting := sending ▸ nofun
  have sent := h.emit (.request r.attempt)
  unfold Request.opened
  dsimp only
  split_ifs with retry
  · exact sent.goTo running nofun fun _ => retry.2.2
  · split
    · exact sent.goTo running nofun nofun
    · exact sent.goTo running nofun nofun

theorem Sound.closed (h : Sound client r) {pending : Pending}
    (closing : r.stage = .closing pending) :
    Fits client r.retries n (silentEnd r.stage .closed) (r.closed client n pending) := by
  have running : r.stage ≠ .starting := closing ▸ nofun
  rw [closing]
  cases pending with
  | returned => exact .unwritten rfl
  | status e => exact h.statusClause running e
  | request e => exact h.requestClause running e
  | raised e => exact .unwritten rfl
  | cancelled => exact .unwritten rfl
  | retried =>
    have paused : r.stage.Retries := closing ▸ trivial
    exact h.again paused

theorem Sound.abandoned (h : Sound client r) {pending : Pending} {outcome : Outcome}
    (forgets : pending ≠ .retried) :
    Fits client r.retries n (if r.stage.isOpen then none else some outcome)
      (r.abandoned pending outcome, n) := by
  unfold Request.abandoned
  split_ifs with isOpen
  · have running : r.stage ≠ .starting := by
      intro start
      rw [start] at isOpen
      cases isOpen
    refine h.goTo running nofun ?_
    cases pending with
    | retried => exact absurd rfl forgets
    | _ => exact nofun
  · exact .unwritten rfl

theorem advance_fits (h : Sound client r) (signal : Signal) (result : Move × Nat) :
    r.advance client n signal = some result →
      Fits client r.retries n (silentEnd r.stage signal) result := by
  have running {stage : Stage} (here : r.stage = stage) (other : stage ≠ .starting) :
      r.stage ≠ .starting := here ▸ other
  fun_cases Request.advance client r n signal with
  | case1 starting =>
    rintro ⟨⟩
    obtain ⟨first, none⟩ := h.fresh starting
    exact .goes rfl ⟨nofun, fun _ => congrArg (· + 1) (none.trans first.symm), nofun⟩
  | case2 reply _ sending =>
    rintro ⟨⟩
    have ran := requestAttempt_round client (fun _ => reply) r.attempt (r.resumeCall n)
    exact h.afterRound (running sending nofun) ran
  | case3 code _ sending =>
    rintro ⟨⟩
    exact h.opened sending code
  | case4 draining =>
    rintro ⟨⟩
    have left := h.left (draining ▸ trivial)
    exact (h.emit (.sleep (2 ^ r.attempt))).goTo (running draining nofun) nofun fun _ => left
  | case5 text reading =>
    rintro ⟨⟩
    exact h.read reading text
  | case6 reading =>
    rintro ⟨⟩
    exact h.goTo (running reading nofun) nofun nofun
  | case7 sleeping =>
    rintro ⟨⟩
    have left := h.left (sleeping ▸ trivial)
    exact h.goTo (running sleeping nofun) nofun fun _ => left
  | case8 sleeping =>
    rintro ⟨⟩
    exact h.again (sleeping ▸ trivial)
  | case9 pending closing =>
    rintro ⟨⟩
    exact h.closed closing
  | case10 yielding =>
    rintro ⟨⟩
    exact h.goTo (running yielding nofun) nofun nofun
  | case11 e _ sending =>
    rintro ⟨⟩
    exact (h.emit (.request r.attempt)).requestClause (running sending nofun) e
  | case12 e draining =>
    rintro ⟨⟩
    exact h.goTo (running draining nofun) nofun nofun
  | case13 e reading =>
    rintro ⟨⟩
    exact h.goTo (running reading nofun) nofun nofun
  | case14 e pending closing =>
    rintro ⟨⟩
    exact h.requestClause (running closing nofun) e
  | case15 | case16 => nofun
  | case17 awake active =>
    rintro ⟨⟩
    have silent : silentEnd r.stage .raised =
        if r.stage.isOpen then none else some (.raised .other) := by
      cases stage : r.stage with
      | sleeping opened => exact (awake opened stage).elim
      | yielding => exact (active stage).elim
      | _ => rfl
    rw [silent]
    exact h.abandoned nofun
  | case18 =>
    rintro ⟨⟩
    exact h.abandoned nofun
  | case19 => nofun

end Advance

section Alone

/-- One request while no other runs. -/
def aloneMachine (client : Client) : Machine (Request × Nat) Signal where
  step p signal :=
    match p.1.advance client p.2 signal with
    | some (.goes r, n) => some (r, n)
    | _ => none

/-- What the helper returned or raised. -/
def Outcome.result : Outcome → Option (Except Error Unit)
  | .returned => some (.ok ())
  | .raised (.error e _) => some (.error e)
  | _ => none

/-- The request in its attempt `k`. -/
def attempting (kind : Kind) (model : String) (k : Nat) (c : Call) : Request :=
  ⟨kind, model, .sending, k, c, k + 1⟩

def arrived (kind : Kind) (model : String) (n : Nat) : Request :=
  ⟨kind, model, .starting, 0, .start n, 0⟩

variable {client : Client}

/-- Signals take `r` to `r'` and leave the field. -/
def Reaches (client : Client) (n : Nat) (r r' : Request) : Prop :=
  ∃ signals, (aloneMachine client).exec (r, n) signals = some (r', n)

/-- Signals take `r` to its end, with this result and this count in the field. -/
def EndsWith (client : Client) (n : Nat) (r : Request) (result : Except Error Unit)
    (lastRetryCount : Nat) : Prop :=
  ∃ r' signal outcome, Reaches client n r r' ∧
    r'.advance client n signal = some (.ends outcome, lastRetryCount) ∧
    outcome.result = some result

theorem Reaches.trans {n : Nat} {r r' r'' : Request} (first : Reaches client n r r')
    (second : Reaches client n r' r'') : Reaches client n r r'' := by
  obtain ⟨signals, ran⟩ := first
  obtain ⟨signals', ran'⟩ := second
  refine ⟨signals ++ signals', ?_⟩
  rw [Machine.exec_append, ran]
  exact ran'

theorem Reaches.single {n : Nat} {r r' : Request} (signal : Signal)
    (advanced : r.advance client n signal = some (.goes r', n)) : Reaches client n r r' := by
  refine ⟨[signal], ?_⟩
  have step : (aloneMachine client).step (r, n) signal = some (r', n) := by
    unfold aloneMachine
    dsimp only
    rw [advanced]
  rw [Machine.exec, step]
  rfl

theorem Reaches.starting (kind : Kind) (model : String) (n : Nat) :
    Reaches client n (arrived kind model n) (attempting kind model 0 (.start n)) :=
  .single .clientReady rfl

theorem again_attempting {kind : Kind} {model : String} {stage : Stage} {k : Nat} (c : Call)
    (left : k < client.maxRetries) :
    Request.again client ⟨kind, model, stage, k, c, k + 1⟩ =
      .goes (attempting kind model (k + 1) c) := if_pos left

/-- The retries of a run alone: the helper is in attempt `k` and has not written the field. -/
structure Attempting (client : Client) (kind : Kind) (model : String) (n k : Nat) (c : Call) :
    Prop where
  reached : Reaches client n (arrived kind model n) (attempting kind model k c)
  field : c.lastRetryCount = n
  bounded : k ≤ client.maxRetries

theorem Attempting.start (kind : Kind) (model : String) (n : Nat) :
    Attempting client kind model n 0 (.start n) :=
  ⟨.starting kind model n, rfl, Nat.zero_le _⟩

variable {model : String} {n k : Nat} {c : Call}

/-- What follows a round: the next attempt, or the end. -/
def Follows {α : Type} (client : Client) (kind : Kind) (model : String) (n k : Nat) :
    Option (Except Error α) × Call → Prop
  | (none, c) => Attempting client kind model n (k + 1) c
  | (some result, c) =>
    EndsWith client n (arrived kind model n) (result.map fun _ => ()) c.lastRetryCount

theorem afterRound_follows {α : Type} {kind : Kind} {r : Request} {stage : Stage}
    (signal : Signal) {round : Option (Except Error α) × Call}
    (reached : Reaches client n (arrived kind model n) r) (ran : Round client k n round)
    (advanced : r.advance client n signal =
      some (Request.afterRound ⟨kind, model, stage, k, c, k + 1⟩ round)) :
    Follows client kind model n k round := by
  obtain ⟨result, c'⟩ := round
  cases result with
  | none =>
    obtain ⟨left, field⟩ := ran.continues rfl
    dsimp only at field
    subst field
    have paused := reached.trans (.single _ advanced)
    refine ⟨paused.trans (.single .woken ?_), rfl, left⟩
    exact congrArg (fun move => some (move, c'.lastRetryCount)) (again_attempting c' left)
  | some result =>
    cases result with
    | ok value => exact ⟨r, signal, .returned, reached, advanced, rfl⟩
    | error e => exact ⟨r, signal, .raised _, reached, advanced, rfl⟩

theorem requestAttempt_follows (h : Attempting client .request model n k c)
    (script : Nat → Client.Reply) :
    Follows client .request model n k (client.requestAttempt script k c) := by
  have ran := requestAttempt_round client script k c
  obtain ⟨reached, rfl, -⟩ := h
  exact afterRound_follows (.replied (script k)) reached ran rfl

section Stream

theorem readLines_cons (failure : Option RequestError) (line : String) (lines : List String)
    (c : Call) :
    client.readLines failure (line :: lines) c =
      match readLine client line with
      | .skipped => client.readLines failure lines c
      | .chunk parsed => client.readLines failure lines (c.yieldChunk parsed)
      | .done => (.ok (), c)
      | .raised e => (.error (.loads e), c) := by
  rw [Client.readLines, readLine]
  split_ifs
  · rfl
  · dsimp only
    split_ifs
    · rfl
    · split <;> simp_all
  · rfl

theorem readLines_field (failure : Option RequestError) (lines : List String) (c : Call) :
    (client.readLines failure lines c).2.lastRetryCount = c.lastRetryCount := by
  induction lines generalizing c with
  | nil =>
    unfold Client.readLines
    split <;> rfl
  | cons line lines ih =>
    rw [readLines_cons]
    split
    · exact ih c
    · exact ih (c.yieldChunk _)
    · rfl
    · rfl

/-- Why the lines are over. -/
def pendingOf : Except Client.ReadError Unit → Pending
  | .ok _ => .returned
  | .error (.request e) => .request e
  | .error (.loads e) => .raised (.error (.loads e) none)

theorem Reaches.lines (failure : Option RequestError) (lines : List String) (c : Call) :
    Reaches client n ⟨.stream, model, .reading, k, c, k + 1⟩
      ⟨.stream, model, .closing (pendingOf (client.readLines failure lines c).1), k,
        (client.readLines failure lines c).2, k + 1⟩ := by
  induction lines generalizing c with
  | nil =>
    unfold Client.readLines
    cases failure with
    | none => exact .single .ended rfl
    | some e => exact .single (.broken e) rfl
  | cons line lines ih =>
    have advanced : Request.advance client ⟨.stream, model, .reading, k, c, k + 1⟩ n (.line line) =
        some (Request.read client ⟨.stream, model, .reading, k, c, k + 1⟩ line, n) := rfl
    unfold Request.read at advanced
    rw [readLines_cons]
    cases read : readLine client line with
    | skipped =>
      rw [read] at advanced
      exact (Reaches.single _ advanced).trans (ih c)
    | chunk parsed =>
      rw [read] at advanced
      have resumed : Reaches client n
          ⟨.stream, model, .yielding, k, c.yieldChunk parsed, k + 1⟩
          ⟨.stream, model, .reading, k, c.yieldChunk parsed, k + 1⟩ :=
        .single .resumed rfl
      exact (Reaches.single _ advanced).trans (resumed.trans (ih (c.yieldChunk parsed)))
    | done =>
      rw [read] at advanced
      exact .single _ advanced
    | raised e =>
      rw [read] at advanced
      exact .single _ advanced

/-- How an attempt ends once its lines are over. -/
def afterLines (client : Client) (k : Nat) :
    Except Client.ReadError Unit × Call → Option (Except Error Unit) × Call
  | (.ok _, c) => (some (.ok ()), c)
  | (.error (.request e), c) => client.streamRequestError k e c
  | (.error (.loads e), c) => (some (.error (.loads e)), c)

theorem lines_follow
    (reading : Reaches client n (arrived .stream model n)
      ⟨.stream, model, .reading, k, c, k + 1⟩)
    (field : c.lastRetryCount = n) (failure : Option RequestError) (lines : List String) :
    Follows client .stream model n k
      (afterLines client k (client.readLines failure lines c)) := by
  have closing := reading.trans (.lines failure lines c)
  have kept : (client.readLines failure lines c).2.lastRetryCount = n :=
    (readLines_field failure lines c).trans field
  generalize client.readLines failure lines c = after at closing kept ⊢
  obtain ⟨result, c'⟩ := after
  obtain rfl : c'.lastRetryCount = n := kept
  cases result with
  | ok _ => exact ⟨_, .closed, .returned, closing, rfl, rfl⟩
  | error e =>
    cases e with
    | loads e => exact ⟨_, .closed, .raised (.error (.loads e) none), closing, rfl, rfl⟩
    | request e =>
      exact afterRound_follows .closed closing (streamRequestError_round client k e c') rfl

theorem streamAttempt_follows (h : Attempting client .stream model n k c)
    (script : Nat → Client.StreamReply) :
    Follows client .stream model n k (client.streamAttempt script k c) := by
  obtain ⟨reached, rfl, bounded⟩ := h
  unfold Client.streamAttempt
  cases script k with
  | failed e =>
    have ran := streamRequestError_round client k e (c.emit (.request k))
    exact afterRound_follows (.broken e) reached ran rfl
  | opened code drained lines failure =>
    let sent := c.emit (.request k)
    have moves {move : Move} (opens : (attempting .stream model k c).opened client code = move) :
        (attempting .stream model k c).advance client c.lastRetryCount (.opened code) =
          some (move, c.lastRetryCount) := opens ▸ rfl
    dsimp only
    split_ifs with retry
    · have draining := reached.trans (.single _ (moves (if_pos retry)))
      cases drained with
      | some e =>
        have ran := streamRequestError_round client k e sent
        have closing := draining.trans (.single (.broken e) rfl)
        exact afterRound_follows .closed closing ran rfl
      | none =>
        have paused := draining.trans (.single .drained rfl)
        have closing := paused.trans (.single .woken rfl)
        refine ⟨closing.trans (.single .closed ?_), rfl, retry.2.2⟩
        exact congrArg (fun move => some (move, c.lastRetryCount))
          (again_attempting (sent.emit (.sleep (2 ^ k))) retry.2.2)
    · have opens : (attempting .stream model k c).opened client code =
          match raiseForStatus code none with
          | .error e => (attempting .stream model k sent).goTo (.closing (.status e))
          | .ok _ => (attempting .stream model k sent).goTo .reading := if_neg retry
      cases status : raiseForStatus code none with
      | error e =>
        rw [status] at opens
        have closing := reached.trans (.single _ (moves opens))
        exact ⟨_, .closed, _, closing, rfl, rfl⟩
      | ok _ =>
        rw [status] at opens
        exact lines_follow (reached.trans (.single _ (moves opens))) rfl failure lines

end Stream

/-- Alone, a request of the machine is a call of `_handle_request`. -/
theorem handleRequest_alone (client : Client) (script : Nat → Client.Reply) (model : String)
    (n : Nat) :
    EndsWith client n (arrived .request model n)
      ((client.handleRequest script (.start n)).1.map fun _ => ())
      (client.handleRequest script (.start n)).2.lastRetryCount := by
  have continues (k : Nat) (c c' : Call) (h : Attempting client .request model n k c)
      (round : client.requestAttempt script k c = (none, c')) :
      Attempting client .request model n (k + 1) c' := by
    have follows := requestAttempt_follows h script
    rw [round] at follows
    exact follows
  unfold Client.handleRequest
  rcases forRange_cases continues (client.maxRetries + 1) 0 (.start n) (.start .request model n)
    with ⟨k, c, result, c', -, before, round, ran⟩ | ⟨c, after, -⟩
  · have follows := requestAttempt_follows before script
    rw [round] at follows
    rw [ran]
    cases result <;> exact follows
  · have bound := after.bounded
    omega

/-- Alone, a stream of the machine is a call of `_handle_stream_request`. -/
theorem handleStreamRequest_alone (client : Client) (script : Nat → Client.StreamReply)
    (model : String) (n : Nat) :
    EndsWith client n (arrived .stream model n)
      ((client.handleStreamRequest script (.start n)).1.map fun _ => ())
      (client.handleStreamRequest script (.start n)).2.lastRetryCount := by
  have continues (k : Nat) (c c' : Call) (h : Attempting client .stream model n k c)
      (round : client.streamAttempt script k c = (none, c')) :
      Attempting client .stream model n (k + 1) c' := by
    have follows := streamAttempt_follows h script
    rw [round] at follows
    exact follows
  unfold Client.handleStreamRequest
  rcases forRange_cases continues (client.maxRetries + 1) 0 (.start n) (.start .stream model n)
    with ⟨k, c, result, c', -, before, round, ran⟩ | ⟨c, after, -⟩
  · have follows := streamAttempt_follows before script
    rw [round] at follows
    rw [ran]
    exact follows
  · have bound := after.bounded
    omega

end Alone

section Runs

variable {client : Client} {s : Observed}

/-- Every event reports the retries of its own request. -/
def Attributed (s : Observed) : Prop := ∀ e ∈ s.events, e.retryCount = e.retries

/-- The field holds the retries of the request. A cancelled request that is no stream does
not look at the field and must have made none. -/
def HoldsOwn (lastRetryCount : Nat) (r : Request) : Outcome → Prop
  | .cancelled => (r.kind = .request → r.retries = 0) ∧
      (r.kind = .stream → lastRetryCount = r.retries)
  | _ => lastRetryCount = r.retries

/-- A request that ends without a write to the field finds its own retries in it. -/
def Admitted (s : Observed) : Step → Prop
  | .start .. => True
  | .signal id signal => ∀ r, s.requests.get id = some r →
      ∀ outcome, silentEnd r.stage signal = some outcome → HoldsOwn s.lastRetryCount r outcome

theorem retryCount_iff (n : Nat) (r : Request) (outcome : Outcome) :
    retryCount n r.kind outcome = r.retries ↔ HoldsOwn n r outcome := by
  cases outcome with
  | returned | raised e =>
    unfold retryCount
    cases r.kind <;> exact Iff.rfl
  | cancelled =>
    unfold retryCount HoldsOwn
    cases r.kind with
    | request => exact eq_comm.trans ⟨fun none => ⟨fun _ => none, nofun⟩, fun own => own.1 rfl⟩
    | stream => exact ⟨fun own => ⟨nofun, fun _ => own⟩, fun own => own.2 rfl⟩

def AllSound (client : Client) (s : Observed) : Prop :=
  ∀ id r, s.requests.get id = some r → Sound client r

theorem sound_start (h : AllSound client s) (id : Nat) (kind : Kind) (model : String) :
    AllSound client (s.start id kind model) := by
  intro id' r present
  unfold Observed.start at present
  rw [OrderedDict.get_setItem] at present
  split_ifs at present
  · obtain rfl := Option.some_inj.mp present
    exact ⟨fun _ => ⟨rfl, rfl⟩, fun other => absurd rfl other, False.elim⟩
  · exact h id' r present

theorem sound_moved (h : AllSound client s) {id : Nat} {r : Request} {silent : Option Outcome}
    {result : Move × Nat} (fits : Fits client r.retries s.lastRetryCount silent result) :
    AllSound client (s.moved id r result) := by
  have popped (lastRetryCount : Nat) (events : List Completed) :
      AllSound client ⟨lastRetryCount, s.requests.pop id, events⟩ := by
    intro id' r' present
    rw [OrderedDict.get_pop] at present
    split_ifs at present
    exact h id' r' present
  cases fits with
  | goes quiet sound =>
    intro id' r' present
    unfold Observed.moved at present
    rw [OrderedDict.get_setItem] at present
    split_ifs at present
    · obtain rfl := Option.some_inj.mp present
      exact sound
    · exact h id' r' present
  | unwritten quiet => exact popped _ _
  | written loud whole => exact popped _ _

theorem attributed_append (h : Attributed s) (e : Completed) (lastRetryCount : Nat)
    (requests : OrderedDict Nat Request) :
    Attributed ⟨lastRetryCount, requests, s.events ++ [e]⟩ ↔ e.retryCount = e.retries := by
  unfold Attributed
  rw [List.forall_mem_append, List.forall_mem_singleton]
  exact and_iff_right h

theorem moved_attributed_iff (h : Attributed s) {id : Nat} {r : Request}
    {silent : Option Outcome} {result : Move × Nat}
    (fits : Fits client r.retries s.lastRetryCount silent result) :
    Attributed (s.moved id r result) ↔
      ∀ outcome, silent = some outcome → HoldsOwn s.lastRetryCount r outcome := by
  cases fits with
  | goes quiet sound => exact iff_of_true h (quiet ▸ nofun)
  | @unwritten outcome quiet =>
    refine ((attributed_append h _ _ _).trans (retryCount_iff _ r outcome)).trans
      ⟨?_, fun own => own outcome quiet⟩
    intro own outcome' quiet'
    obtain rfl := Option.some_inj.mp (quiet.symm.trans quiet')
    exact own
  | @written outcome loud whole =>
    refine (attributed_append h _ _ _).trans (iff_of_true ?_ (loud ▸ nofun))
    change retryCount r.retries r.kind outcome = r.retries
    unfold retryCount
    split
    · exact absurd rfl whole
    · rfl

theorem step_sound {s' : Observed} {a : Step} (h : AllSound client s)
    (taken : (clientMachine client).step s a = some s') : AllSound client s' := by
  cases a with
  | start id kind model =>
    change (if id ∈ s.requests then none else some (s.start id kind model)) = some s' at taken
    split_ifs at taken
    obtain rfl := Option.some_inj.mp taken
    exact sound_start h id kind model
  | signal id signal =>
    obtain ⟨r, present, taken⟩ := Option.bind_eq_some_iff.mp taken
    obtain ⟨result, advanced, rfl⟩ := Option.map_eq_some_iff.mp taken
    exact sound_moved h (advance_fits (h id r present) signal result advanced)

theorem step_attributed_iff {s' : Observed} {a : Step} (sound : AllSound client s)
    (h : Attributed s) (taken : (clientMachine client).step s a = some s') :
    Attributed s' ↔ Admitted s a := by
  cases a with
  | start id kind model =>
    change (if id ∈ s.requests then none else some (s.start id kind model)) = some s' at taken
    split_ifs at taken
    obtain rfl := Option.some_inj.mp taken
    exact iff_of_true h trivial
  | signal id signal =>
    obtain ⟨r, present, taken⟩ := Option.bind_eq_some_iff.mp taken
    obtain ⟨result, advanced, rfl⟩ := Option.map_eq_some_iff.mp taken
    refine (moved_attributed_iff h (advance_fits (sound id r present) signal result advanced)).trans
      ⟨fun own r' present' => ?_, fun admitted => admitted r present⟩
    obtain rfl := Option.some_inj.mp (present.symm.trans present')
    exact own

/-- In every run of a client each event reports its own request's retries exactly while the
requests that end without a write find their own count in the field. -/
theorem attributed_along_iff (client : Client) (run : List Step) :
    (clientMachine client).Along Attributed .initial run ↔
      (clientMachine client).Guarded Admitted .initial run := by
  have sound : AllSound client .initial := fun _ _ present => by cases present
  exact Machine.along_iff_guarded_of_inv (fun _ _ _ => step_sound)
    (fun _ _ _ => step_attributed_iff) sound (List.forall_mem_nil _) run

/-- After a request that needed a retry, a stream that needed none reports one. -/
theorem stream_reports_stale_count :
    ¬∀ (client : Client) (run : List Step),
      (clientMachine client).Along Attributed .initial run := by
  intro all
  let client : Client := ⟨"http://infer", 2, fun _ => .error .jsonDecodeError⟩
  let run : List Step := [.start 0 .request "m", .signal 0 .clientReady,
    .signal 0 (.replied (.failed ⟨.other, "reset"⟩)), .signal 0 .woken,
    .signal 0 (.replied (.response 200 "null" (.ok .null))),
    .start 1 .stream "m", .signal 1 .clientReady, .signal 1 (.opened 200), .signal 1 .ended,
    .signal 1 .closed]
  obtain ⟨s, ran, events⟩ : ∃ s, (clientMachine client).exec .initial run = some s ∧
      (s.events.map fun e => (e.retryCount, e.retries)) = [(1, 1), (1, 0)] := ⟨_, rfl, rfl⟩
  have own : ∀ e ∈ s.events.map fun e => (e.retryCount, e.retries), e.1 = e.2 :=
    List.forall_mem_map.mpr ((all client run).exec ran)
  rw [events] at own
  exact absurd (own (1, 0) (by decide)) (by decide)

end Runs

end TrajProxy.Observability.RetryCounts
